import MessageLens.Reference.Scan

/-!
# The rule that a scan follows

A line is gone through from left to right. At the first place from the resume point on where the
receiver stands with its opener, and no word character before it, the head of a call is read. What
has been read there decides what is yielded and where scanning resumes. How a head is read is a
parameter; `scan_iff_scans` says that the scanner follows the rule for the heads that it reads.
-/

namespace MessageLens
set_option autoImplicit false

open Text

variable {form : ReferenceForm} {reads : List Char → List Char → Nat → Prop}
  {token text front cs : List Char} {line : Int} {s t resume now : Nat}
  {refs refs' : List Reference}

/-! ## Where a call closes, and blanks before a character -/

/-- Positions are counted from where the search begins. -/
theorem closingFrom_shift (pos : Nat) {depth : Nat} {quote : Option Char} {last : Char} :
    closingFrom depth quote last pos cs = (closingFrom depth quote last 0 cs).map (pos + ·) := by
  induction cs generalizing pos depth quote last with
  | nil => cases quote <;> simp [closingFrom]
  | cons c cs ih =>
    have next : ∀ (d : Nat) (q : Option Char) (l : Char),
        closingFrom d q l (pos + 1) cs = (closingFrom d q l (0 + 1) cs).map (pos + ·) := by
      intro d q l
      rw [ih (pos + 1), ih (0 + 1), Option.map_map]
      congr 1
      funext k
      simp only [Function.comp_apply]
      omega
    cases quote with
    | some q => exact next ..
    | none =>
      unfold closingFrom
      split
      · exact next ..
      · split
        · cases depth with
          | zero => simp
          | succ d => exact next ..
        · split <;> exact next ..

/-- Both ways to look for the closing parenthesis agree on the positions of a line. -/
theorem closingOffset?_of_lt {openPos : Nat} (inside : openPos < text.length) :
    closingOffset? text openPos = some ((closingParen? text openPos).map Int.ofNat) := by
  unfold closingOffset? closingParen?
  have first : ((openPos : Int) + 1).toNat = openPos + 1 := by omega
  by_cases ended : text.length = openPos + 1
  · have none : text.drop (openPos + 1) = [] := List.drop_of_length_le (by omega)
    rw [if_pos (by omega), none]
    rfl
  · rw [if_neg (by omega), if_neg (by omega), closingFrom_shift (openPos + 1), Option.map_map]
    simp only [first, if_neg (show ¬ ((openPos : Int) + 1 < 0) by omega)]
    cases closingFrom 0 none '(' 0 (text.drop (openPos + 1)) with
    | none => rfl
    | some k => simp

/-- After `n` blanks stands the character `d`. -/
def AfterBlanks (d : Char) (cs : List Char) (n : Nat) : Prop :=
  ∃ blanks rest, (∀ c ∈ blanks, isBlank c = true) ∧ cs = blanks ++ d :: rest ∧ n = blanks.length

theorem dropWhile_blanks {d : Char} {blanks : List Char} (solid : isBlank d = false)
    (all : ∀ c ∈ blanks, isBlank c = true) (rest : List Char) :
    (blanks ++ d :: rest).dropWhile isBlank = d :: rest ∧
      (blanks ++ d :: rest).takeWhile isBlank = blanks := by
  constructor
  · rw [List.dropWhile_append_of_pos all, List.dropWhile_cons_of_neg (by simp [solid])]
  · rw [List.takeWhile_append_of_pos all, List.takeWhile_cons_of_neg (by simp [solid])]
    simp

theorem afterBlanks_iff {d : Char} {n : Nat} (solid : isBlank d = false) :
    AfterBlanks d cs n ↔
      (∃ rest, cs.dropWhile isBlank = d :: rest) ∧ n = (cs.takeWhile isBlank).length := by
  constructor
  · rintro ⟨blanks, rest, all, rfl, rfl⟩
    obtain ⟨dropped, taken⟩ := dropWhile_blanks solid all rest
    rw [dropped, taken]
    exact ⟨⟨rest, rfl⟩, rfl⟩
  · rintro ⟨⟨rest, dropped⟩, rfl⟩
    refine ⟨cs.takeWhile isBlank, rest, ?_, ?_, rfl⟩
    · intro c mem
      exact List.all_eq_true.1 List.all_takeWhile c mem
    · rw [← dropped, List.takeWhile_append_dropWhile]

theorem AfterBlanks.unique {d : Char} {m n : Nat} (solid : isBlank d = false)
    (first : AfterBlanks d cs m) (second : AfterBlanks d cs n) : m = n := by
  rw [afterBlanks_iff solid] at first second
  rw [first.2, second.2]

theorem parenAfterBlanks?_eq_some {n : Nat} :
    parenAfterBlanks? cs = some n ↔ AfterBlanks '(' cs n := by
  rw [afterBlanks_iff (by decide)]
  unfold parenAfterBlanks?
  split
  · rename_i rest dropped
    simp [dropped, eq_comm]
  · rename_i other
    simp only [reduceCtorEq, false_iff, not_and]
    rintro ⟨rest, dropped⟩
    exact absurd dropped (other rest)

/-! ## The rule -/

/-- The token stands at a position, and no word character stands right before it. -/
structure StandsAt (token text : List Char) (s : Nat) : Prop where
  here : token <+: text.drop s
  apart : s = 0 ∨ ∃ c, text[s - 1]? = some c ∧ isWordChar c = false

/-- The first such position from `resume` on. -/
structure NextAt (token text : List Char) (resume s : Nat) : Prop where
  stands : StandsAt token text s
  reached : resume ≤ s
  first : ∀ t, resume ≤ t → t < s → ¬ StandsAt token text t

/-- What is yielded at a position, and where scanning resumes: right after the token, unless the
head of a call is read there and the call does not close; then right after its parenthesis. -/
inductive Trial (reads : List Char → List Char → Nat → Prop) (token : List Char) (line : Int)
    (text : List Char) (s : Nat) : List Reference → Nat → Prop where
  | misshapen (shapeless : ∀ key n, ¬ reads (text.drop (s + token.length)) key n) :
      Trial reads token line text s [] (s + token.length)
  | unclosed {key : List Char} {n : Nat} (head : reads (text.drop (s + token.length)) key n)
      (closing : closingParen? text (s + token.length + n) = none) :
      Trial reads token line text s [] (s + token.length + n + 1)
  | found {key : List Char} {n e : Nat} (head : reads (text.drop (s + token.length)) key n)
      (closing : closingParen? text (s + token.length + n) = some e) :
      Trial reads token line text s [⟨String.ofList key, line, s, e⟩] (s + token.length)

/-- What is yielded from a resume point on. -/
inductive Scans (reads : List Char → List Char → Nat → Prop) (token : List Char) (line : Int)
    (text : List Char) : Nat → List Reference → Prop where
  | done {resume : Nat} (nothing : ∀ s, resume ≤ s → ¬ StandsAt token text s) :
      Scans reads token line text resume []
  | next {resume s later : Nat} {yielded refs : List Reference} (next : NextAt token text resume s)
      (trial : Trial reads token line text s yielded later)
      (rest : Scans reads token line text later refs) :
      Scans reads token line text resume (yielded ++ refs)

theorem NextAt.unique (first : NextAt token text resume s) (second : NextAt token text resume t) :
    s = t := by
  rcases Nat.lt_trichotomy s t with before | same | behind
  · exact absurd first.stands (second.first s first.reached before)
  · exact same
  · exact absurd second.stands (first.first t second.reached behind)

/-- A head is read in one way only. -/
def Unambiguous (reads : List Char → List Char → Nat → Prop) : Prop :=
  ∀ cs key key' n n', reads cs key n → reads cs key' n' → key = key' ∧ n = n'

theorem Trial.unique (unambiguous : Unambiguous reads) {yielded yielded' : List Reference}
    {later later' : Nat} (first : Trial reads token line text s yielded later)
    (second : Trial reads token line text s yielded' later') :
    yielded = yielded' ∧ later = later' := by
  cases first with
  | misshapen shapeless =>
    cases second with
    | misshapen => exact ⟨rfl, rfl⟩
    | unclosed head => exact absurd head (shapeless _ _)
    | found head => exact absurd head (shapeless _ _)
  | unclosed head closing =>
    cases second with
    | misshapen shapeless => exact absurd head (shapeless _ _)
    | unclosed head' =>
      obtain ⟨-, rfl⟩ := unambiguous _ _ _ _ _ head head'
      exact ⟨rfl, rfl⟩
    | found head' closing' =>
      obtain ⟨-, rfl⟩ := unambiguous _ _ _ _ _ head head'
      rw [closing] at closing'
      cases closing'
  | found head closing =>
    cases second with
    | misshapen shapeless => exact absurd head (shapeless _ _)
    | unclosed head' closing' =>
      obtain ⟨-, rfl⟩ := unambiguous _ _ _ _ _ head head'
      rw [closing] at closing'
      cases closing'
    | found head' closing' =>
      obtain ⟨rfl, rfl⟩ := unambiguous _ _ _ _ _ head head'
      rw [closing] at closing'
      cases closing'
      exact ⟨rfl, rfl⟩

theorem Scans.unique (unambiguous : Unambiguous reads)
    (first : Scans reads token line text resume refs)
    (second : Scans reads token line text resume refs') : refs = refs' := by
  induction first generalizing refs' with
  | done nothing =>
    cases second with
    | done => rfl
    | next next => exact absurd next.stands (nothing _ next.reached)
  | next here trial rest ih =>
    cases second with
    | done nothing => exact absurd here.stands (nothing _ here.reached)
    | next here' trial' rest' =>
      obtain rfl := here.unique here'
      obtain ⟨rfl, rfl⟩ := trial.unique unambiguous trial'
      rw [ih rest']

theorem Scans.pass {later : Nat} (next : NextAt token text resume s)
    (trial : Trial reads token line text s [] later)
    (rest : Scans reads token line text later refs) : Scans reads token line text resume refs :=
  Scans.next next trial rest

/-- Where the token does not stand, scanning may as well have resumed before. -/
theorem Scans.earlier (passed : ∀ r, now ≤ r → r < resume → ¬ StandsAt token text r)
    (le : now ≤ resume) (scans : Scans reads token line text resume refs) :
    Scans reads token line text now refs := by
  cases scans with
  | done nothing =>
    apply Scans.done
    intro r reached
    by_cases behind : resume ≤ r
    · exact nothing r behind
    · exact passed r reached (by omega)
  | next here trial rest =>
    refine .next ⟨here.stands, Nat.le_trans le here.reached, ?_⟩ trial rest
    intro r reached before
    by_cases behind : resume ≤ r
    · exact here.first r behind before
    · exact passed r reached (by omega)

/-- Heads count only where the token stands. -/
theorem Scans.congr {reads' : List Char → List Char → Nat → Prop}
    (same : ∀ s, StandsAt token text s → ∀ key n,
      reads (text.drop (s + token.length)) key n ↔ reads' (text.drop (s + token.length)) key n)
    (scans : Scans reads token line text resume refs) :
    Scans reads' token line text resume refs := by
  induction scans with
  | done nothing => exact .done nothing
  | next here trial rest ih =>
    refine .next here ?_ ih
    cases trial with
    | misshapen shapeless =>
      exact .misshapen fun key n head => shapeless key n ((same _ here.stands key n).2 head)
    | unclosed head closing => exact .unclosed ((same _ here.stands _ _).1 head) closing
    | found head closing => exact .found ((same _ here.stands _ _).1 head) closing

/-! ## What the rule yields -/

/-- A call that closes: the token stands at `s`, the head of a call with that key is read after it,
and the parenthesis of the head is closed at `e`. -/
def IsCall (reads : List Char → List Char → Nat → Prop) (token text key : List Char) (s e : Nat) :
    Prop :=
  StandsAt token text s ∧ ∃ n, reads (text.drop (s + token.length)) key n ∧
    closingParen? text (s + token.length + n) = some e

theorem Trial.mem {yielded : List Reference} {later : Nat} (stands : StandsAt token text s)
    (trial : Trial reads token line text s yielded later) :
    ∀ r ∈ yielded, ∃ key e, IsCall reads token text key s e ∧
      r = ⟨String.ofList key, line, s, e⟩ := by
  intro r mem
  cases trial with
  | misshapen => simp at mem
  | unclosed => simp at mem
  | found head closing =>
    obtain rfl := List.mem_singleton.1 mem
    exact ⟨_, _, ⟨stands, _, head, closing⟩, rfl⟩

theorem Trial.later_ge {yielded : List Reference} {later : Nat}
    (trial : Trial reads token line text s yielded later) : s + token.length ≤ later := by
  cases trial <;> omega

/-- Only calls are yielded, from the resume point on. -/
theorem Scans.sound (scans : Scans reads token line text resume refs) :
    ∀ r ∈ refs, ∃ key s e, resume ≤ s ∧ IsCall reads token text key s e ∧
      r = ⟨String.ofList key, line, s, e⟩ := by
  induction scans with
  | done => intro r mem; simp at mem
  | next here trial rest ih =>
    intro r mem
    rcases List.mem_append.1 mem with mem | mem
    · obtain ⟨key, e, call, rfl⟩ := trial.mem here.stands r mem
      exact ⟨key, _, e, here.reached, call, rfl⟩
    · obtain ⟨key, s, e, reached, call, rfl⟩ := ih r mem
      have le := trial.later_ge
      have le' := here.reached
      exact ⟨key, s, e, by omega, call, rfl⟩

/-- Calls are yielded in the order in which they start, each start once. -/
theorem Scans.ordered (solid : 0 < token.length)
    (scans : Scans reads token line text resume refs) :
    refs.Pairwise fun r r' => r.colStart < r'.colStart := by
  induction scans with
  | done => exact .nil
  | next here trial rest ih =>
    refine List.pairwise_append.2 ⟨?_, ih, ?_⟩
    · cases trial <;> simp
    · intro r mem r' mem'
      obtain ⟨key, e, -, rfl⟩ := trial.mem here.stands r mem
      obtain ⟨key', s', e', reached, -, rfl⟩ := rest.sound r' mem'
      have le := trial.later_ge
      simp only
      omega

/-- If the token stands at no place that is skipped, then no call is. -/
theorem Scans.complete (unambiguous : Unambiguous reads)
    (unskipped : ∀ s yielded later t, StandsAt token text s →
      Trial reads token line text s yielded later → StandsAt token text t → s < t → later ≤ t)
    (scans : Scans reads token line text resume refs) :
    ∀ key s e, resume ≤ s → IsCall reads token text key s e →
      ⟨String.ofList key, line, s, e⟩ ∈ refs := by
  induction scans with
  | done nothing => intro key s e reached call; exact absurd call.1 (nothing s reached)
  | @next _ s₀ later yielded _ here trial rest ih =>
    intro key s e reached call
    rcases Nat.lt_trichotomy s s₀ with before | rfl | behind
    · exact absurd call.1 (here.first s reached before)
    · obtain ⟨n, head, closing⟩ := call.2
      obtain ⟨rfl, -⟩ := trial.unique unambiguous (.found head closing)
      exact List.mem_append_left _ (List.mem_singleton.2 rfl)
    · apply List.mem_append_right
      exact ih key s e (unskipped s₀ yielded later s here.stands trial call.1 behind) call

/-! ## The scanner follows the rule -/

theorem standsAt_append_iff :
    StandsAt token (front ++ cs) front.length ↔
      ReferenceForm.atBoundary front.getLast? = true ∧ token.isPrefixOf cs = true := by
  have behind : (front ++ cs).drop front.length = cs := by simp
  have before : ReferenceForm.atBoundary front.getLast? = true ↔
      front.length = 0 ∨ ∃ c, (front ++ cs)[front.length - 1]? = some c ∧ isWordChar c = false := by
    rcases List.eq_nil_or_concat front with rfl | ⟨init, c, rfl⟩
    · simp [ReferenceForm.atBoundary]
    · simp [ReferenceForm.atBoundary]
  rw [before, List.isPrefixOf_iff_prefix]
  constructor
  · rintro ⟨here, apart⟩
    rw [behind] at here
    exact ⟨apart, here⟩
  · rintro ⟨apart, here⟩
    exact ⟨by rw [behind]; exact here, apart⟩

/-- A token does not stand behind the end of a line. -/
theorem StandsAt.lt_length (stands : StandsAt token text s) (solid : 0 < token.length) :
    s + token.length ≤ text.length := by
  have le := stands.here.length_le
  rw [List.length_drop] at le
  omega

/-- The induction is on what is left of the line. -/
theorem ReferenceForm.scanFrom_scans (solid : 0 < token.length)
    (exact : ∀ cs key n, form.head? cs = some ⟨key, n⟩ ↔ reads cs key n)
    (split : text = front ++ cs) :
    Scans reads token line text (max front.length resume)
      (form.scanFrom token line front.length resume front.getLast? cs) := by
  induction cs generalizing front resume with
  | nil =>
    apply Scans.done
    intro s reached stands
    have le := stands.lt_length solid
    rw [split, List.length_append, List.length_nil] at le
    omega
  | cons c cs ih =>
    have here : StandsAt token text front.length ↔
        ReferenceForm.atBoundary front.getLast? = true ∧ token.isPrefixOf (c :: cs) = true := by
      rw [split]
      exact standsAt_append_iff
    have later : ∀ resume, Scans reads token line text (max (front.length + 1) resume)
        (form.scanFrom token line (front.length + 1) resume (some c) cs) := by
      intro resume
      have step : Scans reads token line text (max (front ++ [c]).length resume)
          (form.scanFrom token line (front ++ [c]).length resume (front ++ [c]).getLast? cs) :=
        ih (by simp [split])
      simpa using step
    -- resumed behind the token, the rest of the line is scanned from there
    have behind : ∀ resume, front.length < resume →
        Scans reads token line text resume
          (form.scanFrom token line (front.length + 1) resume (some c) cs) := by
      intro resume lt
      have step := later resume
      rwa [Nat.max_eq_right (by omega)] at step
    have after : (c :: cs).drop token.length = text.drop (front.length + token.length) := by
      rw [split, ← List.drop_drop]
      simp
    rw [scanFrom]
    split
    · rename_i stands
      have next : NextAt token text (max front.length resume) front.length :=
        ⟨here.2 stands.2, by omega, fun t reached before => by omega⟩
      simp only [after]
      cases head : form.head? (text.drop (front.length + token.length)) with
      | none =>
        refine .pass next (.misshapen fun key n read => ?_) (behind _ (by omega))
        rw [← exact, head] at read
        cases read
      | some head' =>
        obtain ⟨key, n⟩ := head'
        have read := (exact _ _ _).1 head
        have call : closingFrom 0 none '(' (front.length + token.length + n + 1)
            ((text.drop (front.length + token.length)).drop (n + 1)) =
              closingParen? text (front.length + token.length + n) := by
          rw [closingParen?, List.drop_drop]
          rfl
        simp only [call]
        cases closing : closingParen? text (front.length + token.length + n) with
        | none => exact .pass next (.unclosed read closing) (behind _ (by omega))
        | some e => exact .next next (.found read closing) (behind _ (by omega))
    · rename_i passed
      refine (later resume).earlier ?_ (by omega)
      intro r reached before stands
      have same : r = front.length := by omega
      rw [same, here] at stands
      exact passed ⟨by omega, stands⟩

theorem ReferenceForm.unambiguous
    (exact : ∀ cs key n, form.head? cs = some ⟨key, n⟩ ↔ reads cs key n) : Unambiguous reads := by
  intro cs key key' n n' first second
  rw [← exact] at first second
  rw [first] at second
  cases second
  exact ⟨rfl, rfl⟩

/-- The scanner yields exactly what the rule yields for the heads that it reads. -/
theorem ReferenceForm.scan_iff_scans
    (exact : ∀ cs key n, form.head? cs = some ⟨key, n⟩ ↔ reads cs key n) (receiver : String)
    (line : Int) (text : List Char) {refs : List Reference} :
    Scans reads (receiver.toList ++ [form.opener]) line text 0 refs ↔
      refs = form.scan receiver line text := by
  have solid : 0 < (receiver.toList ++ [form.opener]).length := by simp
  have scans : Scans reads (receiver.toList ++ [form.opener]) line text (max 0 0)
      (form.scan receiver line text) := scanFrom_scans solid exact (List.nil_append text).symm
  constructor
  · intro other
    exact other.unique (unambiguous exact) scans
  · rintro rfl
    exact scans

end MessageLens
