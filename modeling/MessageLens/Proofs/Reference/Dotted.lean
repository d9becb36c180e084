import MessageLens.Options.Basic
import MessageLens.Proofs.Reference.Rule

/-!
# The dotted form is scanned exactly

For a receiver that is an identifier, the dotted form yields every call of the form
`receiver.key (...)` on the line and nothing else. No call starts in what is passed over after one
that does not close: between the dot and the parenthesis stand a key and blanks, so no other dot,
and a receiver does not reach over a parenthesis.
-/

namespace MessageLens
set_option autoImplicit false

open Text

variable {cs key receiver token text : List Char} {d : Char} {line : Int} {s t n : Nat}

/-- A letter, an underscore or a dollar sign, and then any of these and digits. -/
def IsIdentifier (cs : List Char) : Prop :=
  ∃ c rest, cs = c :: rest ∧ isKeyStart c = true ∧ ∀ d ∈ rest, isKeyChar d = true

theorem isReceiver_iff : isReceiver cs = true ↔ IsIdentifier cs := by
  unfold isReceiver IsIdentifier
  cases cs with
  | nil => simp
  | cons c rest => simp [List.all_eq_true, and_assoc]

theorem isKeyChar_of_isKeyStart {c : Char} (start : isKeyStart c = true) : isKeyChar c = true := by
  unfold isKeyStart at start
  unfold isKeyChar Char.isAlphanum
  simp only [Bool.or_eq_true] at start ⊢
  rcases start with (letter | underscore) | dollar
  · exact .inl (.inl (.inl letter))
  · exact .inl (.inr underscore)
  · exact .inr dollar

theorem IsIdentifier.chars (identifier : IsIdentifier cs) : ∀ c ∈ cs, isKeyChar c = true := by
  obtain ⟨first, rest, rfl, start, continued⟩ := identifier
  intro c mem
  rcases List.mem_cons.1 mem with rfl | mem
  · exact isKeyChar_of_isKeyStart start
  · exact continued c mem

/-- The longest identifier at the front, and after it blanks and a parenthesis at `paren`. -/
structure DottedHead (cs key : List Char) (paren : Nat) : Prop where
  identifier : IsIdentifier key
  front : key <+: cs
  longest : ∀ other, IsIdentifier other → other <+: cs → other.length ≤ key.length
  call : ∃ n, AfterBlanks '(' (cs.drop key.length) n ∧ paren = key.length + n

/-! ## Reading the head -/

/-- What continues an identifier as far as possible is the longest one. -/
theorem longest_identifier_iff (cs : List Char) {c : Char} (start : isKeyStart c = true) :
    (IsIdentifier key ∧ key <+: c :: cs ∧
      ∀ other, IsIdentifier other → other <+: c :: cs → other.length ≤ key.length) ↔
    key = c :: cs.takeWhile isKeyChar := by
  have identifier : IsIdentifier (c :: cs.takeWhile isKeyChar) :=
    ⟨c, _, rfl, start, fun d mem => List.all_eq_true.1 List.all_takeWhile d mem⟩
  have front : c :: cs.takeWhile isKeyChar <+: c :: cs := by
    simpa using List.takeWhile_prefix isKeyChar
  have longest : ∀ other, IsIdentifier other → other <+: c :: cs →
      other.length ≤ (c :: cs.takeWhile isKeyChar).length := by
    rintro other ⟨c', rest, rfl, -, continued⟩ ⟨behind, same⟩
    rw [List.cons_append, List.cons.injEq] at same
    obtain ⟨-, rfl⟩ := same
    rw [List.takeWhile_append_of_pos continued]
    simp
  constructor
  · rintro ⟨identifier', front', longest'⟩
    have le := longest key identifier' front'
    have ge := longest' _ identifier front
    exact (List.prefix_of_prefix_length_le front' front le).eq_of_length (by omega)
  · rintro rfl
    exact ⟨identifier, front, longest⟩

theorem dottedHead?_eq_some :
    ReferenceForm.dottedHead? cs = some ⟨key, n⟩ ↔ DottedHead cs key n := by
  cases cs with
  | nil =>
    refine ⟨fun none => (by cases none), fun head => ?_⟩
    obtain ⟨c, rest, rfl, -⟩ := head.identifier
    simpa using head.front
  | cons c cs =>
    by_cases start : isKeyStart c = true
    · have split : ∀ key, key = c :: cs.takeWhile isKeyChar →
          (c :: cs).drop key.length = cs.dropWhile isKeyChar := by
        rintro key rfl
        rw [List.length_cons, List.drop_succ_cons]
        calc cs.drop (cs.takeWhile isKeyChar).length
            = (cs.takeWhile isKeyChar ++ cs.dropWhile isKeyChar).drop
                (cs.takeWhile isKeyChar).length := by rw [List.takeWhile_append_dropWhile]
          _ = cs.dropWhile isKeyChar := List.drop_left
      simp only [ReferenceForm.dottedHead?, start, if_true, Option.map_eq_some_iff,
        parenAfterBlanks?_eq_some, CallHead.mk.injEq]
      constructor
      · rintro ⟨m, after, rfl, rfl⟩
        obtain ⟨identifier, front, longest⟩ := (longest_identifier_iff cs start).2 rfl
        exact ⟨identifier, front, longest, m, by rw [split _ rfl]; exact after, rfl⟩
      · rintro ⟨identifier, front, longest, m, after, rfl⟩
        have same := (longest_identifier_iff cs start).1 ⟨identifier, front, longest⟩
        rw [split key same] at after
        exact ⟨m, after, same.symm, by rw [same]⟩
    · simp only [ReferenceForm.dottedHead?, start, Bool.false_eq_true, if_false, reduceCtorEq,
        false_iff]
      intro head
      obtain ⟨c', rest, rfl, start', -⟩ := head.identifier
      obtain ⟨behind, same⟩ := head.front
      rw [List.cons_append, List.cons.injEq] at same
      exact start (same.1 ▸ start')

/-- Up to its parenthesis a head holds no dot. -/
theorem DottedHead.chars (head : DottedHead cs key n) :
    cs[n]? = some '(' ∧ ∀ i, i ≤ n → cs[i]? ≠ some '.' := by
  obtain ⟨m, ⟨blanks, rest, all, dropped, rfl⟩, rfl⟩ := head.call
  obtain ⟨behind, rfl⟩ := head.front
  rw [List.drop_left] at dropped
  have chars : ∀ c ∈ key ++ blanks, c ≠ '.' := by
    intro c mem dot
    subst dot
    rcases List.mem_append.1 mem with mem | mem
    · exact absurd (head.identifier.chars _ mem) (by decide)
    · exact absurd (all _ mem) (by decide)
  have whole : key ++ behind = (key ++ blanks) ++ '(' :: rest := by
    rw [dropped, List.append_assoc]
  have length : (key ++ blanks).length = key.length + blanks.length := List.length_append
  constructor
  · rw [whole, List.getElem?_append_right (by omega)]
    simp [length]
  · intro i le dot
    rw [whole] at dot
    by_cases inside : i < (key ++ blanks).length
    · rw [List.getElem?_append_left inside] at dot
      exact chars _ (List.mem_of_getElem? dot) rfl
    · rw [List.getElem?_append_right (by omega),
        show i - (key ++ blanks).length = 0 by omega] at dot
      simp at dot

/-! ## No call is passed over -/

theorem StandsAt.char (stands : StandsAt token text s) {i : Nat} (inside : i < token.length) :
    text[s + i]? = token[i]? := by
  obtain ⟨rest, same⟩ := stands.here
  rw [← List.getElem?_drop, ← same, List.getElem?_append_left inside]

/-- Occurrences of a token do not overlap if its last character occurs nowhere else in it. -/
theorem StandsAt.disjoint (once : d ∉ receiver) (first : StandsAt (receiver ++ [d]) text s)
    (second : StandsAt (receiver ++ [d]) text t) (lt : s < t) :
    s + (receiver ++ [d]).length ≤ t := by
  apply Nat.le_of_not_lt
  intro overlap
  rw [List.length_append, List.length_singleton] at overlap
  have last := first.char (i := receiver.length) (by simp)
  have inner := second.char (i := s + receiver.length - t) (by simp; omega)
  rw [show t + (s + receiver.length - t) = s + receiver.length by omega, last,
    List.getElem?_append_left (by omega : s + receiver.length - t < receiver.length)] at inner
  refine once (List.mem_of_getElem? (inner.symm.trans ?_))
  simp

/-- Where scanning resumes, no occurrence of the receiver has been passed over. -/
theorem dotted_unskipped (identifier : IsIdentifier receiver) {yielded : List Reference}
    {later : Nat} (stands : StandsAt (receiver ++ ['.']) text s)
    (trial : Trial DottedHead (receiver ++ ['.']) line text s yielded later)
    (stands' : StandsAt (receiver ++ ['.']) text t) (lt : s < t) : later ≤ t := by
  have solid : ∀ c, isKeyChar c = false → c ∉ receiver := by
    intro c other mem
    rw [identifier.chars c mem] at other
    cases other
  have apart := stands.disjoint (solid '.' (by decide)) stands' lt
  cases trial with
  | misshapen => exact apart
  | found => exact apart
  | @unclosed key n head closing =>
    obtain ⟨paren, dotless⟩ := head.chars
    have length : (receiver ++ ['.']).length = receiver.length + 1 := by simp
    simp only [List.getElem?_drop, length] at paren dotless apart ⊢
    apply Nat.le_of_not_lt
    intro passed
    by_cases early : t + receiver.length ≤ s + (receiver.length + 1) + n
    · -- the dot of the second occurrence would stand in the head of the first
      have dot := stands'.char (i := receiver.length) (by omega)
      rw [List.getElem?_concat_length] at dot
      apply dotless (t + receiver.length - (s + (receiver.length + 1))) (by omega)
      rw [← dot]
      congr 1
      omega
    · -- the receiver of the second occurrence would reach over the parenthesis
      have inner := stands'.char (i := s + (receiver.length + 1) + n - t) (by omega)
      rw [List.getElem?_append_left (by omega),
        show t + (s + (receiver.length + 1) + n - t) = s + (receiver.length + 1) + n by omega,
        paren] at inner
      exact solid '(' (by decide) (List.mem_of_getElem? inner.symm)

/-- A reference in dotted form: the receiver and a dot stand at `s` with no word character before
them, then comes the longest identifier, which is the key, then blanks and a parenthesis, and that
parenthesis is closed at `e`. -/
def IsDottedReference (receiver text key : List Char) (s e : Nat) : Prop :=
  IsCall DottedHead (receiver ++ ['.']) text key s e

/-- The scanner yields exactly the references in dotted form, in the order in which they start and
each once. -/
theorem dotted_scan_exact {receiver : String} (accepted : isReceiver receiver.toList = true)
    (line : Int) (text : List Char) :
    (ReferenceForm.dotted.scan receiver line text).Pairwise (fun r r' => r.colStart < r'.colStart) ∧
    ∀ r, r ∈ ReferenceForm.dotted.scan receiver line text ↔
      ∃ key s e, IsDottedReference receiver.toList text key s e ∧
        r = ⟨String.ofList key, line, s, e⟩ := by
  have exact : ∀ cs key n, ReferenceForm.dotted.head? cs = some ⟨key, n⟩ ↔ DottedHead cs key n :=
    fun cs key n => dottedHead?_eq_some
  have scans := (ReferenceForm.scan_iff_scans exact receiver line text).2 rfl
  refine ⟨scans.ordered (by simp), fun r => ⟨fun mem => ?_, ?_⟩⟩
  · obtain ⟨key, s, e, -, call, rfl⟩ := scans.sound r mem
    exact ⟨key, s, e, call, rfl⟩
  · rintro ⟨key, s, e, call, rfl⟩
    apply scans.complete ?_ ?_ key s e (Nat.zero_le s) call
    · exact ReferenceForm.unambiguous exact
    · intro s yielded later t stands trial stands' lt
      exact dotted_unskipped (isReceiver_iff.1 accepted) stands trial stands' lt

/-- A call is found inside one that does not close, although its key names the receiver again. -/
theorem dotted_scan_exact_nested :
    isReceiver "$m".toList = true ∧
      ReferenceForm.dotted.scan "$m" 3 "$m.$m ($m.b()".toList = [⟨"b", 3, 7, 12⟩] ∧
      IsDottedReference "$m".toList "$m.$m ($m.b()".toList ['b'] 7 12 := by
  have accepted : isReceiver "$m".toList = true := by decide +kernel
  have scanned : ReferenceForm.dotted.scan "$m" 3 "$m.$m ($m.b()".toList = [⟨"b", 3, 7, 12⟩] := by
    decide +kernel
  refine ⟨accepted, scanned, ?_⟩
  have found : (⟨"b", 3, 7, 12⟩ : Reference) ∈
      ReferenceForm.dotted.scan "$m" 3 "$m.$m ($m.b()".toList := by
    rw [scanned]
    exact List.mem_singleton_self _
  obtain ⟨key, s, e, reference, same⟩ := ((dotted_scan_exact accepted 3 _).2 _).1 found
  simp only [Reference.mk.injEq] at same
  obtain ⟨named, -, start, closed⟩ := same
  have key' : key = ['b'] := by
    rw [← String.toList_ofList (l := key), ← named]
    decide +kernel
  obtain rfl : s = 7 := by omega
  obtain rfl : e = 12 := by omega
  exact key' ▸ reference

end MessageLens
