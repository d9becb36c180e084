import MessageLens.Options.Basic
import MessageLens.Proofs.Reference.Rule

/-!
# The rule of the bracketed form

The scanner takes the key of the bracketed form up to the first quote that blanks and a bracket
follow, not up to the next quote. Lines on which no key contains its own quote are scanned as if it
were the next quote; on other lines a key may contain the quote that delimits it.
-/

namespace MessageLens
set_option autoImplicit false

open Text

variable {cs key rest : List Char} {q : Char} {n : Nat}

/-- Blanks, a key between quotes `q`, a bracket and a parenthesis at `paren`, with blanks before
each of the two. -/
structure BracketedShape (q : Char) (cs key : List Char) (paren : Nat) : Prop where
  quote : q = '"' ∨ q = '\''
  shape : ∃ before after between rest, (∀ c ∈ before, isBlank c = true) ∧
    (∀ c ∈ after, isBlank c = true) ∧ (∀ c ∈ between, isBlank c = true) ∧
    cs = before ++ q :: (key ++ q :: (after ++ ']' :: (between ++ '(' :: rest))) ∧
    paren = before.length + key.length + after.length + between.length + 3

/-- No quote `q` in the key is followed by blanks and a bracket. -/
def Unclosing (q : Char) (key : List Char) : Prop :=
  ∀ k₁ k₂ n, key = k₁ ++ q :: k₂ → ¬ AfterBlanks ']' k₂ n

/-- The key ends at the next quote. -/
def NextQuoteHead (cs key : List Char) (paren : Nat) : Prop :=
  ∃ q, BracketedShape q cs key paren ∧ q ∉ key

/-- The key ends at the first quote that blanks and a bracket follow, and stays on its line. -/
def BracketedHead (cs key : List Char) (paren : Nat) : Prop :=
  ∃ q, BracketedShape q cs key paren ∧ '\n' ∉ key ∧ Unclosing q key

theorem NextQuoteHead.bracketed (unbroken : '\n' ∉ cs) (head : NextQuoteHead cs key n) :
    BracketedHead cs key n := by
  obtain ⟨q, shaped, unquoted⟩ := head
  refine ⟨q, shaped, ?_, ?_⟩
  · intro broken
    obtain ⟨before, after, between, rest, -, -, -, rfl, -⟩ := shaped.shape
    apply unbroken
    simp [broken]
  · rintro k₁ k₂ n rfl
    simp at unquoted

/-! ## Reading the head -/

theorem afterBlanks_cons {d c : Char} (solid : isBlank d = false) :
    AfterBlanks d (c :: cs) n ↔
      c = d ∧ n = 0 ∨ isBlank c = true ∧ ∃ m, AfterBlanks d cs m ∧ n = m + 1 := by
  constructor
  · rintro ⟨blanks, rest, all, same, rfl⟩
    cases blanks with
    | nil => exact .inl ⟨(List.cons.inj same).1, rfl⟩
    | cons b blanks =>
      rw [List.cons_append, List.cons.injEq] at same
      obtain ⟨rfl, rfl⟩ := same
      exact .inr ⟨all c (by simp), blanks.length,
        ⟨blanks, rest, fun b mem => all b (by simp [mem]), rfl, rfl⟩, by simp⟩
  · rintro (⟨rfl, rfl⟩ | ⟨blank, m, ⟨blanks, rest, all, rfl, rfl⟩, rfl⟩)
    · exact ⟨[], cs, by simp, rfl, rfl⟩
    · refine ⟨c :: blanks, rest, ?_, rfl, by simp⟩
      intro b mem
      rcases List.mem_cons.1 mem with rfl | mem
      · exact blank
      · exact all b mem

/-- A quote is no blank and no bracket, so what follows it does not matter. -/
theorem afterBlanks_append_quote (quote : q = '"' ∨ q = '\'') :
    AfterBlanks ']' (key ++ q :: rest) n ↔ AfterBlanks ']' key n := by
  have solid : isBlank ']' = false := by decide
  induction key generalizing n with
  | nil =>
    rw [List.nil_append, afterBlanks_cons solid]
    constructor
    · rintro (⟨rfl, -⟩ | ⟨blank, -⟩)
      · rcases quote with same | same <;> cases same
      · rcases quote with rfl | rfl <;> exact absurd blank (by decide)
    · rintro ⟨blanks, rest, -, same, -⟩
      simp at same
  | cons c key ih =>
    rw [List.cons_append, afterBlanks_cons solid, afterBlanks_cons solid]
    simp only [ih]

theorem bracketAfterBlanks?_eq_some :
    ReferenceForm.bracketAfterBlanks? cs = some n ↔ ∃ m, AfterBlanks ']' cs m ∧ n = m + 1 := by
  simp only [afterBlanks_iff (show isBlank ']' = false by decide)]
  unfold ReferenceForm.bracketAfterBlanks?
  split
  · rename_i rest dropped
    simp [dropped, eq_comm]
  · rename_i other
    simp only [reduceCtorEq, false_iff, not_exists, not_and]
    rintro m ⟨⟨rest, dropped⟩, -⟩
    exact absurd dropped (other rest)

/-- `key` stands before the first quote that blanks and a bracket follow, on one line; the bracket
is the last of `n` characters. -/
def ClosesKey (q : Char) (cs key : List Char) (n : Nat) : Prop :=
  ∃ after rest, (∀ c ∈ after, isBlank c = true) ∧ cs = key ++ q :: (after ++ ']' :: rest) ∧
    '\n' ∉ key ∧ Unclosing q key ∧ n = key.length + after.length + 2

theorem closesKey_nil {c : Char} :
    ClosesKey q (c :: cs) [] n ↔ c = q ∧ ∃ m, AfterBlanks ']' cs m ∧ n = m + 2 := by
  constructor
  · rintro ⟨after, rest, all, same, -, -, rfl⟩
    obtain ⟨rfl, rfl⟩ := List.cons.inj same
    exact ⟨rfl, after.length, ⟨after, rest, all, rfl, rfl⟩, by simp⟩
  · rintro ⟨rfl, m, ⟨after, rest, all, rfl, rfl⟩, rfl⟩
    refine ⟨after, rest, all, rfl, by simp, ?_, by simp⟩
    intro k₁ k₂ n same
    simp at same

theorem closesKey_cons {c c' : Char} (quote : q = '"' ∨ q = '\'') :
    ClosesKey q (c :: cs) (c' :: key) n ↔
      c' = c ∧ c ≠ '\n' ∧ ¬ (c = q ∧ ∃ m, AfterBlanks ']' cs m) ∧
        ∃ m, ClosesKey q cs key m ∧ n = m + 1 := by
  constructor
  · rintro ⟨after, rest, all, same, inside, unclosing, rfl⟩
    rw [List.cons_append, List.cons.injEq] at same
    obtain ⟨rfl, rfl⟩ := same
    refine ⟨rfl, ?_, ?_, _, ⟨after, rest, all, rfl, ?_, ?_, rfl⟩, by simp; omega⟩
    · rintro rfl
      exact inside List.mem_cons_self
    · rintro ⟨rfl, m, closing⟩
      exact unclosing [] key m rfl ((afterBlanks_append_quote quote).1 closing)
    · intro mem
      exact inside (List.mem_cons_of_mem c mem)
    · rintro k₁ k₂ m rfl
      exact unclosing (c :: k₁) k₂ m rfl
  · rintro ⟨rfl, unbroken, unclosed, m, ⟨after, rest, all, rfl, inside, unclosing, rfl⟩, rfl⟩
    refine ⟨after, rest, all, rfl, by simp [inside, Ne.symm unbroken], ?_, by simp; omega⟩
    intro k₁ k₂ m same closing
    cases k₁ with
    | nil =>
      obtain ⟨rfl, rfl⟩ := List.cons.inj same
      exact unclosed ⟨rfl, m, (afterBlanks_append_quote quote).2 closing⟩
    | cons c k₁ => exact unclosing k₁ k₂ m (List.cons.inj same).2 closing

/-- The induction is on the text: a quote that closes the key ends it, every other character belongs
to it. -/
theorem quotedKey?_eq_some (quote : q = '"' ∨ q = '\'') :
    ReferenceForm.quotedKey? q cs = some (key, n) ↔ ClosesKey q cs key n := by
  induction cs generalizing key n with
  | nil => simp [ReferenceForm.quotedKey?, ClosesKey]
  | cons c cs ih =>
    unfold ReferenceForm.quotedKey?
    by_cases closes : c = q ∧ ∃ m, AfterBlanks ']' cs m
    · have closing := closes
      obtain ⟨rfl, m, after⟩ := closing
      have bracket : ReferenceForm.bracketAfterBlanks? cs = some (m + 1) :=
        bracketAfterBlanks?_eq_some.2 ⟨m, after, rfl⟩
      simp only [if_true, bracket, Option.some.injEq, Prod.mk.injEq]
      cases key with
      | nil =>
        rw [closesKey_nil]
        constructor
        · rintro ⟨-, rfl⟩
          exact ⟨rfl, m, after, rfl⟩
        · rintro ⟨-, m', after', rfl⟩
          rw [after.unique (by decide) after']
          exact ⟨rfl, rfl⟩
      | cons c' key => simp [closesKey_cons quote, closes]
    · have unclosed : (if c = q then ReferenceForm.bracketAfterBlanks? cs else none) = none := by
        split
        · rename_i same
          rw [← Option.not_isSome_iff_eq_none, Option.isSome_iff_exists]
          rintro ⟨k, bracket⟩
          obtain ⟨m, after, -⟩ := bracketAfterBlanks?_eq_some.1 bracket
          exact closes ⟨same, m, after⟩
        · rfl
      simp only [unclosed]
      cases key with
      | nil =>
        rw [closesKey_nil]
        constructor
        · intro read
          split at read <;> simp at read
        · rintro ⟨rfl, m, after, -⟩
          exact absurd ⟨rfl, m, after⟩ closes
      | cons c' key =>
        rw [closesKey_cons quote]
        by_cases broken : c = '\n'
        · simp [broken]
        · simp only [broken, if_false, Option.map_eq_some_iff, Prod.exists, Prod.mk.injEq, ih,
            List.cons.injEq, ne_eq, not_false_eq_true, closes, true_and]
          constructor
          · rintro ⟨_, m, closes', ⟨rfl, rfl⟩, rfl⟩
            exact ⟨rfl, m, closes', rfl⟩
          · rintro ⟨rfl, m, closes', rfl⟩
            exact ⟨key, m, closes', ⟨rfl, rfl⟩, rfl⟩

theorem drop_quotedKey {after : List Char} :
    (key ++ q :: (after ++ ']' :: rest)).drop (key.length + after.length + 2) = rest := by
  have split : key ++ q :: (after ++ ']' :: rest) =
      (key ++ q :: (after ++ [']'])) ++ rest := by simp
  rw [split, List.drop_left']
  simp
  omega

theorem bracketedHead?_eq_some :
    ReferenceForm.bracketedHead? cs = some ⟨key, n⟩ ↔ BracketedHead cs key n := by
  unfold ReferenceForm.bracketedHead?
  constructor
  · intro read
    split at read
    · cases read
    · rename_i q tail dropped
      split at read
      · rename_i quote
        simp only [Option.bind_eq_bind, Option.bind_eq_some_iff, Prod.exists, Option.pure_def,
          Option.some.injEq, CallHead.mk.injEq] at read
        obtain ⟨_, m, quoted, blanks, paren, rfl, rfl⟩ := read
        obtain ⟨after, rest, all, rfl, unbroken, unclosing, rfl⟩ :=
          (quotedKey?_eq_some quote).1 quoted
        rw [drop_quotedKey] at paren
        obtain ⟨between, rest', all', rfl, rfl⟩ := parenAfterBlanks?_eq_some.1 paren
        refine ⟨q, ⟨quote, cs.takeWhile isBlank, after, between, rest', ?_, all, all', ?_,
          by omega⟩, unbroken, unclosing⟩
        · intro c mem
          exact List.all_eq_true.1 List.all_takeWhile c mem
        · rw [← dropped, List.takeWhile_append_dropWhile]
      · cases read
  · rintro ⟨q, ⟨quote, before, after, between, rest, all, all', all'', rfl, rfl⟩, unbroken,
      unclosing⟩
    have solid : isBlank q = false := by rcases quote with rfl | rfl <;> decide
    obtain ⟨dropped, taken⟩ := dropWhile_blanks solid all
      (key ++ q :: (after ++ ']' :: (between ++ '(' :: rest)))
    have quoted : ReferenceForm.quotedKey? q
        (key ++ q :: (after ++ ']' :: (between ++ '(' :: rest))) =
          some (key, key.length + after.length + 2) :=
      (quotedKey?_eq_some quote).2 ⟨after, _, all', rfl, unbroken, unclosing, rfl⟩
    have paren : parenAfterBlanks? (between ++ '(' :: rest) = some between.length :=
      parenAfterBlanks?_eq_some.2 ⟨between, rest, all'', rfl, rfl⟩
    simp only [dropped, taken, quote, if_true, quoted, drop_quotedKey, paren, Option.bind_eq_bind,
      Option.bind_some, Option.pure_def, Option.some.injEq, CallHead.mk.injEq, true_and]
    omega

/-! ## Scanning a line -/

/-- The scanner yields what the rule yields for keys that end at the first quote that blanks and a
bracket follow. On a line where no key read in this way contains the quote that delimits it, that is
what the rule yields for keys that end at the next quote. -/
theorem bracketed_scan_rule (receiver : String) (line : Int) {text : List Char}
    (unbroken : '\n' ∉ text) :
    (∀ refs, Scans BracketedHead (receiver.toList ++ ['[']) line text 0 refs ↔
      refs = ReferenceForm.bracketed.scan receiver line text) ∧
    ((∀ s key n, StandsAt (receiver.toList ++ ['[']) text s →
        BracketedHead (text.drop (s + (receiver.toList ++ ['[']).length)) key n →
        NextQuoteHead (text.drop (s + (receiver.toList ++ ['[']).length)) key n) →
      ∀ refs, Scans NextQuoteHead (receiver.toList ++ ['[']) line text 0 refs ↔
        refs = ReferenceForm.bracketed.scan receiver line text) := by
  have exact : ∀ cs key n, ReferenceForm.bracketed.head? cs = some ⟨key, n⟩ ↔
      BracketedHead cs key n := fun cs key n => bracketedHead?_eq_some
  have follows : ∀ refs, Scans BracketedHead (receiver.toList ++ ['[']) line text 0 refs ↔
      refs = ReferenceForm.bracketed.scan receiver line text := fun refs =>
    ReferenceForm.scan_iff_scans exact receiver line text
  refine ⟨follows, fun unquoted refs => ?_⟩
  rw [← follows]
  have same : ∀ s, StandsAt (receiver.toList ++ ['[']) text s → ∀ key n,
      NextQuoteHead (text.drop (s + (receiver.toList ++ ['[']).length)) key n ↔
        BracketedHead (text.drop (s + (receiver.toList ++ ['[']).length)) key n := by
    intro s stands key n
    constructor
    · intro head
      exact head.bracketed fun mem => unbroken (List.mem_of_mem_drop mem)
    · exact unquoted s key n stands
  constructor
  · exact Scans.congr same
  · exact Scans.congr fun s stands key n => (same s stands key n).symm

/-- A key that contains its quote does not disturb the scan of what follows, and a plain key ends at
the next quote. -/
theorem bracketed_scan_rule_plain :
    '\n' ∉ "m[\"a\"b\"]() m['c']()".toList ∧
    Scans BracketedHead ("m".toList ++ ['[']) 0 "m[\"a\"b\"]() m['c']()".toList 0
      [⟨"a\"b", 0, 0, 9⟩, ⟨"c", 0, 11, 18⟩] ∧
    Scans NextQuoteHead ("m".toList ++ ['[']) 0 "m[ 'a' ] ()".toList 0 [⟨"a", 0, 0, 10⟩] := by
  have unbroken : '\n' ∉ "m[\"a\"b\"]() m['c']()".toList := by decide +kernel
  refine ⟨unbroken, ((bracketed_scan_rule "m" 0 unbroken).1 _).2 (by decide +kernel), ?_⟩
  have unbroken' : '\n' ∉ "m[ 'a' ] ()".toList := by decide +kernel
  refine ((bracketed_scan_rule "m" 0 unbroken').2 ?_ _).2 (by decide +kernel)
  intro s key n stands head
  obtain ⟨q, shaped, -, -⟩ := head
  refine ⟨q, shaped, fun mem => ?_⟩
  obtain ⟨before, after, between, rest, -, -, -, split, -⟩ := shaped.shape
  -- the line holds two quotes of one kind, and those delimit the key
  have few : "m[ 'a' ] ()".toList.count q ≤ 2 := by
    rcases shaped.quote with rfl | rfl <;> decide +kernel
  have le := (List.drop_sublist (s + ("m".toList ++ ['[']).length) "m[ 'a' ] ()".toList).count_le q
  rw [split] at le
  simp only [List.count_append, List.count_cons_self] at le
  have inside := List.count_pos_iff.2 mem
  omega

/-- The key is read past the next quote, since no bracket follows that one. -/
theorem bracketed_key_holds_quote :
    isReceiver "m".toList = true ∧ '\n' ∉ "m[\"a\"b\"]()".toList ∧
    ReferenceForm.bracketed.scan "m" 0 "m[\"a\"b\"]()".toList = [⟨"a\"b", 0, 0, 9⟩] ∧
    ¬ Scans NextQuoteHead ("m".toList ++ ['[']) 0 "m[\"a\"b\"]()".toList 0
      (ReferenceForm.bracketed.scan "m" 0 "m[\"a\"b\"]()".toList) := by
  have scanned : ReferenceForm.bracketed.scan "m" 0 "m[\"a\"b\"]()".toList =
      [⟨"a\"b", 0, 0, 9⟩] := by decide +kernel
  refine ⟨by decide +kernel, by decide +kernel, scanned, ?_⟩
  rw [scanned]
  intro scans
  obtain ⟨key, s, e, -, ⟨-, n, head, -⟩, same⟩ := scans.sound _ (List.mem_singleton_self _)
  simp only [Reference.mk.injEq] at same
  have key' : key = ['a', '"', 'b'] := by
    rw [← String.toList_ofList (l := key), ← same.1]
    decide +kernel
  obtain ⟨q, shaped, unquoted⟩ := head
  rcases shaped.quote with rfl | rfl
  · simp [key'] at unquoted
  · -- the line holds no quote of the other kind
    obtain ⟨before, after, between, rest, -, -, -, split, -⟩ := shaped.shape
    have mem : '\'' ∈ "m[\"a\"b\"]()".toList :=
      List.mem_of_mem_drop (i := s + ("m".toList ++ ['[']).length) (by rw [split]; simp)
    revert mem
    decide +kernel

end MessageLens
