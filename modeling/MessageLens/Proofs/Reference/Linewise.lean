import MessageLens.Proofs.Reference.Bracketed
import MessageLens.Proofs.Reference.Spans
import MessageLens.Proofs.Text.Lines

/-!
# Scanning line by line

Nothing is carried from one line to the next. The references of texts joined by a line feed are
those of the first text and, further down, those of the second. A carriage return at the end of a
line is part of no reference and in the way of none, so that both kinds of line end are one. Whoever
edits a line therefore changes the references on it, and those on later lines only move with their
lines.
-/

namespace MessageLens
set_option autoImplicit false

open Text

variable {receiver : String} {token cs front rest key : List Char} {c d q : Char} {n : Nat}
  {form : ReferenceForm} {line : Int}

/-- The reference `n` lines further down. -/
def Reference.down (n : Nat) (r : Reference) : Reference := { r with line := r.line + n }

/-! ## Lines are scanned alike wherever they stand -/

theorem ReferenceForm.scanFrom_down (n : Nat) {pos resume : Nat} {before : Option Char} :
    form.scanFrom token (line + n) pos resume before cs =
      (form.scanFrom token line pos resume before cs).map (·.down n) := by
  induction cs generalizing pos resume before with
  | nil => rfl
  | cons c cs ih =>
    simp only [scanFrom]
    split
    · split
      · exact ih
      · split
        · exact ih
        · rw [List.map_cons, ih]
          rfl
    · exact ih

theorem scanLine_down (receiver : String) (n : Nat) (l : List Char) :
    scanLine receiver (line + n) l = (scanLine receiver line l).map (·.down n) := by
  have forms (form : ReferenceForm) : form.scan receiver (line + n) l =
      (form.scan receiver line l).map (·.down n) := ReferenceForm.scanFrom_down n
  rw [scanLine, scanLine, List.map_append, forms, forms]

theorem scanLines_down (receiver : String) (n first : Nat) (ls : List (List Char)) :
    scanLines receiver (first + n) ls = (scanLines receiver first ls).map (·.down n) := by
  induction ls generalizing first with
  | nil => rfl
  | cons l ls ih =>
    have next : first + n + 1 = first + 1 + n := by omega
    rw [scanLines, scanLines, List.map_append, next, ih, ← scanLine_down, Int.natCast_add]

/-! ## A return at the end of a line -/

/-- A character put behind a text belongs to what stands behind another one of the text. -/
theorem concat_eq_append_cons (other : c ≠ d) :
    cs ++ [c] = front ++ d :: rest ↔ ∃ rest', rest = rest' ++ [c] ∧ cs = front ++ d :: rest' := by
  constructor
  · intro split
    rcases List.eq_nil_or_concat rest with rfl | ⟨rest', e, rfl⟩
    · exact absurd (List.append_inj' split rfl).2 (by simpa using other)
    · rw [List.concat_eq_append] at split ⊢
      have whole : cs ++ [c] = (front ++ d :: rest') ++ [e] := by simpa using split
      obtain ⟨rfl, same⟩ := List.append_inj' whole rfl
      obtain rfl : c = e := by simpa using same
      exact ⟨rest', rfl, rfl⟩
  · rintro ⟨rest', rfl, rfl⟩
    simp

theorem afterBlanks_concat (other : c ≠ d) : AfterBlanks d (cs ++ [c]) n ↔ AfterBlanks d cs n := by
  constructor
  · rintro ⟨blanks, rest, all, split, rfl⟩
    obtain ⟨rest', -, rfl⟩ := (concat_eq_append_cons other).1 split
    exact ⟨blanks, rest', all, rfl, rfl⟩
  · rintro ⟨blanks, rest, all, rfl, rfl⟩
    exact ⟨blanks, rest ++ [c], all, by simp, rfl⟩

theorem parenAfterBlanks?_concat (other : c ≠ '(') :
    parenAfterBlanks? (cs ++ [c]) = parenAfterBlanks? cs := by
  apply Option.ext
  intro n
  rw [parenAfterBlanks?_eq_some, parenAfterBlanks?_eq_some, afterBlanks_concat other]

theorem takeWhile_concat {p : Char → Bool} (stops : p c = false) :
    (cs ++ [c]).takeWhile p = cs.takeWhile p := by
  rw [List.takeWhile_append]
  split
  · rename_i whole
    rw [(List.takeWhile_prefix p).eq_of_length whole]
    simp [stops]
  · rfl

theorem dropWhile_concat {p : Char → Bool} (stops : p c = false) :
    (cs ++ [c]).dropWhile p = cs.dropWhile p ++ [c] := by
  rw [List.dropWhile_append]
  split
  · rename_i gone
    rw [List.isEmpty_iff.1 gone]
    simp [stops]
  · rfl

theorem dottedHead?_return : ReferenceForm.dottedHead? (cs ++ ['\r']) =
    ReferenceForm.dottedHead? cs := by
  cases cs with
  | nil => rfl
  | cons c cs =>
    have stops : isKeyChar '\r' = false := by decide
    simp only [List.cons_append, ReferenceForm.dottedHead?, takeWhile_concat stops,
      dropWhile_concat stops, parenAfterBlanks?_concat (show '\r' ≠ '(' by decide)]

/-- The parenthesis is the last character that the shape of a head asks for. -/
theorem bracketedShape_concat (other : c ≠ '(') :
    BracketedShape q (cs ++ [c]) key n ↔ BracketedShape q cs key n := by
  constructor
  · rintro ⟨quote, before, after, between, rest, all, all', all'', split, rfl⟩
    have whole : cs ++ [c] =
        (before ++ q :: (key ++ q :: (after ++ ']' :: between))) ++ '(' :: rest := by
      simpa using split
    obtain ⟨rest', -, rfl⟩ := (concat_eq_append_cons other).1 whole
    exact ⟨quote, before, after, between, rest', all, all', all'', by simp, rfl⟩
  · rintro ⟨quote, before, after, between, rest, all, all', all'', rfl, rfl⟩
    exact ⟨quote, before, after, between, rest ++ [c], all, all', all'', by simp, rfl⟩

theorem bracketedHead?_return : ReferenceForm.bracketedHead? (cs ++ ['\r']) =
    ReferenceForm.bracketedHead? cs := by
  apply Option.ext
  rintro ⟨key, n⟩
  rw [bracketedHead?_eq_some, bracketedHead?_eq_some]
  exact exists_congr fun q => and_congr_left' (bracketedShape_concat (by decide))

theorem ReferenceForm.head?_return : form.head? (cs ++ ['\r']) = form.head? cs := by
  cases form with
  | dotted => exact dottedHead?_return
  | bracketed => exact bracketedHead?_return

/-- Nothing is closed by a return. -/
theorem closingFrom_return {depth pos : Nat} {quote : Option Char} {last : Char} :
    closingFrom depth quote last pos (cs ++ ['\r']) = closingFrom depth quote last pos cs := by
  induction cs generalizing depth quote last pos with
  | nil => cases quote <;> simp [closingFrom, isStringQuote]
  | cons c cs ih =>
    rw [List.cons_append]
    cases quote with
    | some q => exact ih
    | none =>
      unfold closingFrom
      split
      · exact ih
      · split
        · cases depth with
          | zero => rfl
          | succ d => exact ih
        · split <;> exact ih

theorem closingFrom_drop_return {depth pos : Nat} {quote : Option Char} {last : Char} :
    closingFrom depth quote last pos ((cs ++ ['\r']).drop n) =
      closingFrom depth quote last pos (cs.drop n) := by
  by_cases inside : n ≤ cs.length
  · rw [List.drop_append_of_le_length inside, closingFrom_return]
  · rw [List.drop_of_length_le (by simp; omega), List.drop_of_length_le (by omega)]

/-- No receiver ends at a return, and no head or call needs one. -/
theorem ReferenceForm.scanFrom_return {pos resume : Nat} {before : Option Char} :
    form.scanFrom (receiver.toList ++ [form.opener]) line pos resume before (cs ++ ['\r']) =
      form.scanFrom (receiver.toList ++ [form.opener]) line pos resume before cs := by
  have other : form.opener ≠ '\r' := by cases form <;> decide
  have nowhere : (receiver.toList ++ [form.opener]).isPrefixOf [] = false := by
    cases receiver.toList <;> rfl
  have stands : ∀ cs, (receiver.toList ++ [form.opener]).isPrefixOf (cs ++ ['\r']) =
      (receiver.toList ++ [form.opener]).isPrefixOf cs := by
    intro cs
    rw [Bool.eq_iff_iff, List.isPrefixOf_iff_prefix, List.isPrefixOf_iff_prefix,
      List.prefix_concat_iff]
    refine or_iff_right fun same => other ?_
    simpa using (List.append_inj' same rfl).2
  generalize receiver.toList ++ [form.opener] = token at nowhere stands ⊢
  induction cs generalizing pos resume before with
  | nil =>
    have here : token.isPrefixOf ['\r'] = false := (stands []).trans nowhere
    simp only [List.nil_append, scanFrom, here, Bool.false_eq_true, and_false, if_false]
  | cons c cs ih =>
    have here := stands (c :: cs)
    rw [List.cons_append] at here ⊢
    simp only [scanFrom, here]
    split
    · rename_i reached
      have le := (List.isPrefixOf_iff_prefix.1 reached.2.2).length_le
      rw [← List.cons_append, List.drop_append_of_le_length le, head?_return]
      split
      · exact ih
      · rw [closingFrom_drop_return]
        split
        · exact ih
        · rw [ih]
    · exact ih

theorem scanLine_return (receiver : String) (line : Int) (l : List Char) :
    scanLine receiver line (l ++ ['\r']) = scanLine receiver line l := by
  have forms (form : ReferenceForm) : form.scan receiver line (l ++ ['\r']) =
      form.scan receiver line l := ReferenceForm.scanFrom_return
  rw [scanLine, scanLine, forms, forms]

theorem scanLine_dropReturn (receiver : String) (line : Int) (l : List Char) :
    scanLine receiver line (dropReturn l) = scanLine receiver line l := by
  unfold dropReturn
  split
  · rename_i ended
    obtain ⟨front, rfl⟩ := List.getLast?_eq_some_iff.1 ended
    rw [List.dropLast_concat, scanLine_return]
  · rfl

theorem scanLines_dropReturn (receiver : String) (first : Nat) (ls : List (List Char)) :
    scanLines receiver first (ls.map dropReturn) = scanLines receiver first ls := by
  induction ls generalizing first with
  | nil => rfl
  | cons l ls ih => rw [List.map_cons, scanLines, scanLines, scanLine_dropReturn, ih]

/-- The references of a text are those of its pieces between line feeds. -/
theorem findReferences_eq (receiver text : String) :
    findReferences receiver text = scanLines receiver 0 (pieces text.toList) :=
  scanLines_dropReturn receiver 0 (pieces text.toList)

/-! ## Texts that are joined -/

theorem findReferences_newline (receiver a b : String) :
    findReferences receiver (a ++ "\n" ++ b) = findReferences receiver a ++
      (findReferences receiver b).map (·.down (a.toList.count '\n' + 1)) := by
  have joined : (a ++ "\n" ++ b).toList = a.toList ++ '\n' :: b.toList := by simp
  rw [findReferences_eq, findReferences_eq, findReferences_eq, joined, pieces_append_newline,
    scanLines_append, length_pieces, scanLines_down]

theorem findReferences_return (receiver a b : String) :
    findReferences receiver (a ++ "\r\n" ++ b) = findReferences receiver (a ++ "\n" ++ b) := by
  have joined : (a ++ "\n" ++ b).toList = a.toList ++ '\n' :: b.toList := by simp
  have joined' : (a ++ "\r\n" ++ b).toList = (a.toList ++ ['\r']) ++ '\n' :: b.toList := by simp
  obtain ⟨front, last, split, split'⟩ := pieces_concat (show '\r' ≠ '\n' by decide) a.toList
  rw [findReferences_eq, findReferences_eq, joined, joined', pieces_append_newline,
    pieces_append_newline, split, split']
  simp only [scanLines_append, scanLines, scanLine_return, List.length_append, List.length_cons,
    List.length_nil]

/-! ## A line that is edited -/

/-- Cutting off lines cuts off the references on them. -/
theorem scanLines_cut (receiver : String) {ls : List (List Char)} (le : n ≤ ls.length) :
    (scanLines receiver 0 ls).filter (fun r : Reference => r.line < n) =
      scanLines receiver 0 (ls.take n) ∧
    (scanLines receiver 0 ls).filter (fun r : Reference => n ≤ r.line) =
      scanLines receiver n (ls.drop n) := by
  have taken : (ls.take n).length = n := List.length_take_of_le le
  have parts : scanLines receiver 0 ls =
      scanLines receiver 0 (ls.take n) ++ scanLines receiver n (ls.drop n) := by
    calc scanLines receiver 0 ls = scanLines receiver 0 (ls.take n ++ ls.drop n) := by
          rw [List.take_append_drop]
      _ = _ := by rw [scanLines_append, taken, Nat.zero_add]
  have before : ∀ r ∈ scanLines receiver 0 (ls.take n), r.line < n := by
    intro r mem
    have place := (scanLines_line r mem).2
    omega
  have behind : ∀ r ∈ scanLines receiver n (ls.drop n), n ≤ r.line := fun r mem =>
    (scanLines_line r mem).1
  rw [parts, List.filter_append, List.filter_append]
  constructor
  · have none : ∀ r ∈ scanLines receiver n (ls.drop n), ¬ r.line < n := fun r mem =>
      Int.not_lt.2 (behind r mem)
    rw [List.filter_eq_self.2 fun r mem => decide_eq_true (before r mem),
      List.filter_eq_nil_iff.2 fun r mem => by simpa using none r mem, List.append_nil]
  · have none : ∀ r ∈ scanLines receiver 0 (ls.take n), ¬ n ≤ r.line := fun r mem =>
      Int.not_le.2 (before r mem)
    rw [List.filter_eq_nil_iff.2 fun r mem => by simpa using none r mem,
      List.filter_eq_self.2 fun r mem => decide_eq_true (behind r mem), List.nil_append]

theorem findReferences_replaceLine (receiver text replacement : String) {i : Nat}
    (inside : i < (lines text.toList).length) :
    findReferences receiver (replaceLine text i replacement) =
      (findReferences receiver text).filter (fun r : Reference => r.line < i) ++
      (findReferences receiver replacement).map (·.down i) ++
      ((findReferences receiver text).filter (fun r : Reference => i < r.line)).map
        (·.down (replacement.toList.count '\n')) := by
  rw [lines, List.length_map] at inside
  have before := (scanLines_cut receiver (Nat.le_of_lt inside)).1
  have behind := (scanLines_cut receiver (Nat.succ_le_of_lt inside)).2
  have taken : ((pieces text.toList).take i).length = i :=
    List.length_take_of_le (Nat.le_of_lt inside)
  have moved : i + (replacement.toList.count '\n' + 1) =
      i + 1 + replacement.toList.count '\n' := by omega
  have place := scanLines_down receiver i 0 (pieces replacement.toList)
  rw [Nat.zero_add] at place
  have later : (findReferences receiver text).filter (fun r : Reference => i < r.line) =
      (findReferences receiver text).filter (fun r : Reference => (i + 1 : Nat) ≤ r.line) :=
    List.filter_congr fun r _ => decide_eq_decide.2 (by omega)
  rw [later, findReferences_eq, findReferences_eq receiver text,
    findReferences_eq receiver replacement, pieces_replaceLine inside, scanLines_append,
    scanLines_append, taken, Nat.zero_add, length_pieces, moved, scanLines_down, before, behind,
    place, List.append_assoc]

/-- Texts joined by a line feed have the references of the first and, further down, those of the
second; it makes no difference whether a carriage return stands before the line feed. If a line is
replaced, the references on the lines before it stay, and those on the lines behind it move with
their lines; between them stand those of what has taken its place. -/
theorem references_linewise (receiver : String) :
    (∀ a b : String, findReferences receiver (a ++ "\n" ++ b) = findReferences receiver a ++
      (findReferences receiver b).map (·.down (a.toList.count '\n' + 1))) ∧
    (∀ a b : String, findReferences receiver (a ++ "\r\n" ++ b) =
      findReferences receiver (a ++ "\n" ++ b)) ∧
    (∀ (text replacement : String) (i : Nat), i < (lines text.toList).length →
      findReferences receiver (replaceLine text i replacement) =
        (findReferences receiver text).filter (fun r : Reference => r.line < i) ++
        (findReferences receiver replacement).map (·.down i) ++
        ((findReferences receiver text).filter (fun r : Reference => i < r.line)).map
          (·.down (replacement.toList.count '\n'))) := by
  exact ⟨findReferences_newline receiver, findReferences_return receiver,
    fun text replacement _ inside => findReferences_replaceLine receiver text replacement inside⟩

/-- The line that is replaced leaves a call open; its place is taken by two lines. -/
theorem references_linewise_edited :
    1 < (lines "m.a()\r\nm.b(\nm['c']()".toList).length ∧
    findReferences "m" (replaceLine "m.a()\r\nm.b(\nm['c']()" 1 "m.d()\nm.e()") =
      [⟨"a", 0, 0, 4⟩, ⟨"d", 1, 0, 4⟩, ⟨"e", 2, 0, 4⟩, ⟨"c", 3, 0, 7⟩] := by
  have inside : 1 < (lines "m.a()\r\nm.b(\nm['c']()".toList).length := by decide +kernel
  obtain ⟨-, -, edited⟩ := references_linewise "m"
  exact ⟨inside, (edited _ "m.d()\nm.e()" 1 inside).trans (by decide +kernel)⟩

end MessageLens
