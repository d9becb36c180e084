import MessageLens.Proofs.Reference.Rule

/-!
# What stands between the parentheses of a call

The search for the parenthesis that closes a call counts depth and skips quoted strings. It finds
the place where a grammar says that the call closes: right behind a balanced text, that is one made
of plain characters, of quoted strings and of balanced texts in parentheses of their own.
-/

namespace MessageLens
set_option autoImplicit false

variable {line cs inner rest string : List Char} {q last : Char} {depth pos openPos k : Nat}

/-! ## The grammar -/

/-- A character that neither opens nor closes anything. -/
def IsPlain (c : Char) : Prop := c ≠ '(' ∧ c ≠ ')' ∧ isStringQuote c = false

/-- A text from a quote to the next quote of its kind with no backslash right before it. -/
def IsQuotedString (string : List Char) : Prop :=
  ∃ q body, isStringQuote q = true ∧ string = q :: (body ++ [q]) ∧ body.getLast? ≠ some '\\' ∧
    ∀ before after, body = before ++ q :: after → before.getLast? = some '\\'

/-- A text in which every parenthesis outside of strings has its partner and every string ends. -/
inductive Balanced : List Char → Prop where
  | nil : Balanced []
  | plain {c : Char} {cs : List Char} (single : IsPlain c) (rest : Balanced cs) : Balanced (c :: cs)
  | quoted {string cs : List Char} (whole : IsQuotedString string) (rest : Balanced cs) :
      Balanced (string ++ cs)
  | nested {inner cs : List Char} (inside : Balanced inner) (rest : Balanced cs) :
      Balanced ('(' :: (inner ++ ')' :: cs))

/-- A parenthesis at `close` with a balanced text between it and `openPos`. -/
structure Closes (cs : List Char) (openPos close : Nat) : Prop where
  behind : openPos < close
  paren : cs[close]? = some ')'
  between : Balanced ((cs.take close).drop (openPos + 1))

/-! ## Strings are skipped as units -/

/-- What is left of a string that `q` has opened, where `last` is the character before. -/
inductive StringRest (q : Char) : Char → List Char → Prop where
  | close {last : Char} (free : last ≠ '\\') : StringRest q last [q]
  | next {last c : Char} {cs : List Char} (escaped : c = q → last = '\\')
      (rest : StringRest q c cs) : StringRest q last (c :: cs)

theorem stringRest_iff : StringRest q last cs ↔
    ∃ body, cs = body ++ [q] ∧ (last :: body).getLast? ≠ some '\\' ∧
      ∀ before after, body = before ++ q :: after → (last :: before).getLast? = some '\\' := by
  constructor
  · intro left
    induction left with
    | close free => exact ⟨[], rfl, by simpa using free, by simp⟩
    | @next last c cs escaped left ih =>
      obtain ⟨body, rfl, free, inside⟩ := ih
      refine ⟨c :: body, rfl, by rwa [List.getLast?_cons_cons], fun before after split => ?_⟩
      cases before with
      | nil =>
        obtain ⟨rfl, -⟩ := List.cons.inj split
        simpa using escaped rfl
      | cons d before =>
        obtain ⟨rfl, behind⟩ := List.cons.inj split
        rw [List.getLast?_cons_cons]
        exact inside before after behind
  · rintro ⟨body, rfl, free, inside⟩
    induction body generalizing last with
    | nil => exact .close (by simpa using free)
    | cons c body ih =>
      refine .next (fun same => ?_) (ih (by rwa [List.getLast?_cons_cons] at free) ?_)
      · subst same
        simpa using inside [] body rfl
      · intro before after split
        have escaped := inside (c :: before) after (by rw [split, List.cons_append])
        rwa [List.getLast?_cons_cons] at escaped

theorem isQuotedString_cons : IsQuotedString (q :: cs) ↔
    isStringQuote q = true ∧ StringRest q q cs := by
  rw [stringRest_iff]
  -- no quote is a backslash, so the quote before the body counts for nothing
  have apart : ∀ body : List Char, isStringQuote q = true →
      ((q :: body).getLast? = some '\\' ↔ body.getLast? = some '\\') := by
    intro body quote
    cases body with
    | nil =>
      have differ : q ≠ '\\' := by
        rintro rfl
        cases quote
      simpa using differ
    | cons c body => rw [List.getLast?_cons_cons]
  constructor
  · rintro ⟨q', body, quote, same, free, inside⟩
    obtain ⟨rfl, rfl⟩ := List.cons.inj same
    exact ⟨quote, body, rfl, by rwa [ne_eq, apart body quote],
      fun before after split => (apart before quote).2 (inside before after split)⟩
  · rintro ⟨quote, body, rfl, free, inside⟩
    exact ⟨q, body, quote, rfl, by rwa [ne_eq, ← apart body quote],
      fun before after split => (apart before quote).1 (inside before after split)⟩

/-- The character before counts only inside of strings. -/
theorem closingFrom_last (last last' : Char) :
    closingFrom depth none last pos cs = closingFrom depth none last' pos cs := by
  cases cs <;> rfl

theorem closingFrom_of_stringRest (left : StringRest q last string) :
    closingFrom depth (some q) last pos (string ++ rest) =
      closingFrom depth none q (pos + string.length) rest := by
  induction left generalizing pos with
  | close free => simp [closingFrom, free]
  | @next last c cs escaped left ih =>
    have goesOn : ¬ (c = q ∧ last ≠ '\\') := by
      rintro ⟨same, free⟩
      exact free (escaped same)
    rw [List.cons_append, closingFrom, if_neg goesOn, ih, List.length_cons]
    congr 1
    omega

theorem stringRest_of_closingFrom (found : closingFrom depth (some q) last pos cs = some k) :
    ∃ string rest, cs = string ++ rest ∧ StringRest q last string ∧
      closingFrom depth none q (pos + string.length) rest = some k := by
  induction cs generalizing last pos with
  | nil => cases found
  | cons c cs ih =>
    rw [closingFrom] at found
    by_cases ends : c = q ∧ last ≠ '\\'
    · obtain ⟨rfl, free⟩ := ends
      rw [if_pos ⟨rfl, free⟩] at found
      exact ⟨[c], cs, rfl, .close free, found⟩
    · rw [if_neg ends] at found
      obtain ⟨string, rest, rfl, left, found⟩ := ih found
      refine ⟨c :: string, rest, rfl, .next (fun same => ?_) left, ?_⟩
      · exact Decidable.byContradiction fun free => ends ⟨same, free⟩
      · rw [List.length_cons, ← found]
        congr 1
        omega

/-! ## The search follows the grammar -/

theorem closingFrom_plain {c : Char} (single : IsPlain c) :
    closingFrom depth none last pos (c :: cs) = closingFrom depth none c (pos + 1) cs := by
  obtain ⟨noOpen, noClose, noQuote⟩ := single
  cases depth <;> simp [closingFrom, noOpen, noClose, noQuote]

theorem closingFrom_quote (quote : isStringQuote q = true) :
    closingFrom depth none last pos (q :: cs) = closingFrom depth (some q) q (pos + 1) cs := by
  have noOpen : q ≠ '(' := by rintro rfl; cases quote
  have noClose : q ≠ ')' := by rintro rfl; cases quote
  cases depth <;> simp [closingFrom, noOpen, noClose, quote]

theorem closingFrom_open :
    closingFrom depth none last pos ('(' :: cs) = closingFrom (depth + 1) none '(' (pos + 1) cs :=
  rfl

theorem closingFrom_close :
    closingFrom (depth + 1) none last pos (')' :: cs) = closingFrom depth none ')' (pos + 1) cs :=
  rfl

/-- A balanced text is gone over without a trace, at whatever depth. -/
theorem closingFrom_of_balanced (balanced : Balanced inner) :
    closingFrom depth none last pos (inner ++ rest) =
      closingFrom depth none last (pos + inner.length) rest := by
  induction balanced generalizing depth last pos rest with
  | nil => rfl
  | plain single _ ih =>
    rw [List.cons_append, closingFrom_plain single, ih, List.length_cons, closingFrom_last]
    congr 1
    omega
  | @quoted string cs whole _ ih =>
    cases string with
    | nil =>
      obtain ⟨q, body, -, same, -⟩ := whole
      cases same
    | cons q string =>
      obtain ⟨quote, left⟩ := isQuotedString_cons.1 whole
      rw [List.append_assoc, List.cons_append, closingFrom_quote quote,
        closingFrom_of_stringRest left, ih, List.length_append, List.length_cons, closingFrom_last]
      congr 1
      omega
  | @nested inner cs _ _ ihInner ih =>
    rw [List.cons_append, List.append_assoc, List.cons_append, closingFrom_open, ihInner,
      closingFrom_close, ih, List.length_cons, List.length_append, List.length_cons,
      closingFrom_last]
    congr 1
    omega

/-- What is found behind a balanced text: at depth zero the end, else the rest one level up. -/
def FoundBehind (pos : Nat) (inner rest : List Char) (k : Nat) : (depth : Nat) → Prop
  | 0 => k = pos + inner.length
  | depth + 1 => closingFrom depth none ')' (pos + inner.length + 1) rest = some k

theorem FoundBehind.append {front : List Char}
    (behind : FoundBehind (pos + front.length) inner rest k depth) :
    FoundBehind pos (front ++ inner) rest k depth := by
  cases depth <;> simpa [FoundBehind, Nat.add_assoc] using behind

/-- Whatever is found lies behind a balanced text and a parenthesis. The induction is on the length
of the text: behind a string or an inner pair of parentheses the search goes on with what is left.
-/
theorem balanced_of_closingFrom (found : closingFrom depth none last pos cs = some k) :
    ∃ inner rest, cs = inner ++ ')' :: rest ∧ Balanced inner ∧
      FoundBehind pos inner rest k depth := by
  induction size : cs.length using Nat.strongRecOn generalizing depth last pos cs with
  | _ n ih =>
  subst size
  -- what has been gone over and the balanced text behind it make one balanced text
  have extend : ∀ (front left : List Char) {last' : Char}, cs = front ++ left → front ≠ [] →
      (∀ inner, Balanced inner → Balanced (front ++ inner)) →
      closingFrom depth none last' (pos + front.length) left = some k →
      ∃ inner rest, cs = inner ++ ')' :: rest ∧ Balanced inner ∧
        FoundBehind pos inner rest k depth := by
    intro front left last' split nonempty joins found
    have shorter : left.length < cs.length := by
      rw [split, List.length_append]
      have := List.length_pos_iff.2 nonempty
      omega
    obtain ⟨inner, rest, rfl, balanced, behind⟩ := ih _ shorter found rfl
    exact ⟨front ++ inner, rest, by rw [split, List.append_assoc], joins inner balanced,
      behind.append⟩
  cases cs with
  | nil => cases found
  | cons c cs =>
    by_cases opens : c = '('
    · subst opens
      rw [closingFrom_open] at found
      obtain ⟨inner, left, rfl, balanced, behind⟩ := ih _ (by simp) found rfl
      have found : closingFrom depth none ')' (pos + ('(' :: (inner ++ [')'])).length) left =
          some k := by
        simpa [FoundBehind, Nat.add_assoc, Nat.add_comm, Nat.add_left_comm] using behind
      refine extend ('(' :: (inner ++ [')'])) left (by simp) (by simp) ?_ found
      intro more balancedMore
      simpa using Balanced.nested balanced balancedMore
    · by_cases closes : c = ')'
      · subst closes
        refine ⟨[], cs, rfl, .nil, ?_⟩
        cases depth with
        | zero => exact (Option.some.inj found).symm
        | succ depth => exact found
      · cases quote : isStringQuote c with
        | true =>
          rw [closingFrom_quote quote] at found
          obtain ⟨string, left, rfl, restOf, found⟩ := stringRest_of_closingFrom found
          have whole : IsQuotedString (c :: string) := isQuotedString_cons.2 ⟨quote, restOf⟩
          rw [show pos + 1 + string.length = pos + (c :: string).length by
            rw [List.length_cons]; omega] at found
          exact extend (c :: string) left rfl (by simp) (fun _ => .quoted whole) found
        | false =>
          have single : IsPlain c := ⟨opens, closes, quote⟩
          rw [closingFrom_plain single] at found
          exact extend [c] cs rfl (by simp) (fun _ => .plain single) found

/-! ## Where a call closes -/

theorem closes_iff : Closes line openPos k ↔
    ∃ inner rest, line.drop (openPos + 1) = inner ++ ')' :: rest ∧ Balanced inner ∧
      k = openPos + 1 + inner.length := by
  constructor
  · rintro ⟨behind, paren, between⟩
    obtain ⟨inside, char⟩ := List.getElem?_eq_some_iff.1 paren
    refine ⟨(line.take k).drop (openPos + 1), line.drop (k + 1), ?_, between, ?_⟩
    · calc line.drop (openPos + 1)
          = (line.take k ++ line.drop k).drop (openPos + 1) := by rw [List.take_append_drop]
        _ = (line.take k).drop (openPos + 1) ++ line.drop k := by
            rw [List.drop_append_of_le_length]
            rw [List.length_take]
            omega
        _ = _ := by rw [List.drop_eq_getElem_cons inside, char]
    · rw [List.length_drop, List.length_take]
      omega
  · rintro ⟨inner, rest, split, balanced, rfl⟩
    refine ⟨by omega, ?_, ?_⟩
    · rw [← List.getElem?_drop, split]
      simp
    · rw [List.drop_take, split]
      simpa using balanced

theorem closingParen?_eq_some : closingParen? line openPos = some k ↔ Closes line openPos k := by
  rw [closes_iff, closingParen?]
  constructor
  · intro found
    exact balanced_of_closingFrom found
  · rintro ⟨inner, rest, split, balanced, rfl⟩
    rw [split, closingFrom_of_balanced balanced]
    rfl

/-- The search for the parenthesis that closes a call answers as the grammar says: with the one
place where a balanced text ends at a parenthesis, and with nothing where there is no such place.
The search by offset gives the same answer for each position on the line. -/
theorem closing_found_exactly (line : List Char) (openPos : Nat) :
    (∀ close, closingParen? line openPos = some close ↔ Closes line openPos close) ∧
    (closingParen? line openPos = none ↔ ∀ close, ¬ Closes line openPos close) ∧
    (∀ close close', Closes line openPos close → Closes line openPos close' → close = close') ∧
    (openPos < line.length →
      closingOffset? line openPos = some ((closingParen? line openPos).map Int.ofNat)) := by
  refine ⟨fun close => closingParen?_eq_some, ?_, ?_, closingOffset?_of_lt⟩
  · rw [Option.eq_none_iff_forall_ne_some]
    exact forall_congr' fun close => not_congr closingParen?_eq_some
  · intro close close' first second
    rw [← closingParen?_eq_some] at first second
    exact Option.some.inj (first.symm.trans second)

/-- A line on which parentheses stand in strings, an escaped quote ends no string, and the call is
closed behind an inner call. -/
theorem closing_found_exactly_nested :
    1 < "m(\"a)\\\")\", (b))".toList.length ∧
    closingOffset? "m(\"a)\\\")\", (b))".toList 1 = some (some 14) ∧
    Closes "m(\"a)\\\")\", (b))".toList 1 14 := by
  have exactly := closing_found_exactly "m(\"a)\\\")\", (b))".toList 1
  have found : closingParen? "m(\"a)\\\")\", (b))".toList 1 = some 14 := by decide
  have offset := exactly.2.2.2 (by decide)
  rw [found] at offset
  exact ⟨by decide, offset, (exactly.1 14).1 found⟩

end MessageLens
