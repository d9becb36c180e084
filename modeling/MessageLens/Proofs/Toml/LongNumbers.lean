import Mathlib.Data.List.Infix
import MessageLens.Toml.Document

/-!
# Where a document has a number that is too long

Every reader goes over a document from its front and leaves an end of it. So a reader that stops at
a decimal integer of too many digits has it before itself in the document, whatever other readers
have called it.
-/

namespace MessageLens.Toml
set_option autoImplicit false

/-- A run of digits with underscores among them has more digits than are read. -/
def HasLongNumber (cs : List Char) : Prop :=
  ∃ run, run <:+: cs ∧ (∀ c ∈ run, c.isDigit = true ∨ c = '_') ∧
    maxDigits < (run.filter Char.isDigit).length

theorem HasLongNumber.of_suffix {cs rest : List Char} (long : HasLongNumber rest)
    (part : rest <:+ cs) : HasLongNumber cs := by
  obtain ⟨run, inside, digits, many⟩ := long
  exact ⟨run, inside.trans part.isInfix, digits, many⟩

section Stays

variable {α β : Type} {left : α → List Char} {left' : β → List Char} {cs rest : List Char}
  {x : Except ReadError α}

/-- What a reader makes of a text: it leaves an end of it, and stops for a number that is too long
only if the text has one. -/
structure Stays (left : α → List Char) (cs : List Char) (x : Except ReadError α) : Prop where
  suffix : ∀ a, x = .ok a → left a <:+ cs
  long : x = .error .numberTooLong → HasLongNumber cs

theorem stays_ok {a : α} (part : left a <:+ cs) : Stays left cs (.ok a) where
  suffix _ same := Except.ok.inj same ▸ part
  long same := nomatch same

theorem stays_malformed : Stays left cs (.error .malformed) where
  suffix _ same := nomatch same
  long same := nomatch same

theorem Stays.of_suffix (stays : Stays left rest x) (part : rest <:+ cs) : Stays left cs x where
  suffix a same := (stays.suffix a same).trans part
  long same := (stays.long same).of_suffix part

theorem Stays.bind {f : α → Except ReadError β} (first : Stays left cs x)
    (later : ∀ a, Stays left' (left a) (f a)) : Stays left' cs (x >>= f) := by
  cases x with
  | ok a => exact (later a).of_suffix (first.suffix a rfl)
  | error e =>
    constructor
    · exact fun _ same => nomatch same
    · intro same
      exact first.long (congrArg Except.error (Except.error.inj same))

theorem Stays.map {f : α → β} (first : Stays left cs x) (same : ∀ a, left' (f a) = left a) :
    Stays left' cs (x.map f) := by
  cases x with
  | ok a => exact stays_ok (same a ▸ first.suffix a rfl)
  | error e =>
    constructor
    · exact fun _ same => nomatch same
    · intro same
      exact first.long (congrArg Except.error (Except.error.inj same))

end Stays

/-- A reader leaves an end of what it reads. -/
def Advances {α : Type} (r : Reader α) : Prop := ∀ cs, Stays Prod.snd cs (r cs)

/-! ## Scalars -/

section Scalar

variable {cs rest : List Char}

theorem skipSpace_suffix (cs : List Char) : skipSpace cs <:+ cs := List.dropWhile_suffix _

theorem skipComment_stays (cs : List Char) : Stays id cs (skipComment cs) := by
  unfold skipComment
  split
  · split
    · exact stays_malformed
    · exact stays_ok ((List.dropWhile_suffix _).trans (List.suffix_cons ..))
  · exact stays_ok (List.suffix_refl _)

theorem textUntil_advances (mark : List Char) (illegal : Char → Bool) :
    Advances (textUntil mark illegal) := by
  intro cs
  induction cs with
  | nil => exact stays_malformed
  | cons c cs ih =>
    rw [textUntil]
    split
    · exact stays_ok (List.drop_suffix ..)
    · split
      · exact stays_malformed
      · exact (ih.of_suffix (List.suffix_cons ..)).bind fun _ => stays_ok (List.suffix_refl _)

theorem escapedCode_advances (width : Nat) : Advances (escapedCode width) := by
  intro cs
  rw [escapedCode]
  split
  · exact stays_ok (List.drop_suffix ..)
  · exact stays_malformed

theorem escape_advances (multiline : Bool) : Advances (escape multiline) := by
  intro cs
  cases cs with
  | nil => exact stays_malformed
  | cons e cs =>
    have code (width : Nat) : Stays Prod.snd (e :: cs)
        ((escapedCode width cs).map fun part => ([part.1], part.2)) :=
      ((escapedCode_advances width cs).of_suffix (List.suffix_cons ..)).map fun _ => rfl
    rw [escape]
    split
    · have skipped := skipSpace_suffix (e :: cs)
      split
      · exact stays_ok (List.nil_suffix)
      next after _ same =>
        rw [same] at skipped
        exact stays_ok ((List.dropWhile_suffix _).trans ((List.suffix_cons ..).trans skipped))
      · exact stays_malformed
    · split
      · exact code 4
      · split
        · exact code 8
        · split
          · exact stays_ok (List.suffix_cons ..)
          · exact stays_malformed

theorem escapedText_advances (multiline : Bool) (fuel : Nat) :
    Advances (escapedText multiline fuel) := by
  induction fuel with
  | zero => exact fun _ => stays_malformed
  | succ fuel ih =>
    intro cs
    cases cs with
    | nil => exact stays_malformed
    | cons c cs =>
      have part : cs <:+ c :: cs := List.suffix_cons ..
      unfold escapedText
      dsimp only
      generalize (if multiline = true then "\"\"\"".toList else ['"']) = closing
      generalize (if multiline = true then isControlOrReturn c else isControl c) = illegal
      split
      · exact stays_ok (List.drop_suffix ..)
      · split
        · exact ((escape_advances multiline cs).of_suffix part).bind fun _ =>
            (ih _).bind fun _ => stays_ok (List.suffix_refl _)
        · split
          · exact stays_malformed
          · exact ((ih cs).of_suffix part).bind fun _ => stays_ok (List.suffix_refl _)

theorem extraQuotes_suffix (quote : Char) (cs : List Char) : (extraQuotes quote cs).2 <:+ cs :=
  List.drop_suffix ..

theorem dropNewline_suffix (cs : List Char) : dropNewline cs <:+ cs := by
  unfold dropNewline
  split
  · exact List.suffix_cons ..
  · exact List.suffix_refl _

theorem multilineText_advances (quote : Char) : Advances (multilineText quote) := by
  intro cs
  refine Stays.of_suffix ?_ (dropNewline_suffix cs)
  unfold multilineText
  dsimp only
  generalize dropNewline cs = cs
  split
  · exact (escapedText_advances ..).bind fun _ => stays_ok (extraQuotes_suffix ..)
  · exact (textUntil_advances ..).bind fun _ => stays_ok (extraQuotes_suffix ..)

theorem lineText_advances (quote : Char) : Advances (lineText quote) := by
  intro cs
  unfold lineText
  split
  · exact escapedText_advances ..
  · exact textUntil_advances ..

theorem keyPart_advances : Advances keyPart := by
  intro cs
  cases cs with
  | nil => exact stays_malformed
  | cons c cs =>
    rw [keyPart]
    split
    · exact stays_ok (List.dropWhile_suffix _)
    · split
      · exact ((lineText_advances c cs).of_suffix (List.suffix_cons ..)).map fun _ => rfl
      · exact stays_malformed

theorem keyParts_advances (fuel : Nat) : Advances (keyParts fuel) := by
  induction fuel with
  | zero => exact fun _ => stays_malformed
  | succ fuel ih =>
    intro cs
    refine Stays.of_suffix ?_ (skipSpace_suffix cs)
    unfold keyParts
    split
    next rest same =>
      rw [same]
      have part : Stays Prod.snd ('.' :: rest) (keyPart (skipSpace rest)) :=
        (keyPart_advances _).of_suffix ((skipSpace_suffix _).trans (List.suffix_cons ..))
      exact part.bind fun _ => (ih _).bind fun _ => stays_ok (List.suffix_refl _)
    · exact stays_ok (List.suffix_refl _)

theorem key_advances : Advances key := fun cs =>
  (keyPart_advances cs).bind fun _ => (keyParts_advances ..).bind fun _ =>
    stays_ok (List.suffix_refl _)

end Scalar

/-! ## Dates and numbers -/

section Leaves

variable {α β : Type} {left : α → List Char} {left' : β → List Char} {cs rest : List Char}

/-- What is found at the front of a text leaves an end of it. -/
def Leaves (left : α → List Char) (cs : List Char) (x : Option α) : Prop :=
  ∀ a, x = some a → left a <:+ cs

theorem leaves_some {a : α} (part : left a <:+ cs) : Leaves left cs (some a) :=
  fun _ same => Option.some.inj same ▸ part

theorem leaves_none : Leaves left cs none := fun _ same => nomatch same

theorem Leaves.of_suffix {x : Option α} (leaves : Leaves left rest x) (part : rest <:+ cs) :
    Leaves left cs x := fun a same => (leaves a same).trans part

theorem Leaves.bind {x : Option α} {f : α → Option β} (first : Leaves left cs x)
    (later : ∀ a, Leaves left' (left a) (f a)) : Leaves left' cs (x >>= f) := by
  cases x with
  | none => exact leaves_none
  | some a => exact (later a).of_suffix (first a rfl)

theorem Leaves.getD {x : Option α} (leaves : Leaves left cs x) {a : α} (part : left a <:+ cs) :
    left (x.getD a) <:+ cs := by
  cases x with
  | none => exact part
  | some a => exact leaves a rfl

end Leaves

section Number

variable {cs rest : List Char}

theorem digits?_leaves (n : Nat) (cs : List Char) : Leaves Prod.snd cs (digits? n cs) := by
  unfold digits?
  dsimp only
  split
  · exact leaves_some (List.drop_suffix ..)
  · exact leaves_none

theorem char?_leaves (c : Char) (cs : List Char) : Leaves id cs (char? c cs) := by
  unfold char?
  split
  · split
    · exact leaves_some (List.suffix_cons ..)
    · exact leaves_none
  · exact leaves_none

theorem twoDigits?_leaves (least most : Nat) (cs : List Char) :
    Leaves Prod.snd cs (twoDigits? least most cs) := by
  refine (digits?_leaves 2 cs).bind fun a => ?_
  dsimp only
  split
  · exact leaves_some (List.suffix_refl _)
  · exact leaves_none

theorem time?_leaves (cs : List Char) : Leaves id cs (time? cs) := by
  refine (twoDigits?_leaves 0 23 cs).bind fun hour => (char?_leaves ':' hour.2).bind fun rest =>
    (twoDigits?_leaves 0 59 rest).bind fun minute => (char?_leaves ':' minute.2).bind fun rest =>
    (twoDigits?_leaves 0 59 rest).bind fun second => ?_
  dsimp only
  split
  next rest same =>
    split
    · exact leaves_some ((List.dropWhile_suffix _).trans (same ▸ List.suffix_cons ..))
    · exact leaves_some (List.suffix_refl _)
  · exact leaves_some (List.suffix_refl _)

theorem dropOffset_suffix (cs : List Char) : dropOffset cs <:+ cs := by
  unfold dropOffset
  extract_lets offset?
  have offset : Leaves id cs offset? := by
    unfold offset?
    split
    · exact leaves_none
    next c rest =>
      have part : rest <:+ c :: rest := List.suffix_cons ..
      split
      · exact leaves_some part
      · split
        · refine Leaves.of_suffix ?_ part
          exact (twoDigits?_leaves 0 23 rest).bind fun hour =>
            (char?_leaves ':' hour.2).bind fun rest =>
            (twoDigits?_leaves 0 59 rest).bind fun _ => leaves_some (List.suffix_refl _)
        · exact leaves_none
  exact offset.getD (List.suffix_refl _)

theorem date?_leaves (cs : List Char) : Leaves Prod.snd cs (date? cs) :=
  (digits?_leaves 4 cs).bind fun year => (char?_leaves '-' year.2).bind fun rest =>
    (twoDigits?_leaves 1 12 rest).bind fun month => (char?_leaves '-' month.2).bind fun rest =>
    (twoDigits?_leaves 1 31 rest).bind fun _ => leaves_some (List.suffix_refl _)

theorem moment?_stays {r : Except ReadError (List Char)} (found : moment? cs = some r) :
    Stays id cs r := by
  unfold moment? at found
  cases dated : date? cs with
  | none =>
    rw [dated] at found
    obtain ⟨after, timed, rfl⟩ := Option.map_eq_some_iff.1 found
    exact stays_ok (time?_leaves cs after timed)
  | some date =>
    have part := date?_leaves cs date dated
    rw [dated] at found
    obtain rfl := Option.some.inj found
    split
    · refine stays_ok (List.IsSuffix.trans ?_ part)
      dsimp only [id]
      split
      next c after same =>
        split
        · split
          next rest timed =>
            have timePart := time?_leaves after rest timed
            exact (dropOffset_suffix rest).trans (timePart.trans (same ▸ List.suffix_cons ..))
          · exact List.suffix_refl _
        · exact List.suffix_refl _
      · exact List.suffix_refl _
    · exact stays_malformed

/-- A run of digits is taken from the front, without its underscores. -/
theorem digitRun_spec (isDigit : Char → Bool) (cs : List Char) :
    ∃ run, cs = run ++ (digitRun isDigit cs).2 ∧ (∀ c ∈ run, isDigit c = true ∨ c = '_') ∧
      (digitRun isDigit cs).1 = run.filter isDigit := by
  induction cs with
  | nil => exact ⟨[], rfl, by simp, rfl⟩
  | cons c cs ih =>
    obtain ⟨run, split, digits, taken⟩ := ih
    rw [digitRun]
    by_cases digit : isDigit c = true
    · rw [if_pos digit]
      refine ⟨c :: run, congrArg (c :: ·) split, List.forall_mem_cons.2 ⟨.inl digit, digits⟩, ?_⟩
      rw [List.filter_cons_of_pos digit, ← taken]
    · rw [if_neg digit]
      by_cases mark : c = '_' ∧ cs.head?.any isDigit = true
      · rw [if_pos mark]
        refine ⟨c :: run, congrArg (c :: ·) split,
          List.forall_mem_cons.2 ⟨.inr mark.1, digits⟩, ?_⟩
        rw [List.filter_cons_of_neg digit, ← taken]
      · rw [if_neg mark]
        exact ⟨[], rfl, by simp, rfl⟩

theorem numeral?_spec {isDigit : Char → Bool} {ds : List Char}
    (found : numeral? isDigit cs = some (ds, rest)) :
    ∃ run, cs = run ++ rest ∧ (∀ c ∈ run, isDigit c = true ∨ c = '_') ∧
      ds = run.filter isDigit := by
  unfold numeral? at found
  split at found
  · obtain ⟨run, spec⟩ := digitRun_spec isDigit cs
    rw [Option.some.inj found] at spec
    exact ⟨run, spec⟩
  · cases found

theorem numeral?_leaves (isDigit : Char → Bool) (cs : List Char) :
    Leaves Prod.snd cs (numeral? isDigit cs) := by
  rintro ⟨ds, rest⟩ found
  obtain ⟨run, rfl, -⟩ := numeral?_spec found
  exact List.suffix_append ..

theorem radixInteger?_leaves (cs : List Char) : Leaves Prod.snd cs (radixInteger? cs) := by
  unfold radixInteger?
  split
  next mark rest =>
    refine Leaves.of_suffix ?_ (⟨['0', mark], rfl⟩ : rest <:+ '0' :: mark :: rest)
    have mark (base? : Option (Nat × (Char → Bool))) : Leaves (fun _ => rest) rest base? :=
      fun _ _ => List.suffix_refl _
    exact (mark _).bind fun _ =>
      (numeral?_leaves _ rest).bind fun _ => leaves_some (List.suffix_refl _)
  · exact leaves_none

theorem sign_suffix (cs : List Char) : (sign cs).2 <:+ cs := by
  unfold sign
  split
  · exact List.suffix_cons ..
  · exact List.suffix_cons ..
  · exact List.suffix_refl _

theorem markedNumeral?_leaves (marks cs : List Char) :
    Leaves Prod.snd cs (markedNumeral? marks cs) := by
  unfold markedNumeral?
  split
  · split
    · exact (numeral?_leaves _ _).of_suffix (List.suffix_cons ..)
    · exact leaves_none
  · exact leaves_none

theorem exponent?_leaves (cs : List Char) : Leaves (·.2.2) cs (exponent? cs) := by
  unfold exponent?
  split
  next c rest =>
    split
    · rintro found same
      obtain ⟨⟨ds, after⟩, run, rfl⟩ := Option.map_eq_some_iff.1 same
      exact ((numeral?_leaves _ _ _ run).trans (sign_suffix rest)).trans (List.suffix_cons ..)
    · exact leaves_none
  · exact leaves_none

/-- A decimal number is too long for the digits before its point or mark of the exponent. -/
theorem decimalNumber?_stays {r : Except ReadError (Toml × List Char)}
    (found : decimalNumber? cs = some r) : Stays Prod.snd cs r := by
  refine Stays.of_suffix ?_ (sign_suffix cs)
  unfold decimalNumber? at found
  generalize sign cs = signed at found ⊢
  obtain ⟨negative, unsigned⟩ := signed
  dsimp -zeta -zetaHave only at found ⊢
  extract_lets rest at found
  have finish (whole after : List Char) (part : after <:+ unsigned)
      (short : maxDigits < whole.length → HasLongNumber unsigned)
      (same : rest (whole, after) = some r) : Stays Prod.snd unsigned r := by
    have fractionPart := (markedNumeral?_leaves ['.'] after).getD
      (a := ([], after)) (List.suffix_refl _)
    dsimp only [rest] at same
    generalize markedNumeral? ['.'] after = fraction? at same fractionPart
    generalize fraction?.getD ([], after) = taken at same fractionPart
    obtain ⟨fraction, after'⟩ := taken
    have exponentPart := (exponent?_leaves after').getD
      (a := (false, [], after')) (List.suffix_refl _)
    dsimp only at same
    generalize exponent? after' = exp? at same exponentPart
    generalize exp?.getD (false, [], after') = taken at same exponentPart
    obtain ⟨expNegative, expDigits, end'⟩ := taken
    have inside : end' <:+ unsigned := (exponentPart.trans fractionPart).trans part
    dsimp only at same
    split at same
    · obtain rfl := Option.some.inj same
      split
      next many => exact ⟨fun _ same => (nomatch same), fun _ => short many⟩
      · exact stays_ok inside
    · obtain rfl := Option.some.inj same
      exact stays_ok inside
  clear_value rest
  split at found
  next after =>
    exact finish ['0'] after (List.suffix_cons ..) (fun many => absurd many (by decide)) found
  · obtain ⟨⟨whole, after⟩, counted, same⟩ := Option.bind_eq_some_iff.1 found
    obtain ⟨run, rfl, digits, rfl⟩ := numeral?_spec counted
    exact finish _ after (List.suffix_append ..)
      (fun many => ⟨run, (List.prefix_append ..).isInfix, digits, many⟩) same

theorem specialNumber?_leaves (cs : List Char) : Leaves id cs (specialNumber? cs) := by
  unfold specialNumber?
  dsimp only
  split
  · exact leaves_some ((List.drop_suffix ..).trans (sign_suffix cs))
  · exact leaves_none

theorem momentOrNumber_advances : Advances momentOrNumber := by
  intro cs
  unfold momentOrNumber
  split
  next r found => exact (moment?_stays found).map fun _ => rfl
  · split
    next n rest found => exact stays_ok (radixInteger?_leaves cs _ found)
    · split
      next r found => exact decimalNumber?_stays found
      · split
        next rest found => exact stays_ok (specialNumber?_leaves cs rest found)
        · exact stays_malformed

end Number

/-! ## Documents -/

section Document

variable {cs rest : List Char}

theorem skipArraySpace_stays (fuel : Nat) (cs : List Char) :
    Stays id cs (skipArraySpace fuel cs) := by
  induction fuel generalizing cs with
  | zero => exact stays_ok (List.suffix_refl _)
  | succ fuel ih =>
    refine Stays.of_suffix ?_ (List.dropWhile_suffix isSpaceOrNewline)
    rw [skipArraySpace]
    split
    next rest same =>
      rw [same]
      exact (skipComment_stays _).bind fun rest => ih rest
    · exact stays_ok (List.suffix_refl _)

/-- A change of members that may be refused does not stop for a number. -/
theorem stays_guarded {α : Type} {refused : Prop} [Decidable refused] {changed : Option Members}
    {f : Members → α} : Stays (fun _ => cs) cs
      (if refused then .error .malformed else match changed with
        | some ms => .ok (f ms)
        | none => .error .malformed) := by
  split
  · exact stays_malformed
  · split
    · exact stays_ok (List.suffix_refl _)
    · exact stays_malformed

theorem addInline_stays (closed : List Key) (k : Key) (v : Toml) (ms : Members) :
    Stays (fun _ => cs) cs (addInline closed k v ms) := stays_guarded (f := id)

theorem Document.openTable_stays (d : Document) (k : Key) :
    Stays (fun _ => cs) cs (d.openTable k) := stays_guarded

theorem Document.openArrayTable_stays (d : Document) (k : Key) :
    Stays (fun _ => cs) cs (d.openArrayTable k) := stays_guarded

theorem Document.setKey_stays (d : Document) (k : Key) (v : Toml) :
    Stays (fun _ => cs) cs (d.setKey k v) := stays_guarded

/-- Values, the elements of arrays and the members of inline tables, which hold each other. -/
theorem value_elements_inlineMembers_advance (fuel : Nat) : Advances (value fuel) ∧
    (∀ done, Advances (elements fuel done)) ∧
    ∀ closed ms, Advances (inlineMembers fuel closed ms) := by
  induction fuel with
  | zero =>
    exact ⟨fun _ => stays_malformed, fun _ _ => stays_malformed, fun _ _ _ => stays_malformed⟩
  | succ fuel ih =>
    obtain ⟨value_ih, elements_ih, members_ih⟩ := ih
    refine ⟨fun cs => ?_, fun done cs => ?_, fun closed ms cs => ?_⟩
    · unfold value
      split
      · exact ((multilineText_advances _ _).of_suffix ⟨['"', '"', '"'], rfl⟩).map fun _ => rfl
      · exact ((lineText_advances _ _).of_suffix (List.suffix_cons ..)).map fun _ => rfl
      · exact ((multilineText_advances _ _).of_suffix ⟨['\'', '\'', '\''], rfl⟩).map fun _ => rfl
      · exact ((lineText_advances _ _).of_suffix (List.suffix_cons ..)).map fun _ => rfl
      · exact stays_ok ⟨"true".toList, rfl⟩
      · exact stays_ok ⟨"false".toList, rfl⟩
      · exact ((elements_ih [] _).of_suffix (List.suffix_cons ..)).bind fun _ =>
          stays_ok (List.suffix_refl _)
      next rest =>
        have part := (skipSpace_suffix rest).trans (List.suffix_cons '\x7b' rest)
        refine Stays.of_suffix ?_ part
        generalize skipSpace rest = rest
        split
        · exact stays_ok (List.suffix_cons ..)
        · exact (members_ih [] [] _).bind fun _ => stays_ok (List.suffix_refl _)
      · exact momentOrNumber_advances cs
    · rw [elements]
      refine (skipArraySpace_stays _ cs).bind fun rest => ?_
      dsimp only [id]
      split
      · exact stays_ok (List.suffix_cons ..)
      · refine (value_ih _).bind fun v => (skipArraySpace_stays _ v.2).bind fun rest => ?_
        dsimp only [id]
        split
        · exact stays_ok (List.suffix_cons ..)
        · exact (elements_ih _ _).of_suffix (List.suffix_cons ..)
        · exact stays_malformed
    · rw [inlineMembers]
      refine (key_advances cs).bind fun k => ?_
      dsimp only
      generalize k.2 = after
      split
      next rest =>
        refine Stays.of_suffix ?_ ((skipSpace_suffix rest).trans (List.suffix_cons '=' rest))
        refine (value_ih _).bind fun v => (addInline_stays closed k.1 v.1 ms).bind fun ms => ?_
        refine Stays.of_suffix ?_ (skipSpace_suffix v.2)
        generalize skipSpace v.2 = rest
        split
        · exact stays_ok (List.suffix_cons ..)
        · exact (members_ih _ _ _).of_suffix
            ((skipSpace_suffix _).trans (List.suffix_cons ..))
        · exact stays_malformed
      · exact stays_malformed

theorem value_advances (fuel : Nat) : Advances (value fuel) :=
  (value_elements_inlineMembers_advance fuel).1

theorem keyValue_advances (d : Document) : Advances (keyValue d) := by
  intro cs
  refine (key_advances cs).bind fun a => ?_
  obtain ⟨k, cs⟩ := a
  dsimp only
  split
  next rest =>
    refine Stays.of_suffix ?_ ((skipSpace_suffix rest).trans (List.suffix_cons '=' rest))
    refine (value_advances _ _).bind fun a => ?_
    exact (Document.setKey_stays d k a.1).bind fun _ => stays_ok (List.suffix_refl _)
  · exact stays_malformed

theorem sectionHeader_advances (d : Document) : Advances (sectionHeader d) := by
  intro cs
  unfold sectionHeader
  split
  next rest =>
    refine Stays.of_suffix ?_ ((skipSpace_suffix rest).trans (List.suffix_cons '[' rest))
    refine (key_advances _).bind fun k => (Document.openArrayTable_stays _ k.1).bind fun d => ?_
    generalize k.2 = after
    split
    · exact stays_ok ⟨[']', ']'], rfl⟩
    · exact stays_malformed
  · refine Stays.of_suffix ?_ (skipSpace_suffix cs)
    refine (key_advances _).bind fun k => (Document.openTable_stays _ k.1).bind fun d => ?_
    generalize k.2 = after
    split
    · exact stays_ok (List.suffix_cons ..)
    · exact stays_malformed

theorem statement_advances (d : Document) : Advances (statement d) := by
  intro cs
  refine Stays.of_suffix ?_ (skipSpace_suffix cs)
  unfold statement
  generalize skipSpace cs = cs
  split
  · exact stays_ok List.nil_suffix
  · exact stays_ok (List.suffix_refl _)
  · exact stays_ok (List.suffix_refl _)
  · exact (sectionHeader_advances d _).of_suffix (List.suffix_cons ..)
  · split
    · exact keyValue_advances d _
    · exact stays_malformed

theorem statements_stays (fuel : Nat) (d : Document) (cs : List Char) :
    Stays (fun _ => []) cs (statements fuel d cs) := by
  induction fuel generalizing d cs with
  | zero => exact stays_ok List.nil_suffix
  | succ fuel ih =>
    rw [statements]
    refine (statement_advances d cs).bind fun after => ?_
    have comment : Stays id after.2 (skipComment (skipSpace after.2)) :=
      (skipComment_stays _).of_suffix (skipSpace_suffix after.2)
    refine comment.bind fun rest => ?_
    dsimp only [id]
    split
    · exact stays_ok List.nil_suffix
    · exact (ih _ _).of_suffix (List.suffix_cons ..)
    · exact stays_malformed

/-! Joining the two characters of a line end leaves the text within a line as it is. -/

theorem prefix_of_joinLineEnds {run : List Char} (inLine : '\n' ∉ run)
    (front : run <+: joinLineEnds cs) : run <+: cs := by
  fun_induction joinLineEnds cs generalizing run with
  | case1 cs =>
    cases run with
    | nil => exact List.nil_prefix
    | cons c run =>
      obtain ⟨rfl, -⟩ := List.cons_prefix_cons.1 front
      exact absurd List.mem_cons_self inLine
  | case2 c cs _ ih =>
    cases run with
    | nil => exact List.nil_prefix
    | cons d run =>
      obtain ⟨rfl, later⟩ := List.cons_prefix_cons.1 front
      exact List.cons_prefix_cons.2 ⟨rfl, ih (fun mem => inLine (List.mem_cons_of_mem _ mem)) later⟩
  | case3 => exact front

theorem infix_of_joinLineEnds {run : List Char} (inLine : '\n' ∉ run)
    (inside : run <:+: joinLineEnds cs) : run <:+: cs := by
  fun_induction joinLineEnds cs with
  | case1 cs ih =>
    rcases List.infix_cons_iff.1 inside with front | later
    · cases run with
      | nil => exact List.nil_infix
      | cons c run =>
        obtain ⟨rfl, -⟩ := List.cons_prefix_cons.1 front
        exact absurd List.mem_cons_self inLine
    · have joined : cs <:+ '\r' :: '\n' :: cs := ⟨['\r', '\n'], rfl⟩
      exact (ih later).trans joined.isInfix
  | case2 c cs plain ih =>
    rcases List.infix_cons_iff.1 inside with front | later
    · rw [← joinLineEnds.eq_2 c cs plain] at front
      exact (prefix_of_joinLineEnds inLine front).isInfix
    · exact (ih later).trans (List.suffix_cons ..).isInfix
  | case3 => exact inside

/-- A document that is too much for the reader has a number of too many digits. -/
theorem hasLongNumber_of_ofChars (failed : ofChars cs = .error .numberTooLong) :
    HasLongNumber cs := by
  have stops : statements ((joinLineEnds cs).length + 1) {} (joinLineEnds cs) =
      .error .numberTooLong := by
    unfold ofChars at failed
    dsimp only at failed
    cases read : statements ((joinLineEnds cs).length + 1) {} (joinLineEnds cs) with
    | ok d =>
      rw [read] at failed
      cases failed
    | error e =>
      rw [read] at failed
      exact congrArg Except.error (Except.error.inj failed)
  obtain ⟨run, inside, digits, many⟩ := (statements_stays _ _ _).long stops
  have inLine : '\n' ∉ run := by
    intro mem
    rcases digits _ mem with digit | mark
    · cases digit
    · cases mark
  exact ⟨run, infix_of_joinLineEnds inLine inside, digits, many⟩

end Document

end MessageLens.Toml
