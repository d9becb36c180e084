import Mathlib.Logic.ExistsUnique
import MessageLens.Proofs.Reference.Balanced
import MessageLens.Proofs.Reference.Bounds

/-!
# Where references stand

A reference is a span of a line, from the receiver with the opener of one of the two forms to the
parenthesis that closes the call. References are listed line by line; on a line those in dotted form
come before those in brackets, and the ones of one form come in the order in which they start. No
two references start at one place.
-/

namespace MessageLens
set_option autoImplicit false

open Text

variable {receiver text : String} {line : Int} {l : List Char} {ls : List (List Char)}
  {r q : Reference} {form form' : ReferenceForm}

/-- Two references start at different places. -/
def Reference.Apart (r q : Reference) : Prop := r.line = q.line → r.colStart ≠ q.colStart

/-- A reference is a span of a line: the receiver stands at its start, with the opener of the form
behind it and no word character before it, and a closing parenthesis stands at its end. -/
def Reference.StandsOn (form : ReferenceForm) (receiver : String) (l : List Char)
    (r : Reference) : Prop :=
  ∃ start close : Nat, r.colStart = start ∧ r.colEnd = close ∧ start < close ∧ close < l.length ∧
    StandsAt (receiver.toList ++ [form.opener]) l start ∧ l[close]? = some ')'

/-- A reference is such a span of the line of the text that it names. -/
def Reference.StandsIn (form : ReferenceForm) (receiver text : String) (r : Reference) : Prop :=
  ∃ (i : Nat) (l : List Char), (lines text.toList)[i]? = some l ∧ r.line = i ∧
    r.StandsOn form receiver l

/-! ## On one line -/

namespace ReferenceForm

/-- A form is scanned by the rule for the heads that it reads. -/
theorem scan_scans (form : ReferenceForm) (receiver : String) (line : Int) (l : List Char) :
    Scans (fun cs key n => form.head? cs = some ⟨key, n⟩) (receiver.toList ++ [form.opener]) line l
      0 (form.scan receiver line l) :=
  (scan_iff_scans (fun _ _ _ => Iff.rfl) receiver line l).2 rfl

theorem scan_ordered (form : ReferenceForm) (receiver : String) (line : Int) (l : List Char) :
    (form.scan receiver line l).Pairwise fun r q => r.colStart < q.colStart :=
  (form.scan_scans receiver line l).ordered (by simp)

theorem scan_standsOn (mem : r ∈ form.scan receiver line l) : r.StandsOn form receiver l := by
  obtain ⟨key, s, e, -, ⟨stands, n, -, closing⟩, rfl⟩ :=
    (form.scan_scans receiver line l).sound r mem
  obtain ⟨behind, paren, -⟩ := closingParen?_eq_some.1 closing
  exact ⟨s, e, rfl, rfl, by omega, (List.getElem?_eq_some_iff.1 paren).1, stands, paren⟩

theorem opener_injective (same : form.opener = form'.opener) : form = form' := by
  revert same
  cases form <;> cases form' <;> decide

end ReferenceForm

/-- A receiver has one opener behind it. -/
theorem StandsAt.last_unique {token : List Char} {c d : Char} {s : Nat}
    (first : StandsAt (token ++ [c]) l s) (second : StandsAt (token ++ [d]) l s) : c = d := by
  have lengths : (token ++ [c]).length = (token ++ [d]).length := by simp
  have same := (List.prefix_of_prefix_length_le first.here second.here
    (Nat.le_of_eq lengths)).eq_of_length lengths
  simpa using same

/-- References that start at one place of a line are of one form. -/
theorem Reference.StandsOn.form_unique (first : r.StandsOn form receiver l)
    (second : q.StandsOn form' receiver l) (same : r.colStart = q.colStart) : form = form' := by
  obtain ⟨s, -, start, -, -, -, stands, -⟩ := first
  obtain ⟨s', -, start', -, -, -, stands', -⟩ := second
  obtain rfl : s = s' := by omega
  exact ReferenceForm.opener_injective (stands.last_unique stands')

theorem scanLine_apart (receiver : String) (line : Int) (l : List Char) :
    (scanLine receiver line l).Pairwise Reference.Apart := by
  have ordered (form : ReferenceForm) : (form.scan receiver line l).Pairwise Reference.Apart :=
    (form.scan_ordered receiver line l).imp fun lt => fun _ => Int.ne_of_lt lt
  refine List.pairwise_append.2 ⟨ordered _, ordered _, fun r hr q hq _ same => ?_⟩
  cases (ReferenceForm.scan_standsOn hr).form_unique (ReferenceForm.scan_standsOn hq) same

/-! ## Line by line -/

theorem scanLines_append (receiver : String) (first : Nat) (ls ms : List (List Char)) :
    scanLines receiver first (ls ++ ms) =
      scanLines receiver first ls ++ scanLines receiver (first + ls.length) ms := by
  induction ls generalizing first with
  | nil => rfl
  | cons l ls ih =>
    have next : first + 1 + ls.length = first + (ls.length + 1) := by omega
    rw [List.cons_append, scanLines, ih, scanLines, List.append_assoc, List.length_cons, next]

theorem scanLines_line {first : Nat} :
    ∀ r ∈ scanLines receiver first ls, (first : Int) ≤ r.line ∧ r.line < first + ls.length := by
  intro r mem
  obtain ⟨i, l, here, place, -⟩ := scanLines_bounds r mem
  have inside := (List.getElem?_eq_some_iff.1 here).1
  omega

/-- References on earlier lines come first. -/
theorem scanLines_listed (receiver : String) (first : Nat) (ls : List (List Char)) :
    (scanLines receiver first ls).Pairwise fun r q => r.line ≤ q.line ∧ r.Apart q := by
  induction ls generalizing first with
  | nil => exact .nil
  | cons l ls ih =>
    refine List.pairwise_append.2 ⟨?_, ih (first + 1), ?_⟩
    · refine (scanLine_apart receiver first l).imp_of_mem fun hr hq apart => ⟨?_, apart⟩
      exact Int.le_of_eq ((scanLine_bounds _ hr).1.trans (scanLine_bounds _ hq).1.symm)
    · intro r hr q hq
      have place := (scanLine_bounds r hr).1
      have later := (scanLines_line q hq).1
      exact ⟨by omega, fun same => by omega⟩

theorem findReferences_apart (receiver text : String) :
    (findReferences receiver text).Pairwise Reference.Apart :=
  (scanLines_listed receiver 0 (lines text.toList)).imp And.right

/-- The references that name a line are those that are found on it. -/
theorem scanLines_filter (receiver : String) (first i : Nat) (ls : List (List Char)) :
    (scanLines receiver first ls).filter (fun r : Reference => r.line = (first + i : Nat)) =
      ((ls[i]?).map (scanLine receiver (first + i : Nat))).getD [] := by
  induction ls generalizing first i with
  | nil => rfl
  | cons l ls ih =>
    rw [scanLines, List.filter_append]
    cases i with
    | zero =>
      have here : (scanLine receiver first l).filter
          (fun r : Reference => r.line = (first + 0 : Nat)) = scanLine receiver first l :=
        List.filter_eq_self.2 fun r hr => by simpa using (scanLine_bounds r hr).1
      have later : (scanLines receiver (first + 1) ls).filter
          (fun r : Reference => r.line = (first + 0 : Nat)) = [] := by
        refine List.filter_eq_nil_iff.2 fun r hr => ?_
        have place := (scanLines_line r hr).1
        simp only [decide_eq_true_eq]
        omega
      rw [here, later, List.append_nil]
      rfl
    | succ i =>
      have here : (scanLine receiver first l).filter
          (fun r : Reference => r.line = (first + (i + 1) : Nat)) = [] := by
        refine List.filter_eq_nil_iff.2 fun r hr => ?_
        have place := (scanLine_bounds r hr).1
        simp only [decide_eq_true_eq]
        omega
      have next : first + (i + 1) = first + 1 + i := by omega
      rw [here, List.nil_append, next, ih (first + 1) i]
      rfl

/-! ## In a text -/

theorem findReferences_filter (receiver text : String) (i : Nat) :
    (findReferences receiver text).filter (fun r : Reference => r.line = i) =
      (((lines text.toList)[i]?).map (scanLine receiver i)).getD [] := by
  have filtered := scanLines_filter receiver 0 i (lines text.toList)
  rwa [Nat.zero_add] at filtered

/-- What is found in a text is found on one of its lines, in one of the forms. -/
theorem mem_findReferences (mem : r ∈ findReferences receiver text) :
    ∃ (i : Nat) (l : List Char) (form : ReferenceForm), (lines text.toList)[i]? = some l ∧
      r.line = i ∧ r ∈ form.scan receiver i l := by
  obtain ⟨i, l, here, place, -⟩ := findReferences_bounds r mem
  have listed : r ∈ (findReferences receiver text).filter (fun r : Reference => r.line = i) :=
    List.mem_filter.2 ⟨mem, by simpa using place⟩
  rw [findReferences_filter, here] at listed
  rcases List.mem_append.1 listed with found | found
  · exact ⟨i, l, .dotted, here, place, found⟩
  · exact ⟨i, l, .bracketed, here, place, found⟩

/-- References are spans of the lines of the text, each in one of the two forms. They are listed by
their lines; on a line those in dotted form come first, and the ones of one form come in the order
in which they start. No two start at one place. -/
theorem references_listed_by_place (receiver text : String) :
    (∀ r ∈ findReferences receiver text, ∃! form : ReferenceForm, r.StandsIn form receiver text) ∧
    (findReferences receiver text).Pairwise (fun r q => r.line ≤ q.line) ∧
    (∀ i : Nat, ∃ dotted bracketed : List Reference,
      (findReferences receiver text).filter (fun r : Reference => r.line = i) =
        dotted ++ bracketed ∧
      (∀ r ∈ dotted, r.StandsIn .dotted receiver text) ∧
      (∀ r ∈ bracketed, r.StandsIn .bracketed receiver text) ∧
      dotted.Pairwise (fun r q => r.colStart < q.colStart) ∧
      bracketed.Pairwise (fun r q => r.colStart < q.colStart)) ∧
    (findReferences receiver text).Pairwise Reference.Apart := by
  have listed := scanLines_listed receiver 0 (lines text.toList)
  refine ⟨?_, listed.imp And.left, ?_, findReferences_apart receiver text⟩
  · intro r mem
    obtain ⟨i, l, form, here, place, found⟩ := mem_findReferences mem
    have stands := ReferenceForm.scan_standsOn found
    refine ⟨form, ⟨i, l, here, place, stands⟩, ?_⟩
    rintro form' ⟨i', l', here', place', stands'⟩
    obtain rfl : i = i' := by omega
    obtain rfl : l = l' := Option.some.inj (here.symm.trans here')
    exact stands'.form_unique stands rfl
  · intro i
    rw [findReferences_filter]
    cases here : (lines text.toList)[i]? with
    | none => exact ⟨[], [], rfl, by simp, by simp, .nil, .nil⟩
    | some l =>
      have standsIn (form : ReferenceForm) :
          ∀ r ∈ form.scan receiver i l, r.StandsIn form receiver text := by
        intro r found
        exact ⟨i, l, here, (ReferenceForm.scanFrom_bounds r found).1,
          ReferenceForm.scan_standsOn found⟩
      exact ⟨_, _, rfl, standsIn .dotted, standsIn .bracketed,
        ReferenceForm.dotted.scan_ordered receiver i l,
        ReferenceForm.bracketed.scan_ordered receiver i l⟩

/-- The inner reference is in dotted form, and so it is listed before the outer one. -/
example : findReferences "m" "m['x'](m.y())" = [⟨"y", 0, 7, 11⟩, ⟨"x", 0, 0, 12⟩] := by
  decide +kernel

end MessageLens
