import MessageLens.Reference.Scan

/-!
# References lie on their lines

A reference found on a line starts before the parenthesis that closes it, and that parenthesis is a
character of the line. A reference found in a text names one of the lines of the text.
-/

namespace MessageLens
set_option autoImplicit false
open Text

/-- The closing parenthesis is one of the characters that were searched. -/
theorem closingFrom_bounds {cs : List Char} {depth pos k : Nat} {quote : Option Char} {last : Char}
    (found : closingFrom depth quote last pos cs = some k) : pos ≤ k ∧ k < pos + cs.length := by
  induction cs generalizing depth quote last pos with
  | nil => cases quote <;> simp [closingFrom] at found
  | cons c cs ih =>
    rw [List.length_cons]
    -- every branch but one goes on at the next position
    have step : ∀ {d : Nat} {q : Option Char} {l : Char},
        closingFrom d q l (pos + 1) cs = some k → pos ≤ k ∧ k < pos + (cs.length + 1) := by
      intro d q l h
      have bounds := ih h
      omega
    cases quote with
    | some q => exact step found
    | none =>
      unfold closingFrom at found
      split at found
      · exact step found
      · split at found
        · cases depth with
          | zero =>
            obtain rfl := Option.some.inj found
            omega
          | succ d => exact step found
        · split at found <;> exact step found

/-- References on a line start from the position on, before their end, and end on the line. -/
theorem ReferenceForm.scanFrom_bounds {form : ReferenceForm} {token : List Char} {line : Int}
    {cs : List Char} {pos resume : Nat} {before : Option Char} :
    ∀ r ∈ form.scanFrom token line pos resume before cs,
      r.line = line ∧ (pos : Int) ≤ r.colStart ∧ r.colStart < r.colEnd ∧
        r.colEnd < pos + cs.length := by
  induction cs generalizing pos resume before with
  | nil => intro r hr; simp [scanFrom] at hr
  | cons c cs ih =>
    have later : ∀ {resume : Nat} {before : Option Char},
        ∀ r ∈ form.scanFrom token line (pos + 1) resume before cs,
          r.line = line ∧ (pos : Int) ≤ r.colStart ∧ r.colStart < r.colEnd ∧
            r.colEnd < pos + (c :: cs).length := by
      intro resume before r hr
      obtain ⟨hline, hstart, hspan, hend⟩ := ih r hr
      rw [List.length_cons]
      exact ⟨hline, by omega, hspan, by omega⟩
    intro r hr
    simp only [scanFrom] at hr
    split at hr
    · split at hr
      · exact later r hr
      · split at hr
        · exact later r hr
        · rename_i head _ closePos closed
          rcases List.mem_cons.1 hr with rfl | hr
          · have bounds := closingFrom_bounds closed
            rw [List.length_drop, List.length_drop] at bounds
            refine ⟨rfl, Int.le_refl _, ?_, ?_⟩
            · simp only
              omega
            · simp only
              omega
          · exact later r hr
    · exact later r hr

/-- A reference on a line spans characters of the line. -/
theorem scanLine_bounds {receiver : String} {line : Int} {text : List Char} :
    ∀ r ∈ scanLine receiver line text,
      r.line = line ∧ 0 ≤ r.colStart ∧ r.colStart < r.colEnd ∧ r.colEnd < text.length := by
  intro r hr
  rcases List.mem_append.1 hr with hr | hr
  · simpa using ReferenceForm.scanFrom_bounds r hr
  · simpa using ReferenceForm.scanFrom_bounds r hr

theorem scanLines_bounds {receiver : String} {first : Nat} {ls : List (List Char)} :
    ∀ r ∈ scanLines receiver first ls, ∃ (i : Nat) (l : List Char), ls[i]? = some l ∧
      r.line = first + i ∧ 0 ≤ r.colStart ∧ r.colStart < r.colEnd ∧ r.colEnd < l.length := by
  induction ls generalizing first with
  | nil => intro r hr; simp [scanLines] at hr
  | cons l ls ih =>
    intro r hr
    rcases List.mem_append.1 hr with hr | hr
    · obtain ⟨hline, bounds⟩ := scanLine_bounds r hr
      exact ⟨0, l, rfl, by simpa using hline, bounds⟩
    · obtain ⟨i, l', hl', hline, bounds⟩ := ih r hr
      exact ⟨i + 1, l', by simpa using hl', by rw [hline]; push_cast; omega, bounds⟩

/-- A reference in a text spans characters of one of its lines. -/
theorem findReferences_bounds {receiver text : String} :
    ∀ r ∈ findReferences receiver text, ∃ (i : Nat) (l : List Char),
      (lines text.toList)[i]? = some l ∧ r.line = i ∧
        0 ≤ r.colStart ∧ r.colStart < r.colEnd ∧ r.colEnd < l.length := by
  intro r hr
  obtain ⟨i, l, hl, hline, bounds⟩ := scanLines_bounds r hr
  exact ⟨i, l, hl, by simpa using hline, bounds⟩

end MessageLens
