import MessageLens.Text.Lines

/-!
# Cutting a text into lines

The pieces of texts that are joined by a line feed are the pieces of these texts, one after the
other. So a line can be replaced without any effect on the lines before and behind it. Names that
are joined by a character which none of them holds can be told from the text that they make.
-/

namespace MessageLens.Text
set_option autoImplicit false

variable {cs piece : List Char} {c : Char}

theorem pieces_eq_splitOn (cs : List Char) : pieces cs = cs.splitOn '\n' := by
  induction cs with
  | nil => rfl
  | cons c cs ih =>
    rw [pieces, ih, List.splitOn_cons_eq_if_modifyHead]
    by_cases broken : c = '\n'
    · simp [broken]
    · obtain ⟨front, back, split⟩ := List.exists_cons_of_ne_nil (List.splitOn_ne_nil '\n' cs)
      simp [broken, split]

theorem pieces_ne_nil (cs : List Char) : pieces cs ≠ [] := by
  rw [pieces_eq_splitOn]
  exact List.splitOn_ne_nil '\n' cs

theorem pieces_append_newline (a b : List Char) :
    pieces (a ++ '\n' :: b) = pieces a ++ pieces b := by
  simp only [pieces_eq_splitOn, List.splitOn_append_cons_self]

theorem pieces_newline (cs : List Char) : pieces ('\n' :: cs) = [] :: pieces cs :=
  pieces_append_newline [] cs

/-- A text without line feeds is one piece. -/
theorem pieces_unbroken (unbroken : '\n' ∉ piece) : pieces piece = [piece] := by
  rw [pieces_eq_splitOn, List.splitOn_eq_singleton unbroken]

/-- A character that is no line feed belongs to the first piece. -/
theorem pieces_cons (unbroken : c ≠ '\n') {front : List Char} {back : List (List Char)}
    (split : pieces cs = front :: back) : pieces (c :: cs) = (c :: front) :: back := by
  rw [pieces, if_neg unbroken, split]

/-- A line feed opens a piece of its own, and any other character belongs to the piece behind it. -/
theorem pieces_induction {motive : List Char → List (List Char) → Prop} (empty : motive [] [[]])
    (newline : ∀ cs, motive cs (pieces cs) → motive ('\n' :: cs) ([] :: pieces cs))
    (other : ∀ c cs front back, c ≠ '\n' → motive cs (front :: back) →
      motive (c :: cs) ((c :: front) :: back)) (cs : List Char) : motive cs (pieces cs) := by
  induction cs with
  | nil => exact empty
  | cons c cs ih =>
    by_cases broken : c = '\n'
    · subst broken
      rw [pieces_newline]
      exact newline cs ih
    · obtain ⟨front, back, split⟩ := List.exists_cons_of_ne_nil (pieces_ne_nil cs)
      rw [pieces_cons broken split]
      exact other c cs front back broken (split ▸ ih)

/-- There is one piece more than there are line feeds. -/
theorem length_pieces (cs : List Char) : (pieces cs).length = cs.count '\n' + 1 := by
  refine pieces_induction (motive := fun cs ps => ps.length = cs.count '\n' + 1) rfl ?_ ?_ cs
  · intro cs ih
    rw [List.length_cons, ih, List.count_cons_self]
  · intro c cs front back broken ih
    rw [List.count_cons_of_ne broken, ← ih, List.length_cons, List.length_cons]

theorem unbroken_of_mem_pieces : ∀ piece ∈ pieces cs, '\n' ∉ piece := by
  refine pieces_induction (motive := fun _ ps => ∀ piece ∈ ps, '\n' ∉ piece) (by simp) ?_ ?_ cs
  · intro cs ih piece mem
    rcases List.mem_cons.1 mem with rfl | mem
    · exact List.not_mem_nil
    · exact ih piece mem
  · intro c cs front back broken ih piece mem
    rcases List.mem_cons.1 mem with rfl | mem
    · simpa [Ne.symm broken] using ih front List.mem_cons_self
    · exact ih piece (List.mem_cons_of_mem _ mem)

/-- A character put behind a text belongs to the last piece, unless it is a line feed. -/
theorem pieces_concat (unbroken : c ≠ '\n') (cs : List Char) :
    ∃ front last, pieces cs = front ++ [last] ∧ pieces (cs ++ [c]) = front ++ [last ++ [c]] := by
  refine pieces_induction (motive := fun cs ps => ∃ front last, ps = front ++ [last] ∧
    pieces (cs ++ [c]) = front ++ [last ++ [c]]) ⟨[], [], rfl, pieces_cons unbroken rfl⟩ ?_ ?_ cs
  · rintro cs ⟨front, last, split, split'⟩
    refine ⟨[] :: front, last, by rw [split, List.cons_append], ?_⟩
    rw [List.cons_append, pieces_newline, split', List.cons_append]
  · rintro d cs first rest broken ⟨front, last, split, split'⟩
    cases front with
    | nil =>
      obtain ⟨rfl, rfl⟩ := List.cons.inj split
      exact ⟨[], d :: first, rfl, pieces_cons broken split'⟩
    | cons first' front =>
      obtain ⟨rfl, rfl⟩ := List.cons.inj split
      exact ⟨(d :: first) :: front, last, rfl, pieces_cons broken split'⟩

/-! ## Replacing a line -/

/-- The text with its line `i` replaced. What takes its place may consist of several lines. -/
def replaceLine (text : String) (i : Nat) (replacement : String) : String :=
  String.ofList (['\n'].intercalate ((pieces text.toList).set i replacement.toList))

theorem pieces_intercalate {parts : List (List Char)} (nonempty : parts ≠ []) :
    pieces (['\n'].intercalate parts) = parts.flatMap pieces := by
  induction parts with
  | nil => exact absurd rfl nonempty
  | cons part parts ih =>
    cases parts with
    | nil => simp [List.intercalate]
    | cons next parts =>
      have joined : ['\n'].intercalate (part :: next :: parts) =
          part ++ '\n' :: ['\n'].intercalate (next :: parts) := by simp [List.intercalate]
      rw [joined, pieces_append_newline, ih (by simp)]
      exact List.flatMap_cons.symm

/-- Pieces of a text are their own pieces. -/
theorem flatMap_pieces {parts : List (List Char)} (unbroken : ∀ part ∈ parts, '\n' ∉ part) :
    parts.flatMap pieces = parts := by
  induction parts with
  | nil => rfl
  | cons part parts ih =>
    rw [List.flatMap_cons, pieces_unbroken (unbroken part List.mem_cons_self),
      ih fun part mem => unbroken part (List.mem_cons_of_mem _ mem)]
    rfl

theorem pieces_replaceLine {text : String} {i : Nat} (inside : i < (pieces text.toList).length)
    (replacement : String) : pieces (replaceLine text i replacement).toList =
      (pieces text.toList).take i ++
        (pieces replacement.toList ++ (pieces text.toList).drop (i + 1)) := by
  have unbroken : ∀ piece ∈ pieces text.toList, '\n' ∉ piece := unbroken_of_mem_pieces
  rw [replaceLine, String.toList_ofList, pieces_intercalate (by simp [pieces_ne_nil]),
    List.set_eq_take_append_cons_drop, if_pos inside, List.flatMap_append, List.flatMap_cons,
    flatMap_pieces fun piece mem => unbroken piece (List.mem_of_mem_take mem),
    flatMap_pieces fun piece mem => unbroken piece (List.mem_of_mem_drop mem)]

/-! ## Joined names -/

section Joined

variable {separator : String} {names names' : List String}

theorem splitOn_intercalate (single : separator.toList = [c])
    (free : ∀ name ∈ names, c ∉ name.toList) (nonempty : names ≠ []) :
    (separator.intercalate names).toList.splitOn c = names.map String.toList := by
  rw [String.toList_intercalate, single]
  refine List.splitOn_intercalate c ?_ (by simpa using nonempty)
  intro word mem
  obtain ⟨name, named, rfl⟩ := List.mem_map.1 mem
  exact free name named

theorem intercalate_injective (single : separator.toList = [c])
    (free : ∀ name ∈ names, c ∉ name.toList) (free' : ∀ name ∈ names', c ∉ name.toList)
    (nonempty : names ≠ []) (nonempty' : names' ≠ [])
    (same : separator.intercalate names = separator.intercalate names') : names = names' := by
  have split := splitOn_intercalate single free nonempty
  rw [same, splitOn_intercalate single free' nonempty'] at split
  exact (List.map_inj_right fun _ _ => String.toList_inj.1).1 split.symm

end Joined

end MessageLens.Text
