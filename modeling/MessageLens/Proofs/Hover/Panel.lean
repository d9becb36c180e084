import Mathlib.Data.List.Forall2
import Mathlib.Order.Bounds.Basic
import Mathlib.Order.MinMax
import MessageLens.Proofs.Annotation.Views

/-!
# What the highlights of the panel name

The columns of a highlight are computed apart from the line they belong to. They are the columns of
the text that is put there, whatever the key, the locales and the messages consist of.
-/

namespace MessageLens
set_option autoImplicit false

/-! ## Spans of lines -/

/-- What stands between the columns of a highlight. -/
def Highlight.textIn (h : Highlight) (line : String) : String :=
  String.ofList ((line.toList.take h.colEnd).drop h.colStart)

/-- The columns of a highlight are those of a text in a line. -/
def Highlight.Covers (h : Highlight) (line text : String) : Prop :=
  ∃ before after, line = before ++ text ++ after ∧ h.colStart = before.length ∧
    h.colEnd = before.length + text.length

/-- One highlight ends before another one starts. -/
def Highlight.Precedes (a b : Highlight) : Prop :=
  a.line < b.line ∨ a.line = b.line ∧ a.colEnd ≤ b.colStart

theorem Highlight.Covers.textIn_eq {h : Highlight} {line text : String}
    (covers : h.Covers line text) : h.textIn line = text := by
  obtain ⟨before, after, rfl, start, stop⟩ := covers
  apply String.toList_injective
  rw [textIn, String.toList_ofList, start, stop, String.toList_append, String.toList_append,
    List.append_assoc, ← String.length_toList, ← String.length_toList,
    List.take_length_add_append, List.drop_left, List.take_left]

theorem Highlight.Covers.fits {h : Highlight} {line text : String} (covers : h.Covers line text) :
    h.colStart ≤ h.colEnd ∧ h.colEnd ≤ line.length := by
  obtain ⟨before, after, rfl, start, stop⟩ := covers
  rw [start, stop, String.length_append, String.length_append]
  omega

theorem forall₂_flatMap {α β γ : Type} {R : β → γ → Prop} {f : α → List β} {g : α → List γ}
    {l : List α} (each : ∀ a ∈ l, List.Forall₂ R (f a) (g a)) :
    List.Forall₂ R (l.flatMap f) (l.flatMap g) := by
  induction l with
  | nil => exact .nil
  | cons a l ih =>
    exact List.rel_append (each a List.mem_cons_self)
      (ih fun b mem => each b (List.mem_cons_of_mem _ mem))

theorem exists_of_forall₂ {α β : Type} {R : α → β → Prop} {l : List α} {m : List β}
    (related : List.Forall₂ R l m) : ∀ a ∈ l, ∃ b, R a b := by
  induction related with
  | nil => exact fun a mem => absurd mem List.not_mem_nil
  | cons first _ ih => exact List.forall_mem_cons.2 ⟨⟨_, first⟩, ih⟩

/-- The greatest of a list and a number to start with. -/
theorem foldl_max_isGreatest (start : Nat) (l : List Nat) :
    IsGreatest {n | n ∈ start :: l} (l.foldl max start) := by
  induction l generalizing start with
  | nil => exact ⟨List.mem_cons_self, fun n mem => (List.mem_singleton.1 mem).le⟩
  | cons n l ih =>
    obtain ⟨found, bound⟩ := ih (max start n)
    refine ⟨?_, ?_⟩
    · rcases List.mem_cons.1 found with first | mem
      · rw [List.foldl_cons, first]
        rcases max_choice start n with larger | larger
        · rw [larger]
          exact List.mem_cons_self
        · rw [larger]
          exact List.mem_cons_of_mem _ List.mem_cons_self
      · exact List.mem_cons_of_mem _ (List.mem_cons_of_mem _ mem)
    · have least : max start n ≤ l.foldl max (max start n) := bound List.mem_cons_self
      intro m mem
      rcases List.mem_cons.1 mem with rfl | mem
      · exact (le_max_left _ _).trans least
      · rcases List.mem_cons.1 mem with rfl | mem
        · exact (le_max_right _ _).trans least
        · exact bound (List.mem_cons_of_mem _ mem)

namespace HoverPanel

variable {key locale : String} {catalog : Catalog} {locales : List String} {maxLength : Int}
  {i : Nat}

/-- What stands behind the name of a locale: its message, or the marker if it has none. -/
def shown (key : String) (catalog : Catalog) (maxLength : Int) (locale : String) : String :=
  match (catalog.messages locale).get? key with
  | some message => inQuotes (shortText message maxLength)
  | none => missingMarker

/-- The highlight stands on a line of the panel, and over this text. -/
def Names (panel : HoverPanel) (h : Highlight) (text : String) : Prop :=
  ∃ line, panel.lines[h.line]? = some line ∧ h.Covers line text

/-- The text under a highlight of the panel, if it stands on a line. -/
def under (panel : HoverPanel) (h : Highlight) : Option String :=
  (panel.lines[h.line]?).map h.textIn

theorem shown_eq : shown key catalog maxLength locale =
    (localeValue key catalog maxLength locale).1 := by
  cases has : (catalog.messages locale).get? key with
  | none => rw [localeValue_none has, shown, has]
  | some message => rw [localeValue_some has, shown, has]

theorem Names.under_eq {panel : HoverPanel} {h : Highlight} {text : String}
    (names : panel.Names h text) : panel.under h = some text := by
  obtain ⟨line, there, covers⟩ := names
  rw [under, there, Option.map_some, covers.textIn_eq]

/-- The highlights of a locale cover its name and what is shown for it. -/
theorem localeRow_covers (line : Nat) (locale : String) :
    let row := localeRow key catalog maxLength line locale
    List.Forall₂ (fun h text => h.line = line ∧ h.Covers row.1 text) row.2
      [locale, shown key catalog maxLength locale] := by
  rw [shown_eq]
  refine .cons ⟨rfl, ?_⟩ (.cons ⟨rfl, ?_⟩ .nil)
  · refine ⟨indent, ": " ++ (localeValue key catalog maxLength locale).1, ?_, rfl, rfl⟩
    rw [localeRow, localeLine]
    simp only [String.append_assoc]
  · refine ⟨indent ++ locale ++ ": ", "", ?_, ?_, ?_⟩
    · rw [localeRow, localeLine, String.append_empty]
    · rw [String.length_append, String.length_append]
      rfl
    · rw [String.length_append, String.length_append]
      rfl

theorem title_named : (build key catalog locales maxLength).Names
    ⟨0, indent.length, indent.length + key.length, "Title"⟩ key :=
  ⟨indent ++ key, rfl, indent, "", String.append_empty.symm, rfl, rfl⟩

/-- The highlights of the panel cover the key and then, locale by locale, its name and what is shown
for it. -/
theorem highlights_named : List.Forall₂ (build key catalog locales maxLength).Names
    (build key catalog locales maxLength).highlights
    (key :: locales.flatMap fun locale => [locale, shown key catalog maxLength locale]) := by
  have texts : (locales.flatMap fun locale => [locale, shown key catalog maxLength locale]) =
      (locales.zipIdx 2).flatMap fun l => [l.1, shown key catalog maxLength l.1] := by
    conv_lhs => rw [← List.zipIdx_map_fst 2 locales, List.flatMap_map]
  rw [texts]
  refine .cons title_named ?_
  rw [localeRows_eq_map, List.flatMap_map]
  refine forall₂_flatMap fun l mem => (localeRow_covers l.2 l.1).imp ?_
  rintro h text ⟨line, covers⟩
  obtain ⟨first, place⟩ := List.mem_zipIdx_iff_le_and_getElem?_sub.1 mem
  refine ⟨_, ?_, covers⟩
  rw [line, ← Nat.sub_add_cancel first, build_line place]
  rfl

/-- The highlights of a row stand side by side on its line. -/
theorem localeRow_ordered (line : Nat) (locale : String) :
    (localeRow key catalog maxLength line locale).2.Pairwise Highlight.Precedes := by
  refine .cons (fun h mem => ?_) (List.pairwise_singleton _ _)
  obtain rfl := List.mem_singleton.1 mem
  exact .inr ⟨rfl, Nat.le_add_right _ 2⟩

theorem localeRow_line {line : Nat} {h : Highlight}
    (mem : h ∈ (localeRow key catalog maxLength line locale).2) : h.line = line := by
  simp only [localeRow, localeHighlights, List.mem_cons, List.not_mem_nil, or_false] at mem
  rcases mem with rfl | rfl <;> rfl

theorem highlights_ordered :
    (build key catalog locales maxLength).highlights.Pairwise Highlight.Precedes := by
  have numbered : (locales.zipIdx 2).Pairwise fun a b => a.2 < b.2 := by
    rw [← List.pairwise_map (f := Prod.snd), List.zipIdx_map_snd]
    exact List.pairwise_lt_range'
  simp only [build, localeRows_eq_map, List.flatMap_map]
  refine .cons (fun h mem => .inl ?_)
    (List.pairwise_flatMap.2 ⟨fun l _ => localeRow_ordered _ _, ?_⟩)
  · obtain ⟨l, shown, span⟩ := List.mem_flatMap.1 mem
    have first := (List.mem_zipIdx_iff_le_and_getElem?_sub.1 shown).1
    rw [localeRow_line span]
    exact Nat.lt_of_lt_of_le Nat.two_pos first
  · refine numbered.imp fun before h mem h' mem' => .inl ?_
    rw [localeRow_line mem, localeRow_line mem']
    exact before

theorem length_lines : (build key catalog locales maxLength).lines.length = locales.length + 3 := by
  simp [build, localeRows_eq_map]

/-- The padding at the end is no longer than any other line. -/
theorem longest_line : IsGreatest {n | ∃ line ∈ (build key catalog locales maxLength).lines,
      line.length = n}
    (((build key catalog locales maxLength).lines.map String.length).foldl max 0) := by
  have padding : "" ∈ (build key catalog locales maxLength).lines :=
    List.mem_append_right _ List.mem_cons_self
  obtain ⟨found, bound⟩ :=
    foldl_max_isGreatest 0 ((build key catalog locales maxLength).lines.map String.length)
  refine ⟨?_, ?_⟩
  · rcases List.mem_cons.1 found with none | mem
    · exact ⟨"", padding, none.symm⟩
    · exact List.mem_map.1 mem
  · rintro n ⟨line, mem, rfl⟩
    exact bound (List.mem_cons_of_mem _ (List.mem_map_of_mem mem))

/-- The panel has one line for each locale and three more, and is two columns wider than its longest
line as far as that is allowed. Its highlights lie inside of lines, from the top to the bottom and
from left to right and apart. Under them are the key and, for each locale in turn, its name and its
message in quotation marks or the marker. -/
theorem highlights_exact (key : String) (catalog : Catalog) (locales : List String)
    (maxLength : Int) :
    let panel := build key catalog locales maxLength
    panel.height = panel.lines.length ∧ panel.height = locales.length + 3 ∧
    (∃ longest, IsGreatest {n | ∃ line ∈ panel.lines, line.length = n} longest ∧
      panel.width = min (longest + 2) 80) ∧
    (∀ h ∈ panel.highlights, ∃ line, panel.lines[h.line]? = some line ∧
      h.colStart ≤ h.colEnd ∧ h.colEnd ≤ line.length) ∧
    panel.highlights.Pairwise Highlight.Precedes ∧
    panel.highlights.map panel.under =
      (key :: locales.flatMap fun locale => [locale, shown key catalog maxLength locale]).map
        some := by
  intro panel
  refine ⟨rfl, length_lines, ⟨_, longest_line, rfl⟩, ?_, highlights_ordered, ?_⟩
  · intro h mem
    obtain ⟨text, line, there, covers⟩ := exists_of_forall₂ highlights_named h mem
    exact ⟨line, there, covers.fits⟩
  · have named : List.Forall₂ (fun h text => panel.under h = some text) panel.highlights _ :=
      highlights_named.imp fun _ _ => Names.under_eq
    exact List.forall₂_eq_eq_eq ▸
      List.forall₂_map_left_iff.2 (List.forall₂_map_right_iff.2 named)

/-- A locale without a name, one that is listed twice and one whose message is cut. -/
theorem highlights_exact_unnamedLocale :
    let panel := build "k" (.ofList [("en", .ofList [("k", "one two three")])]) ["en", "", "en"] 7
    let last : Highlight := ⟨4, 6, 15, "Comment"⟩
    last ∈ panel.highlights ∧ (∃ line, panel.lines[4]? = some line ∧ 15 ≤ line.length) ∧
      panel.highlights.map panel.under = ["k", "en", "\"one ...\"", "", missingMarker, "en",
        "\"one ...\""].map some := by
  intro panel last
  have listed : last ∈ panel.highlights := by decide +kernel
  obtain ⟨-, -, -, inside, -, texts⟩ := highlights_exact "k"
    (.ofList [("en", .ofList [("k", "one two three")])]) ["en", "", "en"] 7
  obtain ⟨line, there, -, fits⟩ := inside last listed
  refine ⟨listed, ⟨line, there, fits⟩, texts.trans ?_⟩
  decide +kernel

end HoverPanel

end MessageLens
