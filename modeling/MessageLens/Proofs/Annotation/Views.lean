import MessageLens.Hover.Panel

/-!
# What the views of a key agree on

The list of the locales that lack a key, the annotation of a reference to it and its panel come from
three lookups. They name the same locales in the same order, and where the displayed locale is none
of them the annotation quotes what the panel does.
-/

namespace MessageLens
set_option autoImplicit false

/-! ## The lines of the panel -/

/-- What is filtered by place and element is what is filtered by element, if the two tests agree on
the list. -/
theorem filter_zipIdx {α : Type} {p : α × Nat → Bool} {q : α → Bool} {l : List α}
    (same : ∀ i a, l[i]? = some a → p (a, i) = q a) :
    (l.zipIdx.filter p).map Prod.fst = l.filter q := by
  have tests : l.zipIdx.filter p = l.zipIdx.filter (q ∘ Prod.fst) :=
    List.filter_congr fun x mem => same _ _ (List.mem_zipIdx_iff_getElem?.1 mem)
  rw [tests, ← List.filter_map, List.zipIdx_map_fst]

/-- A text in quotation marks, as the views show it. -/
def inQuotes (text : String) : String := "\"" ++ text ++ "\""

namespace HoverPanel

variable {key locale : String} {catalog : Catalog} {locales : List String} {maxLength : Int}
  {i : Nat}

/-- The style of the marker. -/
def missingStyle : String := "DiagnosticWarn"

/-- The line of the locale at a place of the list shows the marker. -/
def marks (panel : HoverPanel) (locale : String) (i : Nat) : Bool :=
  panel.lines[i + 2]? == some (localeLine locale missingMarker)

/-- The line of the locale at a place of the list has a span in the style of the marker. -/
def warns (panel : HoverPanel) (i : Nat) : Bool :=
  panel.highlights.any fun h => h.line == i + 2 && h.style == missingStyle

/-- The locales of a list whose lines show the marker. -/
def marked (panel : HoverPanel) (locales : List String) : List String :=
  (locales.zipIdx.filter fun l => panel.marks l.1 l.2).map Prod.fst

/-- The locales of a list whose lines have the style of the marker. -/
def warned (panel : HoverPanel) (locales : List String) : List String :=
  (locales.zipIdx.filter fun l => panel.warns l.2).map Prod.fst

/-- The row of a locale on a line. -/
def localeRow (key : String) (catalog : Catalog) (maxLength : Int) (line : Nat) (locale : String) :
    String × List Highlight :=
  let v := localeValue key catalog maxLength locale
  (localeLine locale v.1, localeHighlights line locale v.1 v.2)

theorem localeRows_eq_map (first : Nat) : localeRows key catalog maxLength first locales =
    (locales.zipIdx first).map fun l => localeRow key catalog maxLength l.2 l.1 := by
  induction locales generalizing first with
  | nil => rfl
  | cons locale rest ih =>
    rw [localeRows, ih, List.zipIdx_cons, List.map_cons]
    rfl

/-- A locale that has the key shows its message. -/
theorem localeValue_some {message : String}
    (has : (catalog.messages locale).get? key = some message) :
    localeValue key catalog maxLength locale =
      (inQuotes (shortText message maxLength), "Comment") := by
  rw [localeValue, has]
  rfl

/-- A locale that lacks the key shows the marker. -/
theorem localeValue_none (lacks : (catalog.messages locale).get? key = none) :
    localeValue key catalog maxLength locale = (missingMarker, missingStyle) := by
  rw [localeValue, lacks]
  rfl

theorem build_line (place : locales[i]? = some locale) :
    (build key catalog locales maxLength).lines[i + 2]? =
      some (localeLine locale (localeValue key catalog maxLength locale).1) := by
  have row : ((localeRows key catalog maxLength 2 locales).map Prod.fst)[i]? =
      some (localeLine locale (localeValue key catalog maxLength locale).1) := by
    simp [localeRows_eq_map, List.getElem?_zipIdx, place, localeRow]
  have shown := (List.getElem?_eq_some_iff.1 row).1
  simp only [build, List.cons_append, List.nil_append, List.getElem?_cons_succ]
  rw [List.getElem?_append_left shown, row]

/-- The highlights on the line of a locale are those of its row. -/
theorem build_highlight {h : Highlight} (place : locales[i]? = some locale)
    (line : h.line = i + 2) : h ∈ (build key catalog locales maxLength).highlights ↔
      h ∈ (localeRow key catalog maxLength (i + 2) locale).2 := by
  simp only [build, List.mem_cons, List.mem_flatMap, localeRows_eq_map, List.mem_map]
  constructor
  · rintro (rfl | ⟨-, ⟨⟨other, n⟩, shown, rfl⟩, spans⟩)
    · cases line
    · have row : n = h.line := by
        simp only [localeRow, localeHighlights, List.mem_cons, List.not_mem_nil, or_false] at spans
        rcases spans with rfl | rfl <;> rfl
      obtain ⟨-, at_n⟩ := List.mem_zipIdx_iff_le_and_getElem?_sub.1 shown
      obtain rfl : n = i + 2 := row.trans line
      rw [Nat.add_sub_cancel, place] at at_n
      obtain rfl := Option.some.inj at_n
      exact spans
  · intro spans
    have shown : (locale, i + 2) ∈ locales.zipIdx 2 :=
      List.mem_zipIdx_iff_le_and_getElem?_sub.2 ⟨Nat.le_add_left 2 i, by simpa using place⟩
    exact .inr ⟨_, ⟨_, shown, rfl⟩, spans⟩

/-- No message in quotation marks looks like the marker. -/
theorem inQuotes_ne_missingMarker (text : String) :
    localeLine locale (inQuotes text) ≠ localeLine locale missingMarker := by
  intro same
  have value := (String.append_right_inj _).1 same
  have first := congrArg (fun s : String => s.toList.head?) value
  simp [inQuotes, missingMarker] at first

theorem build_marks (place : locales[i]? = some locale) :
    (build key catalog locales maxLength).marks locale i =
      !(catalog.messages locale).contains key := by
  rw [marks, build_line place, Table.contains]
  cases has : (catalog.messages locale).get? key with
  | none => simp [localeValue_none has]
  | some message =>
    rw [localeValue_some has]
    simpa using inQuotes_ne_missingMarker _

theorem build_warns (place : locales[i]? = some locale) :
    (build key catalog locales maxLength).warns i = !(catalog.messages locale).contains key := by
  have spans : (build key catalog locales maxLength).warns i = true ↔
      (localeValue key catalog maxLength locale).2 = missingStyle := by
    simp only [warns, List.any_eq_true, Bool.and_eq_true, beq_iff_eq]
    constructor
    · rintro ⟨h, mem, line, style⟩
      have row := (build_highlight place line).1 mem
      simp only [localeRow, localeHighlights, List.mem_cons, List.not_mem_nil, or_false] at row
      rcases row with rfl | rfl
      · exact absurd style (by decide : "Identifier" ≠ missingStyle)
      · exact style
    · intro style
      refine ⟨_, (build_highlight place ?_).2 (List.mem_cons_of_mem _ List.mem_cons_self), ?_,
        style⟩
      · rfl
      · rfl
  rw [Bool.eq_iff_iff, spans, Table.contains]
  cases has : (catalog.messages locale).get? key with
  | none => simp [localeValue_none has]
  | some message => simp [localeValue_some has, missingStyle]

/-- The lines with the marker are those of the locales that lack the key. -/
theorem marked_build : (build key catalog locales maxLength).marked locales =
    missingLocales key catalog locales := filter_zipIdx fun _ _ => build_marks

theorem warned_build : (build key catalog locales maxLength).warned locales =
    missingLocales key catalog locales := filter_zipIdx fun _ _ => build_warns

end HoverPanel

/-! ## All views -/

theorem mem_missingLocales {key locale : String} {catalog : Catalog} {locales : List String} :
    locale ∈ missingLocales key catalog locales ↔
      locale ∈ locales ∧ (catalog.messages locale).get? key = none := by
  simp [missingLocales, Table.contains]

/-- An annotation begins with the message in quotation marks. -/
def Quotes (options : VirtualTextOptions) (a : Annotation) (text : String) : Prop :=
  a.segments.head? = some ⟨options.lead ++ inQuotes text, options.highlightResolved⟩

theorem resolveReference_missing {options : VirtualTextOptions} (shows : options.showMissing = true)
    (current : MessageTable) (catalog : Catalog) (locales : List String) (r : Reference) :
    (resolveReference options current catalog locales r).missing =
      missingLocales r.key catalog locales := by
  rw [resolveReference, if_pos shows]

/-- A reference to a message is resolved and quotes it, whatever other locales lack. -/
theorem resolveReference_some {current : MessageTable} {r : Reference} {message : String}
    (has : current.get? r.key = some message) (options : VirtualTextOptions) (catalog : Catalog)
    (locales : List String) :
    (resolveReference options current catalog locales r).status = .resolved ∧
    Quotes options (resolveReference options current catalog locales r)
      (shortText message options.maxLength) := by
  have primary : primarySegment options current r.key =
      (⟨options.lead ++ inQuotes (shortText message options.maxLength), options.highlightResolved⟩,
        .resolved) := by
    rw [primarySegment, has]
    simp only [inQuotes, String.append_assoc]
  rw [Quotes, resolveReference, primary]
  refine ⟨rfl, ?_⟩
  exact (apply_ite List.head? _ _ _).trans (ite_self _)

theorem resolveReference_none {current : MessageTable} {r : Reference}
    (lacks : current.get? r.key = none) (options : VirtualTextOptions) (catalog : Catalog)
    (locales : List String) :
    (resolveReference options current catalog locales r).status ≠ .resolved := by
  have primary : (primarySegment options current r.key).2 ≠ .resolved := by
    rw [primarySegment, lacks]
    dsimp only
    split
    · exact Status.noConfusion
    · exact Status.noConfusion
  exact primary

/-- The annotation of a reference and the panel of its key, by marker and by style, report the
locales of a list that lack the key, in the order of the list. With the messages of one of the
locales the reference is resolved exactly if that locale is none of them, and then the annotation
and each line of the locale quote the same text. -/
theorem views_agree (options : VirtualTextOptions) (shows : options.showMissing = true)
    (catalog : Catalog) (locales : List String) (r : Reference) :
    (∀ current,
      (resolveReference options current catalog locales r).missing =
        missingLocales r.key catalog locales) ∧
    (∀ maxLength,
      (HoverPanel.build r.key catalog locales maxLength).marked locales =
        missingLocales r.key catalog locales ∧
      (HoverPanel.build r.key catalog locales maxLength).warned locales =
        missingLocales r.key catalog locales) ∧
    ∀ current ∈ locales,
      let shown := resolveReference options (catalog.messages current) catalog locales r
      let panel := HoverPanel.build r.key catalog locales options.maxLength
      (shown.status = .resolved ↔ current ∉ missingLocales r.key catalog locales) ∧
      (current ∉ missingLocales r.key catalog locales → ∃ text, Quotes options shown text ∧
        ∀ i, locales[i]? = some current →
          panel.lines[i + 2]? = some (HoverPanel.localeLine current (inQuotes text))) := by
  refine ⟨fun current => resolveReference_missing shows current catalog locales r,
    fun maxLength => ⟨HoverPanel.marked_build, HoverPanel.warned_build⟩, ?_⟩
  intro current listed
  cases has : (catalog.messages current).get? r.key with
  | none =>
    have missing := mem_missingLocales.2 ⟨listed, has⟩
    have unresolved := resolveReference_none has options catalog locales
    exact ⟨iff_of_false unresolved (not_not_intro missing), fun known => absurd missing known⟩
  | some message =>
    have known : current ∉ missingLocales r.key catalog locales := by
      intro missing
      rw [(mem_missingLocales.1 missing).2] at has
      cases has
    obtain ⟨resolved, quotes⟩ := resolveReference_some has options catalog locales
    refine ⟨iff_of_true resolved known, fun _ => ⟨_, quotes, fun i place => ?_⟩⟩
    rw [HoverPanel.build_line place, HoverPanel.localeValue_some has]

/-- An empty message is quoted, and a locale that is not loaded is reported. -/
theorem views_agree_emptyMessage :
    let catalog : Catalog := .ofList [("en", .ofList [("k", "")])]
    let shown := resolveReference {} (catalog.messages "en") catalog ["en", "de", "en"]
      ⟨"k", 0, 0, 4⟩
    shown.missing = ["de"] ∧
    (HoverPanel.build "k" catalog ["en", "de", "en"]).marked ["en", "de", "en"] = ["de"] ∧
    shown.status = .resolved ∧
    ∃ text, Quotes {} shown text ∧
      (HoverPanel.build "k" catalog ["en", "de", "en"] 50).lines[4]? =
        some (HoverPanel.localeLine "en" (inQuotes text)) := by
  intro catalog shown
  have missing : missingLocales "k" catalog ["en", "de", "en"] = ["de"] := by decide
  obtain ⟨listed, shown, views⟩ :=
    views_agree {} rfl catalog ["en", "de", "en"] ⟨"k", 0, 0, 4⟩
  obtain ⟨resolved, quoted⟩ := views "en" (by decide)
  have known : "en" ∉ missingLocales "k" catalog ["en", "de", "en"] := by rw [missing]; decide
  obtain ⟨text, quotes, lines⟩ := quoted known
  exact ⟨(listed _).trans missing, (shown _).1.trans missing, resolved.2 known, text, quotes,
    lines 2 rfl⟩

end MessageLens
