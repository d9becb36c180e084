import MessageLens.Proofs.Command.Opening
import MessageLens.Proofs.Source.Discovery

/-!
# What commands report as missing

One command prints what has been drawn in its buffers, another one looks through their texts once
all are open. For a file that is opened when the project has been found, the two know the same. The
files before that show nothing; so the commands agree exactly if no reference in these files lacks a
message, or if a locale is asked for, which draws everything anew.
-/

namespace MessageLens
set_option autoImplicit false

open Operation

variable {τ : Type}

/-! ## Rows -/

/-- A reference whose key some locales lack: the path, the line, the key and these locales. -/
abbrev MissingEntry := String × Int × String × List String

/-- The reference of a row. -/
def MissingRow.entry (r : MissingRow) : MissingEntry := (r.path, r.line, r.key, r.missing)

/-- The reference of a row. -/
def AnnotationRow.entry (r : AnnotationRow) : MissingEntry := (r.path, r.line, r.key, r.missing)

/-- The references that annotations report as missing in some locale. -/
def AnnotationRow.lacking (rows : List AnnotationRow) : List MissingEntry :=
  (rows.filter fun r => !r.missing.isEmpty).map entry

theorem AnnotationRow.lacking_append (rows more : List AnnotationRow) :
    lacking (rows ++ more) = lacking rows ++ lacking more := by
  rw [lacking, List.filter_append, List.map_append]
  rfl

/-- No annotation reports anything. -/
theorem AnnotationRow.lacking_eq_nil {rows : List AnnotationRow} :
    lacking rows = [] ↔ ∀ row ∈ rows, row.missing = [] := by
  rw [lacking, List.map_eq_nil_iff, List.filter_eq_nil_iff]
  simp only [Bool.not_eq_true', Bool.not_eq_false, List.isEmpty_iff]

namespace Session

variable {s s' t : Session τ} {id : Handle} {ids : List Handle} {b : Buffer}

theorem displayed_append (s : Session τ) (ids more : List Handle) :
    s.displayed (ids ++ more) = s.displayed ids ++ s.displayed more := List.filterMap_append

theorem annotationRows_append (s : Session τ) (ids more : List Handle) :
    s.annotationRows (ids ++ more) = s.annotationRows ids ++ s.annotationRows more := by
  rw [annotationRows, displayed_append, List.flatMap_append]
  rfl

theorem missingRows_append (s : Session τ) (ids more : List Handle) :
    s.missingRows (ids ++ more) = s.missingRows ids ++ s.missingRows more := by
  rw [missingRows, displayed_append, List.flatMap_append]
  rfl

/-- The annotations of a text report what is missing in it. -/
theorem lacking_annotationsOfText (shows : s.options.virtualText.showMissing = true) (path : String)
    (b : Buffer) :
    AnnotationRow.lacking ((s.annotationsOfText b.text).map (AnnotationRow.ofAnnotated path)) =
      (s.missingRowsOf path b).map MissingRow.entry := by
  unfold annotationsOfText resolveReferences missingRowsOf AnnotationRow.lacking
  generalize findReferences s.options.receiver b.text = references
  induction references with
  | nil => rfl
  | cons r rest ih =>
    have resolved : (resolveReference s.options.virtualText s.project.currentMessages
        s.project.messages s.project.locales r).missing =
          missingLocales r.key s.project.messages s.project.locales := if_pos shows
    simp only [List.map_cons, List.filter_cons, List.filterMap_cons, AnnotationRow.ofAnnotated,
      resolved]
    cases none : (missingLocales r.key s.project.messages s.project.locales).isEmpty with
    | true => simpa using ih
    | false =>
      simp only [Bool.not_false, if_true, List.map_cons, Bool.false_eq_true, if_false]
      exact congrArg (List.cons _) ih

theorem annotationRows_of_shows (shows : s.options.virtualText.showMissing = true)
    (shown : ∀ id ∈ ids, s.Shows id) :
    AnnotationRow.lacking (s.annotationRows ids) = (s.missingRows ids).map MissingRow.entry := by
  induction ids with
  | nil => rfl
  | cons id rest ih =>
    obtain ⟨b, isOpen, drawn⟩ := shown id List.mem_cons_self
    have others := ih fun i mem => shown i (List.mem_cons_of_mem id mem)
    rw [← List.singleton_append, annotationRows_append, missingRows_append,
      AnnotationRow.lacking_append, List.map_append, others]
    congr 1
    simp only [annotationRows, missingRows, displayed, List.filterMap_cons, List.filterMap_nil,
      isOpen, Option.map_some, List.flatMap_cons, List.flatMap_nil, List.append_nil, drawn]
    exact lacking_annotationsOfText shows _ b

theorem annotationRows_of_showsNothing (blank : ∀ id ∈ ids, s.ShowsNothing id) :
    s.annotationRows ids = [] := by
  apply List.flatMap_eq_nil_iff.2
  intro d mem
  obtain ⟨id, known, found⟩ := List.mem_filterMap.1 mem
  obtain ⟨b, isOpen, drawn⟩ := blank id known
  rw [isOpen] at found
  obtain rfl := Option.some.inj found
  rw [List.map_eq_nil_iff]
  exact drawn

end Session

namespace Command

open Session

section Agreement

variable {s : CommandSession} {a : Arguments}

/-- A source file beside a project, with a reference that the project has no message for, and an
empty one in the project. -/
def besideProject : Workspace where
  disk := ⟨nestedProject.nodes ++ [(["a.ts"], .file "m.k()".toUTF8.toList 0),
    (["p", "b.ts"], .file [] 0)]⟩

theorem report_besideProject (a : Arguments) (here : a.path = ".") :
    report a (initialSession besideProject) = (do
      let ids ← openFiles a ⟨.root, []⟩ [⟨.root, ["a.ts"]⟩, ⟨.root, ["p", "b.ts"]⟩]
      finish a ⟨.root, []⟩ ids : CommandOperation CommandReport) (initialSession besideProject) := by
  have kept : keepListed besideProject ⟨.root, []⟩ [] (entriesBelow besideProject.disk []) =
      .ok [["a.ts"], ["p", "b.ts"]] := eq_ok_of_toOption (by decide +kernel)
  have found : sourceFiles besideProject ⟨.root, []⟩ =
      .ok [⟨.root, ["a.ts"]⟩, ⟨.root, ["p", "b.ts"]⟩] :=
    sourceFiles_of_sorted rfl rfl rfl kept (by decide +kernel)
  refine report_of_files ?_ rfl rfl found
  rw [here]
  rfl

/-- The two commands reach the same session, and what annotations report as missing is what the
other command lists exactly if a locale is asked for, or nothing is missing in the files before the
first one in a project. The other command succeeds with nothing to list exactly if no annotation
reports anything and nothing is missing in these files. -/
theorem check_agrees_iff {w : Workspace} {r : CommandReport}
    (run : report { a with command := .check } (initialSession w) = .ok r s)
    (enabled : s.options.enabled = true) (shows : s.options.virtualText.showMissing = true) :
    ∃ ids,
      r = { code := if (s.missingRows ids).isEmpty then 0 else 1
            output := String.join ((s.missingRows ids).map (·.lineText)) } ∧
      report { a with command := .annotate, json := true } (initialSession w) =
        .ok { output := AnnotationRow.document (s.annotationRows ids) } s ∧
      (AnnotationRow.lacking (s.annotationRows ids) = (s.missingRows ids).map MissingRow.entry ↔
        a.locale ≠ none ∨ s.missingRows (ids.takeWhile s.isOutside) = []) ∧
      (r.code = 0 ↔ (∀ row ∈ s.annotationRows ids, row.missing = []) ∧
        (a.locale = none → s.missingRows (ids.takeWhile s.isOutside) = [])) := by
  obtain ⟨p, ids, t, reached, finished⟩ := report_ok.1 run
  simp only [finish, bind_ok, get_ok, exists_both_eq, pure_ok] at finished
  obtain ⟨rfl, rfl⟩ := finished
  have annotated : report { a with command := .annotate, json := true } (initialSession w) =
      .ok { output := AnnotationRow.document (t.annotationRows ids) } t :=
    report_ok.2 ⟨p, ids, t, reached, by simp [finish]⟩
  have code : (if (t.missingRows ids).isEmpty then 0 else 1) = 0 ↔ t.missingRows ids = [] := by
    cases t.missingRows ids <;> simp
  refine ⟨ids, rfl, annotated, ?_⟩
  rw [code, ← AnnotationRow.lacking_eq_nil]
  rcases reaches_shown reached enabled with ⟨asked, shown⟩ | ⟨unasked, after, split, blank, shown⟩
  · have agree := annotationRows_of_shows shows shown
    refine ⟨iff_of_true agree (.inl asked), ?_⟩
    rw [agree, List.map_eq_nil_iff]
    constructor
    · intro nothing
      exact ⟨nothing, fun unasked => absurd unasked asked⟩
    · exact And.left
  · have rows : t.annotationRows ids = t.annotationRows after := by
      rw [split, annotationRows_append, annotationRows_of_showsNothing blank, List.nil_append]
    have missing : t.missingRows ids =
        t.missingRows (ids.takeWhile t.isOutside) ++ t.missingRows after := by
      rw [← missingRows_append, ← split]
    have agree := annotationRows_of_shows shows shown
    rw [rows, agree, missing, List.map_append, List.append_eq_nil_iff, List.map_eq_nil_iff]
    refine ⟨⟨fun same => .inr ?_, fun either => ?_⟩, ?_⟩
    · have length := congrArg List.length same
      rw [List.length_append, List.length_map, List.length_map] at length
      apply List.eq_nil_of_length_eq_zero
      omega
    · rw [either.resolve_left (not_not_intro unasked)]
      rfl
    · constructor
      · rintro ⟨early, late⟩
        exact ⟨late, fun _ => early⟩
      · rintro ⟨late, early⟩
        exact ⟨early unasked, late⟩

/-- With a locale that is asked for, the two commands agree. -/
theorem check_agrees_iff_asked : ∃ r s,
    report { command := .check, path := ".", locale := some (.filled "en") }
      (initialSession besideProject) = .ok r s ∧ r.code = 1 ∧
    ∃ ids, AnnotationRow.lacking (s.annotationRows ids) =
      (s.missingRows ids).map MissingRow.entry := by
  have evaluated : succeedsWith
      (fun r s => r.code = 1 ∧ s.options.enabled ∧ s.options.virtualText.showMissing)
      (report { command := .check, path := ".", locale := some (.filled "en") })
      (initialSession besideProject) = true := by
    rw [succeedsWith, report_besideProject _ rfl]
    decide +kernel
  obtain ⟨r, s, run, seen⟩ := ok_of_succeedsWith evaluated
  obtain ⟨code, enabled, shows⟩ := of_decide_eq_true seen
  obtain ⟨ids, -, -, agree, -⟩ := check_agrees_iff
    (a := { path := ".", locale := some (.filled "en") }) run enabled shows
  exact ⟨r, s, run, code, ids, agree.2 (.inl (Option.some_ne_none _))⟩

/-- Without one, the reference beside the project is listed by one command, and the other does not
know of it. -/
theorem outside_file_unreported :
    succeedsWith (fun r s => r = { code := 1, output := "a.ts:1:1: k missing in en\n" } ∧
        s.options.enabled ∧ s.options.virtualText.showMissing)
      (report { command := .check, path := "." }) (initialSession besideProject) = true ∧
    succeedsWith (fun r _ => r = { output := "[]\n" })
      (report { command := .annotate, path := ".", json := true })
      (initialSession besideProject) = true := by
  constructor
  · rw [succeedsWith, report_besideProject _ rfl]
    decide +kernel
  · rw [succeedsWith, report_besideProject _ rfl]
    decide +kernel

end Agreement

end Command

end MessageLens
