import MessageLens.Proofs.Command.Opening
import MessageLens.Proofs.Reference.Lookup
import MessageLens.Proofs.Session.Hovering
import MessageLens.Proofs.Session.Start

/-!
# What a command shows where another one points

One command lists the references that lack a message by the places where they start, and another
one shows the panel of the key at a place. For a file both find the same project and open the same
text, and so the panel is that of the reference that the place belongs to. That is the reference
listed, unless it starts inside another one that the scanner finds before it.
-/

namespace MessageLens
set_option autoImplicit false

open Operation

/-- The panel as it is printed. -/
def HoverPanel.text (panel : HoverPanel) : String := String.join (panel.lines.map (· ++ "\n"))

namespace Session

variable {τ : Type} {s s' : Session τ} {i id : Handle} {ids : List Handle} {b : Buffer}

/-- A buffer is open with a text. -/
def HasText (s : Session τ) (id : Handle) (text : String) : Prop :=
  ∃ b, s.host.buffers.get? id = some b ∧ b.text = text

theorem changeBuffer_open (isOpen : s.host.buffers.get? id = some b) (f : Buffer → Buffer) :
    changeBuffer id f s =
      .ok () { s with host := { s.host with buffers := s.host.buffers.set id (f b) } } := by
  refine bind_ok.2 ⟨s.host, s, rfl, ?_⟩
  rw [Host.updateBuffer?, isOpen]
  rfl

/-- Drawing leaves texts alone. -/
theorem Redrawn.keeps_text {text : String} (drawn : Redrawn ids s s') (held : s.HasText id text) :
    s'.HasText id text := by
  obtain ⟨b, isOpen, rfl⟩ := held
  refine ⟨if id ∈ ids then s.redrawn b else b, ?_, ?_⟩
  · rw [drawn.buffers id, isOpen, Option.map_some]
  · split
    · exact Buffer.redrawn_text ..
    · rfl

theorem attach_keeps_text {text : String} {answer : Bool} (held : s.HasText id text)
    (run : attach i s = .ok answer s') : s'.HasText id text := by
  rcases attach_answers run with ⟨rfl, -⟩ | ⟨-, -, b, -, t, looked, drawn⟩
  · exact held
  · have more : Extends (fun _ => False) s t ∧ t.host = s.host ∧ _ := looked_extends looked
    have host := more.2.1
    refine drawn.keeps_text ?_
    unfold HasText
    rwa [host]

theorem selectLocale_keeps_text {text locale : String} (held : s.HasText id text)
    (run : selectLocale locale s = .ok true s') : s'.HasText id text := by
  obtain ⟨t, same, drawn⟩ := selectLocale_refreshed run
  have host : t.host = s.host := congrArg EditorSide.host same
  refine drawn.keeps_text ?_
  unfold HasText
  rwa [host]

end Session

namespace Command

open Session

variable {a : Arguments} {s t : CommandSession} {p : Path} {id : Handle} {ids : List Handle}
  {b : Buffer} {w : Workspace}

/-- The panel of the key at a position is printed. -/
theorem hoverAt_prints {line column : Int} {key : String}
    (isOpen : s.host.buffers.get? id = some b) (usable : s.project.settings.isSome = true)
    (found : keyAt? s.options.receiver b.text (line - 1) (column - 1) = some key)
    (rest : List Handle) :
    ∃ s', hoverAt p (.filled line) (.filled column) (id :: rest) s =
      .ok { output := (s.panelFor key).text } s' := by
  have there := Table.get?_set_self s.host.buffers id { b with cursor := (line - 1, column - 1) }
  have opens := showHover_opens (s := { s with host := { s.host with
    buffers := s.host.buffers.set id { b with cursor := (line - 1, column - 1) } } })
    there found usable
  exact ⟨_, bind_ok.2 ⟨(), _, onSession_ok.2 (changeBuffer_open isOpen _),
    bind_ok.2 ⟨true, _, onSession_ok.2 opens, rfl⟩⟩⟩

/-- A row comes from a reference that is found in the text. -/
theorem mem_missingRowsOf {path : String} {row : MissingRow} (mem : row ∈ s.missingRowsOf path b) :
    ∃ r ∈ findReferences s.options.receiver b.text,
      row.line = r.line + 1 ∧ row.column = r.colStart + 1 ∧ row.key = r.key := by
  obtain ⟨r, found, made⟩ := List.mem_filterMap.1 mem
  refine ⟨r, found, ?_⟩
  dsimp only at made
  split at made
  · cases made
  · cases made
    exact ⟨rfl, rfl, rfl⟩

theorem mem_missingRows_of {row : MissingRow} (isOpen : s.host.buffers.get? id = some b)
    (mem : row ∈ s.missingRows [id]) : ∃ path, row ∈ s.missingRowsOf path b := by
  simp only [missingRows, displayed, isOpen, List.filterMap_cons, List.filterMap_nil,
    Option.map_some, List.flatMap_cons, List.flatMap_nil, List.append_nil] at mem
  exact ⟨_, mem⟩

theorem filesAt_file (file : s.workspace.isDirectory p = .ok false) : filesAt p s = .ok [p] s := by
  refine bind_ok.2 ⟨s, s, rfl, bind_ok.2 ⟨false, s, ?_, rfl⟩⟩
  rw [file]
  rfl

/-- A command on a file previews one buffer with the text of the file, and there is a project with
usable settings. -/
theorem reaches_file (reached : Reaches a p (initialSession w) ids s)
    (file : w.isDirectory p = .ok false) :
    ∃ id content, ids = [id] ∧ w.read (Path.parse p.text) = .ok content ∧
      s.HasText id (Host.textOfFile content) ∧ s.project.settings.isSome = true := by
  obtain ⟨-, -, opened⟩ := reached
  obtain ⟨options, files, t, listed, attached, detected, last⟩ := openPreviews_ok opened
  rw [filesAt_file (by exact file)] at listed
  cases listed
  simp only [attachFiles, bind_ok, onSession_ok, pure_ok, exists_both_eq] at attached
  obtain ⟨id, t₁, opening, answer, t₂, attaching, rfl, rfl⟩ := attached
  obtain ⟨-, -, place⟩ :=
    attachFile_joined (fun _ mem => absurd mem List.not_mem_nil) opening attaching
  obtain ⟨content, read, rfl, rfl⟩ := openBuffer_file opening
  have held := attach_keeps_text ⟨_, Table.get?_set_self .., rfl⟩ attaching
  rw [ProjectState.isDetected, Bool.and_eq_true] at detected
  -- a file that is no source file finds no project
  obtain rfl : answer = true := by
    rcases place with ⟨-, -, project⟩ | ⟨rfl, -⟩
    · rw [project] at detected
      cases detected.1
    · rfl
  refine ⟨_, content, rfl, read, ?_⟩
  rcases last with ⟨-, rfl⟩ | ⟨-, locale, selected⟩
  · exact ⟨held, detected.2⟩
  · obtain ⟨messages, project⟩ := selectLocale_project selected
    rw [project]
    exact ⟨selectLocale_keeps_text held selected, detected.2⟩

/-- At the start of a reference the key of its owner is found; that is the reference itself unless
it starts inside one that is listed before it. For a file, references are listed by the places where
they start, and the panel at the start of each reference of the file is that of its owner. -/
theorem hover_shows_owner (receiver text : String) (w : Workspace) (a : Arguments) :
    (∀ before r after, findReferences receiver text = before ++ r :: after →
      keyAt? receiver text r.line r.colStart = some (r.owner before).key ∧
      (r.owner before = r ↔ ∀ q ∈ before, ¬ r.StartsInside q)) ∧
    ∀ p listing s, report { a with command := .check } (initialSession w) = .ok listing s →
      w.absolute (Path.parse a.path) = .ok p → w.isDirectory p = .ok false →
      ∃ id content, w.read (Path.parse p.text) = .ok content ∧
        listing.output = String.join ((s.missingRows [id]).map (·.lineText)) ∧
        (∀ row ∈ s.missingRows [id],
          ∃ r ∈ findReferences s.options.receiver (Host.textOfFile content),
            row.line = r.line + 1 ∧ row.column = r.colStart + 1 ∧ row.key = r.key) ∧
        ∀ before r after,
          findReferences s.options.receiver (Host.textOfFile content) = before ++ r :: after →
          ∃ s', report { a with
              command := .hover, line := .filled (r.line + 1), column := .filled (r.colStart + 1) }
            (initialSession w) = .ok { output := (s.panelFor (r.owner before).key).text } s' := by
  refine ⟨fun before r after split => ⟨keyAt?_start split, r.owner_eq_self⟩, ?_⟩
  intro p listing s run place file
  obtain ⟨q, ids, t, reached, finished⟩ := report_ok.1 run
  obtain ⟨place', -⟩ := absolutePath_ok.1 reached.1
  obtain rfl : q = p := Except.ok.inj (place'.symm.trans place)
  simp only [finish, bind_ok, get_ok, exists_both_eq, pure_ok] at finished
  obtain ⟨rfl, rfl⟩ := finished
  obtain ⟨id, content, rfl, read, ⟨b, isOpen, same⟩, usable⟩ := reaches_file reached file
  refine ⟨id, content, read, rfl, ?_, ?_⟩ <;> rw [← same]
  · intro row mem
    obtain ⟨path, row_mem⟩ := mem_missingRows_of isOpen mem
    exact mem_missingRowsOf row_mem
  · intro before r after split
    have found : keyAt? t.options.receiver b.text (r.line + 1 - 1) (r.colStart + 1 - 1) =
        some (r.owner before).key := by
      rw [Int.add_sub_cancel, Int.add_sub_cancel]
      exact keyAt?_start split
    obtain ⟨s', prints⟩ := hoverAt_prints (p := q) isOpen usable found []
    exact ⟨s', report_ok.2 ⟨q, [id], t, reached, prints⟩⟩

/-- A file of a project in which a call stands in the argument of another one. -/
def nestedCalls : Workspace where
  disk := ⟨nestedProject.nodes ++ [(["p", "b.ts"], .file "m.a(m.b())".toUTF8.toList 0)]⟩

/-- The inner call belongs to the outer one, and so does the panel at its start. -/
theorem hover_shows_owner_nestedCalls :
    keyAt? "m" "m.a(m.b())" 0 4 = some "a" ∧
    ∃ listing s s', report { command := .check, path := "p/b.ts" } (initialSession nestedCalls) =
        .ok listing s ∧
      listing.output = "p/b.ts:1:1: a missing in en\np/b.ts:1:5: b missing in en\n" ∧
      report { command := .hover, path := "p/b.ts", line := .filled 1, column := .filled 5 }
        (initialSession nestedCalls) = .ok { output := (s.panelFor "a").text } s' := by
  have split : findReferences "m" "m.a(m.b())" = [⟨"a", 0, 0, 9⟩] ++ ⟨"b", 0, 4, 8⟩ :: [] := by
    decide +kernel
  have evaluated : succeedsWith
      (fun r s => r.output = "p/b.ts:1:1: a missing in en\np/b.ts:1:5: b missing in en\n" ∧
        s.options.receiver = "m")
      (report { command := .check, path := "p/b.ts" }) (initialSession nestedCalls) = true := by
    decide +kernel
  obtain ⟨listing, s, run, seen⟩ := ok_of_succeedsWith evaluated
  obtain ⟨output, receiver⟩ := of_decide_eq_true seen
  obtain ⟨found, hovers⟩ := hover_shows_owner "m" "m.a(m.b())" nestedCalls { path := "p/b.ts" }
  obtain ⟨-, content, read, -, -, hovered⟩ := hovers ⟨.root, ["p", "b.ts"]⟩ listing s run
    (by decide +kernel) (by decide +kernel)
  obtain rfl : "m.a(m.b())".toUTF8.toList = content := Except.ok.inj (Eq.trans (by rfl) read)
  have same : Host.textOfFile "m.a(m.b())".toUTF8.toList = "m.a(m.b())" := by decide +kernel
  obtain ⟨s', hover⟩ := hovered _ _ _ (by rw [receiver, same]; exact split)
  exact ⟨(found _ _ _ split).1, listing, s, s', run, output, hover⟩

/-- A reference at whose start another key is found. -/
theorem nested_reference_unhovered : ∃ r ∈ findReferences "m" "m.a(m.b())",
    keyAt? "m" "m.a(m.b())" r.line r.colStart ≠ some r.key := by decide +kernel

end Command

end MessageLens
