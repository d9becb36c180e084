import MessageLens.Proofs.Session.Drawing
import MessageLens.Proofs.Session.Frame
import MessageLens.Proofs.Session.Reading

/-!
# Commands that redraw everything

Switching previews on, loading messages anew, displaying another locale, and a change of a message
file or of the settings end by redrawing every attached buffer. Each buffer then holds one inline
annotation per reference of its text, right after the reference, and the order in which the
attached buffers are visited is of no consequence.
-/

namespace MessageLens
set_option autoImplicit false

open Operation

variable {τ : Type}

namespace Session

variable {s s' t : Session τ} {u : Unit}

/-! ## What the commands do -/

/-- Files have been read anew, and every attached buffer has been redrawn since. -/
def Refreshed (s s' : Session τ) : Prop :=
  ∃ t, editorSide t = editorSide s ∧ Redrawn (if t.enabled then t.attached else []) t s'

theorem Refreshed.of_updateAll (same : editorSide t = editorSide s) (run : updateAll t = .ok u s') :
    Refreshed s s' :=
  ⟨t, same, updateAll_redrawn run⟩

theorem Redrawn.emit {ids : List Handle} (drawn : Redrawn ids s t) {e : SessionEvent}
    (run : emit e t = .ok u s') : Redrawn ids s s' := by
  obtain rfl := modify_ok.1 run
  refine ⟨?_, drawn.buffers⟩
  rw [drawn.outside]

theorem Refreshed.emit (before : Refreshed s t) {e : SessionEvent} (run : emit e t = .ok u s') :
    Refreshed s s' := by
  obtain ⟨start, same, drawn⟩ := before
  exact ⟨start, same, drawn.emit run⟩

theorem enable_refreshed (run : enable s = .ok u s') : Refreshed { s with enabled := true } s' := by
  simp only [enable, bind_ok, modify_ok, exists_unit_eq] at run
  exact Refreshed.of_updateAll rfl run

theorem refresh_refreshed (run : refresh s = .ok u s') : Refreshed s s' := by
  simp only [refresh, bind_ok, read_ok, exists_both_eq] at run
  generalize projectPart.get s = p at run
  split at run
  · obtain ⟨read, t, reading, run⟩ := bind_ok.1 run
    have kept := (readSettings_keeps_editor _).ok reading
    cases read with
    | some settings =>
      simp only [bind_ok] at run
      obtain ⟨_, t₁, applied, _, t₂, drawn, logged⟩ := run
      have kept' := (applySettings_keeps_editor settings).ok applied
      exact (Refreshed.of_updateAll (kept'.trans kept) drawn).emit logged
    | none =>
      obtain ⟨_, t₂, drawn, logged⟩ := bind_ok.1 run
      exact (Refreshed.of_updateAll kept drawn).emit logged
  · simp only [bind_ok] at run
    obtain ⟨_, t, cleared, _, t₁, loaded, _, t₂, drawn, logged⟩ := run
    have kept := (project_keeps_editor fun _ => by rfl).ok cleared
    have kept' := loadAllLocales_keeps_editor.ok loaded
    exact (Refreshed.of_updateAll (kept'.trans kept) drawn).emit logged

theorem refuseLocale_answer {shown : String} {b : Bool} (run : refuseLocale shown s = .ok b s') :
    b = false := by
  simp only [refuseLocale, bind_ok, read_ok, exists_both_eq, ite_ok] at run
  obtain ⟨-, _, _, -, answer⟩ | ⟨-, _, _, -, answer⟩ := run
  · exact (pure_ok.1 answer).1.symm
  · exact (pure_ok.1 answer).1.symm

theorem selectLocale_refreshed {locale : String} (run : selectLocale locale s = .ok true s') :
    Refreshed s s' := by
  simp only [selectLocale, bind_ok, read_ok, exists_both_eq, ite_ok] at run
  obtain ⟨-, refused⟩ | ⟨-, _, t, chosen, run⟩ := run
  · cases refuseLocale_answer refused
  · have kept := (project_keeps_editor fun _ => by rfl).ok chosen
    obtain ⟨-, _, t₁, loaded, run⟩ | ⟨-, run⟩ := run
    · obtain ⟨_, t₂, drawn, _, t₃, logged, answer⟩ := run
      obtain ⟨-, rfl⟩ := pure_ok.1 answer
      have kept' := (loadLocale_keeps_editor locale).ok loaded
      exact (Refreshed.of_updateAll (kept'.trans kept) drawn).emit logged
    · obtain ⟨_, t₂, drawn, _, t₃, logged, answer⟩ := run
      obtain ⟨-, rfl⟩ := pure_ok.1 answer
      exact (Refreshed.of_updateAll kept drawn).emit logged

theorem onMessageFileChanged_refreshed {locale : String} (detected : s.project.isDetected = true)
    (run : onMessageFileChanged locale s = .ok u s') : Refreshed s s' := by
  simp only [onMessageFileChanged, bind_ok, read_ok, exists_both_eq, ite_ok] at run
  obtain ⟨-, _, t, logged, _, t₁, loaded, drawn⟩ | ⟨undetected, -⟩ := run
  · have kept := (emit_keeps_editor _).ok logged
    have kept' := (loadLocale_keeps_editor locale).ok loaded
    exact Refreshed.of_updateAll (kept'.trans kept) drawn
  · exact absurd detected undetected

theorem onSettingsChanged_refreshed {root : Path} (found : s.project.root = some root)
    (run : onSettingsChanged s = .ok u s') : Refreshed s s' := by
  simp only [onSettingsChanged, bind_ok, read_ok, exists_both_eq, projectPart, found] at run
  obtain ⟨read, t, reading, run⟩ := run
  have kept := (readSettings_keeps_editor root).ok reading
  cases read with
  | some settings =>
    obtain ⟨_, t₁, applied, drawn⟩ := bind_ok.1 run
    have kept' := (applySettings_keeps_editor settings).ok applied
    exact Refreshed.of_updateAll (kept'.trans kept) drawn
  | none =>
    simp only [bind_ok] at run
    obtain ⟨_, t₁, dropped, _, t₂, watched, drawn⟩ := run
    have kept₁ := (project_keeps_editor fun _ => by rfl).ok dropped
    have kept₂ := watchSettingsFile_keeps_editor.ok watched
    exact Refreshed.of_updateAll (kept₂.trans (kept₁.trans kept)) drawn

/-! ## Attaching -/

/-- The project has been looked for unless it had been found before. -/
def Looked (s t : Session τ) : Prop :=
  s.project.root = none ∧ (∃ file, discoverProject file s = .ok () t) ∨
    s.project.root.isSome = true ∧ t = s

/-- Looking for the project leaves the editor and the timers alone. -/
theorem Looked.same (looked : Looked s t) :
    t.options = s.options ∧ t.layer = s.layer ∧ t.attached = s.attached ∧ t.timers = s.timers ∧
      t.host = s.host := by
  obtain ⟨-, file, discovered⟩ | ⟨-, rfl⟩ := looked
  · obtain ⟨root, same⟩ := discoverProject_editor discovered
    exact ⟨congrArg EditorSide.options same, congrArg EditorSide.layer same,
      congrArg EditorSide.attached same, congrArg EditorSide.timers same,
      congrArg EditorSide.host same⟩
  · exact ⟨rfl, rfl, rfl, rfl, rfl⟩

/-- What attaching a buffer does, and what it answers. A source file that has not been attached is:
the project is looked for unless it has been found before, and the buffer is drawn. -/
theorem attach_answers {id : Handle} {answer : Bool} (run : attach id s = .ok answer s') :
    s' = s ∧ (answer = true → id ∈ s.attached) ∨
      answer = true ∧ id ∉ s.attached ∧ ∃ b, s.host.buffers.get? id = some b ∧
        ∃ t, (s.project.root = none ∧ discoverProject (Path.parse b.path) s = .ok () t ∨
            s.project.root.isSome = true ∧ t = s) ∧
          Redrawn (if t.enabled then [id] else []) { t with attached := t.attached ++ [id] } s' := by
  have drawn : ∀ {t : Session τ}, t.enabled = true ∧
      (∃ u t', updateBuffer id { t with attached := t.attached ++ [id] } = .ok u t' ∧
        (pure true : SessionOperation τ Bool) t' = .ok answer s') ∨
      ¬ t.enabled = true ∧ (pure true : SessionOperation τ Bool)
        { t with attached := t.attached ++ [id] } = .ok answer s' →
      answer = true ∧
        Redrawn (if t.enabled then [id] else []) { t with attached := t.attached ++ [id] } s' := by
    rintro t (⟨-, _, t', updated, last⟩ | ⟨off, last⟩)
    · obtain ⟨rfl, rfl⟩ := pure_ok.1 last
      exact ⟨rfl, updateBuffer_redrawn updated⟩
    · obtain ⟨rfl, rfl⟩ := pure_ok.1 last
      rw [if_neg off]
      exact ⟨rfl, Redrawn.refl _⟩
  simp only [attach, bind_ok, get_ok, exists_both_eq, ite_ok, buffer_ok, read_ok, modify_ok,
    exists_unit_eq] at run
  obtain ⟨known, last⟩ | ⟨free, source, t, ⟨isOpen, rfl⟩, ⟨-, last⟩ | ⟨-, run⟩⟩ := run
  · exact .inl ⟨(pure_ok.1 last).2.symm, fun _ => known⟩
  · obtain ⟨rfl, rfl⟩ := pure_ok.1 last
    exact .inl ⟨rfl, fun yes => absurd yes Bool.false_ne_true⟩
  · obtain ⟨noRoot, _, t, discovered, rest⟩ | ⟨root, rest⟩ := run
    · obtain ⟨yes, shown⟩ := drawn rest
      have none := Option.isNone_iff_eq_none.1 noRoot
      exact .inr ⟨yes, free, source, isOpen, t, .inl ⟨none, discovered⟩, shown⟩
    · obtain ⟨yes, shown⟩ := drawn rest
      refine .inr ⟨yes, free, source, isOpen, s, .inr ⟨?_, rfl⟩, shown⟩
      cases found : s.project.root with
      | none => exact absurd (congrArg Option.isNone found) root
      | some root => rfl

/-- What attaching a buffer does, if it does anything: the project is looked for unless it has been
found before, and the buffer is drawn. -/
theorem attach_ok {id : Handle} {b : Bool} (run : attach id s = .ok b s') :
    s' = s ∨ id ∉ s.attached ∧ (∃ b, s.host.buffers.get? id = some b) ∧
      ∃ t, Looked s t ∧
        Redrawn (if t.enabled then [id] else []) { t with attached := t.attached ++ [id] } s' := by
  rcases attach_answers run with ⟨same, -⟩ | ⟨-, free, source, isOpen, t, looked, drawn⟩
  · exact .inl same
  · refine .inr ⟨free, ⟨source, isOpen⟩, t, ?_, drawn⟩
    rcases looked with ⟨unfound, discovered⟩ | found
    · exact .inl ⟨unfound, _, discovered⟩
    · exact .inr found

/-! ## The order of attachment -/

/-- `t` is `s` with its buffers attached in another order. The places of buffers in the table of the
editor and the trace of events may differ with that. -/
structure Reordered (s t : Session τ) : Prop where
  outside : t = { s with
    attached := t.attached
    host := { s.host with buffers := t.host.buffers }
    events := t.events }
  attached : t.attached.Perm s.attached
  buffers : ∀ i, t.host.buffers.get? i = s.host.buffers.get? i

namespace Reordered

theorem of_perm {order : List Handle} (perm : order.Perm s.attached) :
    Reordered s { s with attached := order } :=
  ⟨rfl, perm, fun _ => rfl⟩

theorem updateAll_respects : Respects Reordered (updateAll : SessionOperation τ Unit) := by
  intro s t related u s' run
  have drawn := updateAll_redrawn run
  obtain ⟨t', run', drawn'⟩ := updateAll_ok t
  have enabled : t.enabled = s.enabled := by rw [related.outside]
  have redrawn : t.redrawn = s.redrawn := by rw [related.outside]; rfl
  refine ⟨t', run', ?_, ?_, fun i => ?_⟩
  · rw [drawn'.outside, drawn.outside, related.outside]
  · rw [drawn'.outside, drawn.outside]
    exact related.attached
  · have visited : i ∈ (if t.enabled then t.attached else []) ↔
        i ∈ (if s.enabled then s.attached else []) := by
      rw [enabled]
      cases s.enabled with
      | true => exact related.attached.mem_iff
      | false => exact Iff.rfl
    rw [drawn'.buffers i, drawn.buffers i, related.buffers i, redrawn]
    simp only [visited]

theorem emit_respects (e : SessionEvent) :
    Respects Reordered (emit e : SessionOperation τ Unit) := by
  refine Respects.modify fun s t related => ⟨?_, related.attached, related.buffers⟩
  rw [related.outside]

theorem project_respects (f : ProjectState → ProjectState) :
    Respects Reordered (projectPart.change f : SessionOperation τ Unit) := by
  refine Respects.change fun s t related => ⟨?_, related.attached, related.buffers⟩
  rw [related.outside]
  rfl

theorem watcher_respects (f : Watcher SessionCallback → Watcher SessionCallback) :
    Respects Reordered (watcherPart.change f : SessionOperation τ Unit) := by
  refine Respects.change fun s t related => ⟨?_, related.attached, related.buffers⟩
  rw [related.outside]
  rfl

theorem sameProject (related : Reordered s t) : SameProject s t := by
  refine ⟨⟨?_, ?_⟩, ?_⟩
  · rw [related.outside]
  · rw [related.outside]
    rfl
  · rw [related.outside]

theorem watch_respects (p : Path) (callback : SessionCallback) :
    Respects Reordered (watch p callback : SessionOperation τ Unit) := by
  refine Respects.bind (Respects.read fun s t related => ?_) fun w => ?_
  · rw [related.outside]
    rfl
  · cases w.find? p with
    | some _ => exact watcher_respects _
    | none =>
      refine Respects.bind (Respects.get_bind (fun s t related => ?_) fun _ => ?_) fun _ =>
        watcher_respects _
      · rw [related.sameProject.stamp?]
      · exact attempt_respects ..

/-- The order of attachment is no part of what is read. -/
theorem unseen : UnseenByWatches (Reordered (τ := τ)) where
  same _ _ := sameProject
  emit := emit_respects
  project := project_respects
  clear := watcher_respects _
  watch := watch_respects

theorem enable_respects : Respects Reordered (enable : SessionOperation τ Unit) := by
  refine Respects.bind (Respects.modify fun s t related => ?_) fun _ => updateAll_respects
  refine ⟨?_, related.attached, related.buffers⟩
  rw [related.outside]

theorem refresh_respects : Respects Reordered (refresh : SessionOperation τ Unit) := by
  refine unseen.read.bind fun p => ?_
  have finish := updateAll_respects (τ := τ).bind fun _ => emit_respects
    (.logged ⟨.info, "session.preview", "Lazy Watson translations refreshed"⟩)
  simp only
  split
  · refine (unseen.readSettings _).bind fun r => ?_
    cases r with
    | some settings => exact (unseen.applySettings settings).bind fun _ => finish
    | none => exact finish
  · exact (project_respects _).bind fun _ => unseen.loadAllLocales.bind fun _ => finish

theorem refuseLocale_respects (shown : String) :
    Respects Reordered (refuseLocale shown : SessionOperation τ Bool) :=
  unseen.read.bind fun _ => Respects.ite
    ((emit_respects _).bind fun _ => Respects.pure _)
    ((emit_respects _).bind fun _ => Respects.pure _)

theorem selectLocale_respects (locale : String) :
    Respects Reordered (selectLocale locale : SessionOperation τ Bool) := by
  have finish := updateAll_respects (τ := τ).bind fun _ => (emit_respects
    (.logged ⟨.info, "session.preview", "Locale set to: " ++ locale⟩)).bind fun _ =>
      Respects.pure true
  refine unseen.read.bind fun p => Respects.ite (refuseLocale_respects _) ?_
  exact (project_respects _).bind fun _ =>
    Respects.ite ((unseen.loadLocale locale).bind fun _ => finish) finish

theorem onMessageFileChanged_respects (locale : String) :
    Respects Reordered (onMessageFileChanged locale : SessionOperation τ Unit) :=
  unseen.read.bind fun _ => Respects.ite
    ((emit_respects _).bind fun _ => (unseen.loadLocale locale).bind fun _ => updateAll_respects)
    (Respects.pure ())

theorem onSettingsChanged_respects :
    Respects Reordered (onSettingsChanged : SessionOperation τ Unit) := by
  refine unseen.read.bind fun p => ?_
  cases p.root with
  | none => exact Respects.pure ()
  | some root =>
    refine (unseen.readSettings root).bind fun r => ?_
    cases r with
    | some settings => exact (unseen.applySettings settings).bind fun _ => updateAll_respects
    | none =>
      exact (project_respects _).bind fun _ => unseen.watchSettingsFile.bind fun _ =>
        updateAll_respects

end Reordered

/-! ## Exact redrawing -/

/-- With a project, a buffer shows one inline annotation per reference of its text, in their order
and right after the reference, and nothing without one. -/
def ShowsExactly (s : Session τ) (id : Handle) (b : Buffer) : Prop :=
  if s.project.isDetected then
    annotationsFor id s = .ok (b.drawn s.layer) s ∧
    (b.drawn s.layer).map (fun a => (a.key, a.line, a.column, a.placement)) =
      (findReferences s.options.receiver b.text).map fun r =>
        (r.key, r.line, r.colEnd + 1, .inline)
  else b.drawn s.layer = []

theorem annotationsOfText_places (s : Session τ) (text : String) :
    (s.annotationsOfText text).map (fun a => (a.key, a.line, a.column, a.placement)) =
      (findReferences s.options.receiver text).map fun r =>
        (r.key, r.line, r.colEnd + 1, .inline) := by
  rw [annotationsOfText, resolveReferences, List.map_map]
  rfl

theorem ShowsExactly.of_redrawn {id : Handle} {b b₀ : Buffer}
    (isOpen : s.host.buffers.get? id = some b) (redraw : s.redrawn b₀ = b) :
    ShowsExactly s id b := by
  rw [ShowsExactly]
  cases detected : s.project.isDetected with
  | true =>
    have shown : b.drawn s.layer = s.annotationsOfText b.text := by
      rw [← redraw, redrawn, detected, if_pos rfl, Buffer.drawn_redrawn, Buffer.redrawn_text]
    rw [if_pos rfl, shown]
    exact ⟨annotationsFor_ok.2 ⟨b, isOpen, rfl, rfl⟩, annotationsOfText_places s b.text⟩
  | false =>
    rw [if_neg Bool.false_ne_true, ← redraw, redrawn, detected, if_neg Bool.false_ne_true,
      Buffer.drawn_redrawn]

theorem Redrawn.shows {ids : List Handle} (drawn : Redrawn ids s s') {id : Handle} {b : Buffer}
    (visited : id ∈ ids) (isOpen : s'.host.buffers.get? id = some b) : ShowsExactly s' id b := by
  have before := drawn.buffers id
  rw [isOpen] at before
  obtain ⟨b₀, -, redraw⟩ := Option.map_eq_some_iff.1 before.symm
  rw [if_pos visited, ← drawn.redrawn_eq] at redraw
  exact .of_redrawn isOpen redraw

theorem Refreshed.shows (h : Refreshed s s') (enabled : s'.enabled = true) {id : Handle}
    {b : Buffer} (attached : id ∈ s'.attached) (isOpen : s'.host.buffers.get? id = some b) :
    ShowsExactly s' id b := by
  obtain ⟨t, -, drawn⟩ := h
  have same : t.enabled = s'.enabled ∧ t.attached = s'.attached := by
    rw [drawn.outside]
    exact ⟨rfl, rfl⟩
  refine drawn.shows ?_ isOpen
  rw [same.1, enabled, if_pos rfl, same.2]
  exact attached

end Session

/-- The steps that redraw every attached buffer, given the state before the step and its answer. -/
def SessionStep.Redraws (step : SessionStep) (s : Session τ) (answer : SessionAnswer) : Prop :=
  match step with
  | .enable => True
  | .refresh => True
  | .selectLocale _ => answer = .flag true
  | .messageFileChanged _ => s.project.isDetected = true
  | .settingsChanged => s.project.root.isSome = true
  | _ => False

namespace Session

variable [Instant τ] {s s' : Session τ} {step : SessionStep} {answer : SessionAnswer}

theorem perform_refreshed (redraws : step.Redraws s answer)
    (run : perform step s = .ok answer s') : ∃ s₀, Refreshed s₀ s' := by
  cases step with
  | enable =>
    obtain ⟨_, t, ran, rest⟩ := bind_ok.1 run
    obtain ⟨-, rfl⟩ := pure_ok.1 rest
    exact ⟨_, enable_refreshed ran⟩
  | refresh =>
    obtain ⟨_, t, ran, rest⟩ := bind_ok.1 run
    obtain ⟨-, rfl⟩ := pure_ok.1 rest
    exact ⟨s, refresh_refreshed ran⟩
  | selectLocale locale =>
    obtain ⟨b, t, ran, rest⟩ := bind_ok.1 run
    obtain ⟨flag, rfl⟩ := pure_ok.1 rest
    obtain rfl : b = true := SessionAnswer.flag.inj (flag.trans redraws)
    exact ⟨s, selectLocale_refreshed ran⟩
  | messageFileChanged locale =>
    obtain ⟨_, t, ran, rest⟩ := bind_ok.1 run
    obtain ⟨-, rfl⟩ := pure_ok.1 rest
    exact ⟨s, onMessageFileChanged_refreshed redraws ran⟩
  | settingsChanged =>
    obtain ⟨_, t, ran, rest⟩ := bind_ok.1 run
    obtain ⟨-, rfl⟩ := pure_ok.1 rest
    obtain ⟨root, found⟩ := Option.isSome_iff_exists.1 redraws
    exact ⟨s, onSettingsChanged_refreshed found ran⟩
  | _ => exact redraws.elim

theorem perform_respects_order (redraws : step.Redraws s answer) :
    Respects Reordered (perform step : SessionOperation τ SessionAnswer) := by
  cases step with
  | enable => exact Reordered.enable_respects.bind fun _ => Respects.pure _
  | refresh => exact Reordered.refresh_respects.bind fun _ => Respects.pure _
  | selectLocale locale =>
    exact (Reordered.selectLocale_respects locale).bind fun _ => Respects.pure _
  | messageFileChanged locale =>
    exact (Reordered.onMessageFileChanged_respects locale).bind fun _ => Respects.pure _
  | settingsChanged => exact Reordered.onSettingsChanged_respects.bind fun _ => Respects.pure _
  | _ => exact redraws.elim

/-- Whatever the state was, after a redrawing step every attached buffer shows exactly what it
should, and no other order of attachment would have shown anything else. -/
theorem redraw_exact (run : perform step s = .ok answer s') (redraws : step.Redraws s answer)
    (enabled : s'.enabled = true) :
    (∀ id ∈ s'.attached, ∀ b, s'.host.buffers.get? id = some b → ShowsExactly s' id b) ∧
    ∀ order, order.Perm s.attached →
      ∃ t, perform step { s with attached := order } = .ok answer t ∧ Reordered s' t := by
  constructor
  · intro id attached b isOpen
    obtain ⟨s₀, refreshed⟩ := perform_refreshed redraws run
    exact refreshed.shows enabled attached isOpen
  · intro order perm
    exact perform_respects_order redraws (Reordered.of_perm perm) run

/-- A session that is switched off, with a reference of either form in two attached buffers. -/
def twoBuffers : Session Int where
  enabled := false
  project :=
    { root := some ⟨.root, ["p"]⟩
      settings := some ⟨"en", ["en"], defaultPathPattern⟩
      locale := some "en"
      messages := Table.ofList [("en", Table.ofList [("k", "v")])] }
  attached := [.number 1, .number 2]
  timers := { scheduler := { now := 0 } }
  host := ((({} : Host).openBuffer "/p/a.ts" "m.k()").2.openBuffer "/p/b.ts" "m['k'] ( )").2

theorem redraw_exact_enable : ∃ s', perform .enable twoBuffers = .ok .nothing s' ∧
    s'.enabled = true ∧
    (∀ id ∈ s'.attached, ∀ b, s'.host.buffers.get? id = some b → ShowsExactly s' id b) ∧
    ∀ order, order.Perm twoBuffers.attached →
      ∃ t, perform .enable { twoBuffers with attached := order } = .ok .nothing t ∧
        Reordered s' t := by
  obtain ⟨answer, s', run, kind⟩ := ok_of_succeedsWith (x := perform .enable) (s := twoBuffers)
    (p := fun answer s' => answer = .nothing && s'.enabled) (by decide +kernel)
  simp only [Bool.and_eq_true, decide_eq_true_eq] at kind
  obtain ⟨rfl, enabled⟩ := kind
  exact ⟨s', run, enabled, redraw_exact run trivial enabled⟩

end Session

end MessageLens
