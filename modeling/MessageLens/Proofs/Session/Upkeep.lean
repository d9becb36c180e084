import MessageLens.Proofs.Session.Redraw
import MessageLens.Proofs.Session.Start
import MessageLens.Proofs.Timer.Debouncer

/-!
# The upkeep of previews

While a session is switched on and has a project, every attached buffer shows its annotations or has
a timer that will draw them. The operations of a session keep it that way. For that they need to
know of every timer what it is set for, that a closed buffer never opens again, and that nothing has
been drawn before there is a project.
-/

namespace MessageLens
set_option autoImplicit false

open Operation

variable {τ : Type}

theorem Host.Issued.ne_hover {h : Host} {id : Handle} (issued : h.Issued id) :
    id ≠ Session.hoverContext := by
  obtain ⟨n, -, rfl⟩ := issued
  exact Handle.noConfusion

namespace Session

variable {s s' t : Session τ} {batch : List (Timer τ (Job Handle SessionTask))}
  {ids : List Handle} {id : Handle}

/-- What the timers of a session are set for: to update the buffer that is their context, or to open
the panel. -/
def Purpose (job : Job Handle SessionTask) : Prop :=
  (∃ id, job = ⟨some id, .update id⟩) ∨ ∃ id, job = ⟨some hoverContext, .hover id⟩

/-- What is drawn in a buffer, if it is open, are the annotations of its text. -/
def Current (s : Session τ) (id : Handle) : Prop :=
  ∀ b, s.host.buffers.get? id = some b → b.drawn s.layer = s.annotationsOfText b.text

/-- The timers and the buffers of a session are in order; `batch` are timers that have been taken
off the pending list to be fired. -/
structure InOrder (batch : List (Timer τ (Job Handle SessionTask))) (s : Session τ) : Prop where
  sound : s.timers.Sound batch
  purpose : ∀ t ∈ s.timers.scheduler.pending ++ batch, Purpose t.task
  opened : ∀ id b, s.host.buffers.get? id = some b → s.host.Issued id
  attached : ∀ id ∈ s.attached, s.host.Issued id
  blank : s.project.root = none →
    ∀ id b, s.host.buffers.get? id = some b → b.drawn s.layer = []

/-- Every attached buffer but those given shows its annotations or has a timer, as far as the
session is switched on and has a project. -/
def SettledBut (ids : List Handle) (s : Session τ) : Prop :=
  s.enabled = true → s.project.isDetected = true →
    ∀ id ∈ s.attached, id ∈ ids ∨ s.timers.isPending id = true ∨ Current s id

/-- The state between operations that the upkeep of previews maintains. -/
structure Kept (batch : List (Timer τ (Job Handle SessionTask))) (s : Session τ) : Prop where
  order : InOrder batch s
  settled : SettledBut [] s

/-! ## What the upkeep depends on -/

/-- All that previews depend on. -/
structure PreviewSide (τ : Type) where
  options : PreviewOptions
  layer : String
  enabled : Bool
  project : ProjectState
  attached : List Handle
  timers : Debouncer τ Handle SessionTask
  buffers : Table Handle Buffer
  opened : Nat

/-- The part of a session that previews depend on. -/
def previewSide (s : Session τ) : PreviewSide τ :=
  ⟨s.options, s.layer, s.enabled, s.project, s.attached, s.timers, s.host.buffers, s.host.opened⟩

theorem emit_keeps_previews (e : SessionEvent) :
    Keeps previewSide (emit e : SessionOperation τ Unit) :=
  Keeps.modify fun _ => rfl

theorem watcher_keeps_previews (f : Watcher SessionCallback → Watcher SessionCallback) :
    Keeps previewSide (watcherPart.change f : SessionOperation τ Unit) :=
  Keeps.change (fun _ _ => rfl) f

theorem closePanel_keeps_previews : Keeps previewSide (closePanel : SessionOperation τ Unit) :=
  (emit_keeps_previews _).bind fun _ => fun _ => rfl

theorem showHover_keeps_previews (id : Handle) :
    Keeps previewSide (showHover id : SessionOperation τ Bool) :=
  showHover_keeps closePanel_keeps_previews (emit_keeps_previews _) fun _ _ => rfl

theorem changeFiles_keeps_previews (c : FileChange) :
    Keeps previewSide (changeFiles c : SessionOperation τ Unit) :=
  changeFiles_keeps (fun _ _ => rfl) c

theorem Kept.of_previewSide (same : previewSide s' = previewSide s) (kept : Kept batch s) :
    Kept batch s' := by
  obtain ⟨options, layer, enabled, project, attached, timers, watcher, host, workspace, events⟩ := s
  obtain ⟨options', layer', enabled', project', attached', timers', watcher', host', workspace',
    events'⟩ := s'
  obtain ⟨buffers, panel, panelBuffer, opened⟩ := host
  obtain ⟨buffers', panel', panelBuffer', opened'⟩ := host'
  simp only [previewSide, PreviewSide.mk.injEq] at same
  obtain ⟨rfl, rfl, rfl, rfl, rfl, rfl, rfl, rfl⟩ := same
  obtain ⟨⟨sound, purpose, opened, attached, blank⟩, settled⟩ := kept
  exact ⟨⟨sound, purpose, opened, attached, blank⟩, settled⟩

theorem InOrder.of_editorSide (same : editorSide s' = editorSide s) (order : InOrder batch s) :
    InOrder batch s' := by
  have layer : s'.layer = s.layer := congrArg EditorSide.layer same
  have root : s'.project.root = s.project.root := congrArg EditorSide.root same
  have attached : s'.attached = s.attached := congrArg EditorSide.attached same
  have timers : s'.timers = s.timers := congrArg EditorSide.timers same
  have host : s'.host = s.host := congrArg EditorSide.host same
  refine ⟨?_, ?_, ?_, ?_, ?_⟩
  · rw [timers]; exact order.sound
  · rw [timers]; exact order.purpose
  · rw [host]; exact order.opened
  · rw [attached, host]; exact order.attached
  · rw [root, host, layer]; exact order.blank

theorem SettledBut.mono {ids' : List Handle} (settled : SettledBut ids s)
    (more : ∀ id ∈ ids, id ∈ ids') : SettledBut ids' s :=
  fun enabled detected id attached => (settled enabled detected id attached).imp_left (more id)

/-! ## Drawing -/

theorem Redrawn.annotations_eq (drawn : Redrawn ids s s') (text : String) :
    s'.annotationsOfText text = s.annotationsOfText text := by
  rw [drawn.outside]
  rfl

theorem Redrawn.issued_iff (drawn : Redrawn ids s s') : s'.host.Issued id ↔ s.host.Issued id := by
  rw [drawn.outside]
  exact Iff.rfl

theorem Redrawn.opened_before (drawn : Redrawn ids s s') {b : Buffer}
    (isOpen : s'.host.buffers.get? id = some b) :
    ∃ b₀, s.host.buffers.get? id = some b₀ ∧ b = if id ∈ ids then s.redrawn b₀ else b₀ := by
  have before := drawn.buffers id
  rw [isOpen] at before
  obtain ⟨b₀, isOpen₀, eq⟩ := Option.map_eq_some_iff.1 before.symm
  exact ⟨b₀, isOpen₀, eq.symm⟩

/-- Redrawing a buffer makes it current while there is a project, and leaves others as they are. -/
theorem Redrawn.current (drawn : Redrawn ids s s') (detected : s.project.isDetected = true)
    (before : id ∈ ids ∨ Current s id) : Current s' id := by
  intro b isOpen
  obtain ⟨b₀, isOpen₀, rfl⟩ := drawn.opened_before isOpen
  have layer : s'.layer = s.layer := by rw [drawn.outside]
  rw [drawn.annotations_eq, layer]
  by_cases visited : id ∈ ids
  · rw [if_pos visited, redrawn, detected, if_pos rfl, Buffer.drawn_redrawn, Buffer.redrawn_text]
  · rw [if_neg visited]
    exact before.resolve_left visited b₀ isOpen₀

theorem InOrder.redrawn (order : InOrder batch s) (drawn : Redrawn ids s s') :
    InOrder batch s' := by
  have timers : s'.timers = s.timers := by rw [drawn.outside]
  have attached : s'.attached = s.attached := by rw [drawn.outside]
  have project : s'.project = s.project := by rw [drawn.outside]
  have layer : s'.layer = s.layer := by rw [drawn.outside]
  refine ⟨?_, ?_, fun id b isOpen => ?_, fun id mem => ?_, fun noRoot id b isOpen => ?_⟩
  · rw [timers]; exact order.sound
  · rw [timers]; exact order.purpose
  · obtain ⟨b₀, isOpen₀, -⟩ := drawn.opened_before isOpen
    exact drawn.issued_iff.2 (order.opened id b₀ isOpen₀)
  · rw [attached] at mem
    exact drawn.issued_iff.2 (order.attached id mem)
  · rw [project] at noRoot
    obtain ⟨b₀, isOpen₀, rfl⟩ := drawn.opened_before isOpen
    have undetected : s.project.isDetected = false := by
      rw [ProjectState.isDetected, noRoot, Option.isSome_none, Bool.false_and]
    rw [layer]
    by_cases visited : id ∈ ids
    · rw [if_pos visited, Session.redrawn, undetected, if_neg Bool.false_ne_true,
        Buffer.drawn_redrawn]
    · rw [if_neg visited]
      exact order.blank noRoot id b₀ isOpen₀

theorem SettledBut.redrawn (settled : SettledBut ids s)
    (drawn : Redrawn (if s.enabled then ids else []) s s') : SettledBut [] s' := by
  intro enabled detected id attached
  have same : s'.enabled = s.enabled ∧ s'.project = s.project ∧ s'.attached = s.attached ∧
      s'.timers = s.timers := by
    rw [drawn.outside]
    exact ⟨rfl, rfl, rfl, rfl⟩
  rw [same.1] at enabled
  rw [same.2.1] at detected
  rw [same.2.2.1] at attached
  rw [enabled, if_pos rfl] at drawn
  rw [same.2.2.2]
  obtain visited | pending | current := settled enabled detected id attached
  · exact .inr (.inr (drawn.current detected (.inl visited)))
  · exact .inr (.inl pending)
  · exact .inr (.inr (drawn.current detected (.inr current)))

theorem updateBuffer_kept (id : Handle) :
    Preserves (Kept batch) (updateBuffer id : SessionOperation τ Unit) := by
  intro s u s' kept run
  have drawn := updateBuffer_redrawn run
  have settled : SettledBut [id] s := kept.settled.mono (by simp)
  exact ⟨kept.order.redrawn drawn, settled.redrawn drawn⟩

/-- Whatever has become of the project meanwhile, redrawing everything settles everything. -/
theorem Refreshed.kept (refreshed : Refreshed s s') (order : InOrder batch s) : Kept batch s' := by
  obtain ⟨t, same, drawn⟩ := refreshed
  have order' := order.of_editorSide same
  have all : SettledBut t.attached t := fun _ _ id attached => .inl attached
  exact ⟨order'.redrawn drawn, all.redrawn drawn⟩

theorem updateAll_kept : Preserves (Kept batch) (updateAll : SessionOperation τ Unit) :=
  fun _ _ _ kept run => (Refreshed.of_updateAll rfl run).kept kept.order

/-! ## Timers -/

theorem InOrder.cancel (order : InOrder batch s) (c : Handle) :
    InOrder batch { s with timers := s.timers.cancel c } where
  sound := order.sound.cancel c
  purpose t mem := order.purpose t <| List.mem_append.2 <|
    (List.mem_append.1 mem).imp_left Debouncer.mem_of_cancel
  opened := order.opened
  attached := order.attached
  blank := order.blank

theorem InOrder.cancelAll (order : InOrder batch s) :
    InOrder batch { s with timers := s.timers.cancelAll } where
  sound := order.sound.cancelAll
  purpose t mem := order.purpose t <| List.mem_append.2 <|
    (List.mem_append.1 mem).imp_left Debouncer.mem_of_cancelAll
  opened := order.opened
  attached := order.attached
  blank := order.blank

theorem Kept.cancel (kept : Kept batch s) {c : Handle} (free : c ∉ s.attached) :
    Kept batch { s with timers := s.timers.cancel c } := by
  refine ⟨kept.order.cancel c, fun enabled detected id attached => ?_⟩
  have other : id ≠ c := fun h => free (h ▸ attached)
  obtain none | pending | current := kept.settled enabled detected id attached
  · exact .inl none
  · exact .inr (.inl (Debouncer.isPending_cancel.2 ⟨other, pending⟩))
  · exact .inr (.inr current)

theorem InOrder.hover_free (order : InOrder batch s) : hoverContext ∉ s.attached :=
  fun attached => (order.attached _ attached).ne_hover rfl

/-- Starting the timer of a buffer settles the buffer. -/
theorem SettledBut.trigger [Instant τ] {c : Handle} (settled : SettledBut ids s)
    (only : ∀ id ∈ ids, id = c) (delay : Int) (task : SessionTask) :
    SettledBut [] { s with timers := (s.timers.trigger c delay task).2 } := by
  intro enabled detected id attached
  refine .inr ((settled enabled detected id attached).elim (fun own => .inl ?_) fun rest => ?_)
  · exact Debouncer.isPending_trigger.2 (.inl (only id own))
  · exact rest.imp_left fun pending => Debouncer.isPending_trigger.2 (.inr pending)

theorem InOrder.trigger [Instant τ] (order : InOrder batch s) {c : Handle} {task : SessionTask}
    (purpose : Purpose ⟨some c, task⟩) (delay : Int) :
    InOrder batch { s with timers := (s.timers.trigger c delay task).2 } where
  sound := order.sound.trigger c delay task
  purpose t mem := by
    obtain pending | inBatch := List.mem_append.1 mem
    · obtain old | new := Debouncer.mem_of_trigger pending
      · exact order.purpose t (List.mem_append_left _ old)
      · exact new ▸ purpose
    · exact order.purpose t (List.mem_append_right _ inBatch)
  opened := order.opened
  attached := order.attached
  blank := order.blank

theorem startTimer_ok [Instant τ] {context : Handle} {delay : Int} {task : SessionTask} {u : Unit}
    (run : startTimer context delay task s = .ok u s') :
    s' = { s with timers := (s.timers.trigger context delay task).2 } := by
  simp only [startTimer, bind_ok, read_ok, exists_both_eq, ite_ok, change_ok, throw_ok] at run
  obtain ⟨-, rfl⟩ | ⟨-, _, _, -, none⟩ := run
  · rfl
  · exact none.elim

/-! ## Buffers -/

theorem InOrder.setBuffer {b b' : Buffer} (order : InOrder batch s)
    (isOpen : s.host.buffers.get? id = some b)
    (blank : b.drawn s.layer = [] → b'.drawn s.layer = []) (events : List SessionEvent) :
    InOrder batch { s with
      host := { s.host with buffers := s.host.buffers.set id b' }
      events := events } := by
  refine ⟨order.sound, order.purpose, fun i bi isOpen' => ?_, order.attached,
    fun noRoot i bi isOpen' => ?_⟩
  · replace isOpen' : (s.host.buffers.set id b').get? i = some bi := isOpen'
    by_cases here : i = id
    · exact here ▸ order.opened id b isOpen
    · rw [Table.get?_set_ne _ here] at isOpen'
      exact order.opened i bi isOpen'
  · replace isOpen' : (s.host.buffers.set id b').get? i = some bi := isOpen'
    by_cases here : i = id
    · rw [here, Table.get?_set_self, Option.some.injEq] at isOpen'
      exact isOpen' ▸ blank (order.blank noRoot id b isOpen)
    · rw [Table.get?_set_ne _ here] at isOpen'
      exact order.blank noRoot i bi isOpen'

theorem changeBuffer_ok {f : Buffer → Buffer} {u : Unit} (run : changeBuffer id f s = .ok u s') :
    ∃ b, s.host.buffers.get? id = some b ∧
      s' = { s with host := { s.host with buffers := s.host.buffers.set id (f b) } } := by
  simp only [changeBuffer, bind_ok, read_ok, exists_both_eq, hostPart, Host.updateBuffer?] at run
  cases isOpen : s.host.buffers.get? id with
  | none => simp [isOpen] at run
  | some b =>
    simp only [isOpen, Option.map_some, change_ok] at run
    exact ⟨b, rfl, run.symm⟩

/-- A change of a buffer leaves all others as settled as they were. -/
theorem changeBuffer_settled {f : Buffer → Buffer} {u : Unit} (settled : SettledBut [] s)
    (run : changeBuffer id f s = .ok u s') : SettledBut [id] s' := by
  obtain ⟨b, -, rfl⟩ := changeBuffer_ok run
  intro enabled detected i attached
  by_cases here : i = id
  · exact .inl (here ▸ List.mem_singleton_self i)
  · refine .inr ((settled enabled detected i attached).resolve_left List.not_mem_nil |>.imp_right
      fun current bi isOpen => ?_)
    replace isOpen : (s.host.buffers.set id (f b)).get? i = some bi := isOpen
    rw [Table.get?_set_ne _ here] at isOpen
    exact current bi isOpen

theorem changeBuffer_order {f : Buffer → Buffer} {u : Unit} (order : InOrder batch s)
    (same : ∀ b, (f b).annotations = b.annotations) (run : changeBuffer id f s = .ok u s') :
    InOrder batch s' := by
  obtain ⟨b, isOpen, rfl⟩ := changeBuffer_ok run
  refine order.setBuffer isOpen (fun blank => ?_) s.events
  rw [Buffer.drawn, same]
  exact blank

/-- A change of a buffer that leaves text and annotations alone leaves it current. -/
theorem changeBuffer_kept {f : Buffer → Buffer} (text : ∀ b, (f b).text = b.text)
    (annotations : ∀ b, (f b).annotations = b.annotations) (id : Handle) :
    Preserves (Kept batch) (changeBuffer id f : SessionOperation τ Unit) := by
  intro s u s' kept run
  refine ⟨changeBuffer_order kept.order annotations run, ?_⟩
  obtain ⟨b, isOpen, rfl⟩ := changeBuffer_ok run
  intro enabled detected i attached
  refine (kept.settled enabled detected i attached).imp_right
    (Or.imp_right fun current bi here => ?_)
  replace here : (s.host.buffers.set id (f b)).get? i = some bi := here
  by_cases own : i = id
  · rw [own, Table.get?_set_self, Option.some.injEq] at here
    subst own here
    show (f b).drawn s.layer = s.annotationsOfText (f b).text
    rw [text, Buffer.drawn, annotations]
    exact current b isOpen
  · rw [Table.get?_set_ne _ own] at here
    exact current bi here

/-- Without a text, that of the file is read. -/
theorem openBuffer_file {path : String} (run : openBuffer path none s = .ok id s') :
    ∃ content, s.workspace.read (Path.parse path) = .ok content ∧
      id = .number (s.host.opened + 1) ∧
      s' = { s with host := (s.host.openBuffer path (Host.textOfFile content)).2 } := by
  simp only [openBuffer, bind_ok, get_ok, exists_both_eq] at run
  obtain ⟨opened, t, reading, _, _, set, answer⟩ := run
  cases content : s.host.openFile s.workspace path with
  | error e => rw [content] at reading; exact (throw_ok.1 reading).elim
  | ok both =>
    rw [content] at reading
    obtain ⟨rfl, rfl⟩ := pure_ok.1 reading
    obtain ⟨rfl, rfl⟩ := pure_ok.1 answer
    rw [Host.openFile] at content
    cases bytes : s.workspace.read (Path.parse path) with
    | error e => rw [bytes] at content; cases content
    | ok bytes' =>
      rw [bytes] at content
      cases content
      exact ⟨bytes', rfl, rfl, (change_ok.1 set).symm⟩

theorem openBuffer_ok {path : String} {text : Option String}
    (run : openBuffer path text s = .ok id s') :
    ∃ text, id = .number (s.host.opened + 1) ∧
      s' = { s with host := (s.host.openBuffer path text).2 } := by
  cases text with
  | some text =>
    simp only [openBuffer, bind_ok, get_ok, exists_both_eq, pure_ok, change_ok,
      exists_unit_eq] at run
    exact ⟨text, run.1.symm, run.2.symm⟩
  | none =>
    obtain ⟨content, -, number, same⟩ := openBuffer_file run
    exact ⟨_, number, same⟩

theorem Kept.openBuffer (kept : Kept batch s) (path text : String) :
    Kept batch { s with host := (s.host.openBuffer path text).2 } := by
  have lookup : ∀ i, (s.host.openBuffer path text).2.buffers.get? i =
      if i = .number (s.host.opened + 1) then some { path := path, text := text }
      else s.host.buffers.get? i := fun i => Table.get?_set ..
  have older : ∀ {i}, s.host.Issued i → i ≠ .number (s.host.opened + 1) := by
    rintro i ⟨n, le, rfl⟩ same
    have := Handle.number.inj same
    omega
  have issued : ∀ {i}, s.host.Issued i → (s.host.openBuffer path text).2.Issued i :=
    fun ⟨n, le, same⟩ => ⟨n, Nat.le_succ_of_le le, same⟩
  refine ⟨⟨kept.order.sound, kept.order.purpose, fun i b isOpen => ?_,
    fun i attached => issued (kept.order.attached i attached), fun noRoot i b isOpen => ?_⟩,
    fun enabled detected i attached => ?_⟩
  · replace isOpen := (lookup i).symm.trans isOpen
    by_cases new : i = .number (s.host.opened + 1)
    · exact ⟨s.host.opened + 1, Nat.le_refl _, new⟩
    · rw [if_neg new] at isOpen
      exact issued (kept.order.opened i b isOpen)
  · replace isOpen := (lookup i).symm.trans isOpen
    by_cases new : i = .number (s.host.opened + 1)
    · rw [if_pos new, Option.some.injEq] at isOpen
      rw [← isOpen]
      rfl
    · rw [if_neg new] at isOpen
      exact kept.order.blank noRoot i b isOpen
  · refine (kept.settled enabled detected i attached).imp_right
      (Or.imp_right fun current b here => ?_)
    replace here := (lookup i).symm.trans here
    rw [if_neg (older (kept.order.attached i attached))] at here
    exact current b here

theorem Kept.closeBuffer (kept : Kept batch s) (id : Handle) :
    Kept batch { s with host := s.host.closeBuffer id } := by
  have still : ∀ {i b}, (s.host.closeBuffer id).buffers.get? i = some b →
      s.host.buffers.get? i = some b := by
    intro i b isOpen
    rw [Host.closeBuffer, Table.get?_erase] at isOpen
    by_cases here : i = id
    · rw [if_pos here] at isOpen
      cases isOpen
    · rwa [if_neg here] at isOpen
  exact ⟨⟨kept.order.sound, kept.order.purpose,
    fun i b isOpen => kept.order.opened i b (still isOpen),
    kept.order.attached, fun noRoot i b isOpen => kept.order.blank noRoot i b (still isOpen)⟩,
    fun enabled detected i attached => (kept.settled enabled detected i attached).imp_right
      (Or.imp_right fun current b isOpen => current b (still isOpen))⟩

end Session

end MessageLens
