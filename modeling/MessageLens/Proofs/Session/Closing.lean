import MessageLens.Proofs.Session.Ownership

/-!
# Closed sessions

Closing a session detaches every buffer, forgets the watches and cancels the timers. The timers that
can still fire are those of the marked contexts, so cancelling these leaves none behind. From then
on an edit or a hold of the cursor sets no timer, since no buffer is attached, and drawing every
attached buffer draws nothing. A closed session shows something again only when it is given
something to do: a buffer to attach, to draw or to open the panel for, or settings to read.
-/

namespace MessageLens
set_option autoImplicit false

open Operation

/-- Nothing is taken off a pending list that is empty. -/
theorem Scheduler.takeDue_nil {τ α : Type} [Instant τ] {s : Scheduler τ α} (none : s.pending = []) :
    s.takeDue = ([], s) := by
  obtain ⟨now, issued, pending, cancelled, fired⟩ := s
  subst none
  unfold takeDue dueTimers
  rw [List.filter_nil, List.mergeSort_nil, List.filter_nil]

namespace Debouncer

variable {τ κ α : Type} [DecidableEq κ] {d : Debouncer τ κ α} {c : κ}

/-- Nothing is outstanding once all timers are cancelled, if every pending one marks its context. -/
theorem Tight.pending_cancelAll {batch : List (Timer τ (Job κ α))} (tight : d.Tight batch)
    (owned : ∀ t ∈ d.scheduler.pending, t.task.context.isSome = true) :
    d.cancelAll.scheduler.pending = [] := by
  apply List.eq_nil_iff_forall_not_mem.2
  intro t mem
  obtain ⟨context, own⟩ := Option.isSome_iff_exists.1 (owned t (mem_of_cancelAll mem))
  have left : t ∈ d.cancelAll.outstanding context :=
    mem_outstanding.2 ⟨mem, own, tight.cancelAll.live t mem⟩
  rw [tight.outstanding_cancelAll] at left
  cases left

end Debouncer

namespace Session

variable {τ α : Type} {s c : Session τ} {kept : Handle → Prop} {id : Handle} {step : SessionStep}

/-! ## What an inert session is -/

/-- What all namespaces of a buffer hold; a buffer that is not open holds nothing. -/
def annotationsIn (h : Host) (id : Handle) : Table String (List Annotation) :=
  ((h.buffers.get? id).map (·.annotations)).getD ∅

/-- The event changes what the editor shows, other than by closing the panel. -/
def displays : SessionEvent → Bool
  | .cleared _ | .panelOpened _ => true
  | .logged _ | .panelClosed => false

/-- Nothing is attached, outstanding or watched, and the panel is closed. -/
structure Inert (s : Session τ) : Prop where
  attached : s.attached = []
  pending : s.timers.scheduler.pending = []
  watches : s.watcher.watches = []
  panel : s.host.panel = none

/-- A session that was left in a state `c` is inert. No timer has fired and nothing has been shown
since then, and the buffers that count hold the annotations that they held. -/
structure Dormant (kept : Handle → Prop) (c s : Session τ) : Prop extends Inert s where
  fired : s.timers.scheduler.fired = c.timers.scheduler.fired
  displayed : s.events.filter displays = c.events.filter displays
  annotations : ∀ id, kept id → annotationsIn s.host id = annotationsIn c.host id

theorem Inert.dormant (inert : Inert s) : Dormant kept s s := ⟨inert, rfl, rfl, fun _ _ => rfl⟩

/-- The step gives a closed session something to do. -/
def Revives : SessionStep → Prop
  | .attach _ | .refresh | .settingsChanged | .showHover _ | .updateBuffer _ => True
  | _ => False

/-! ## Operations of an inert session -/

theorem updateAll_inert (inert : Inert s) : updateAll s = .ok () s := by
  have none : s.attached.forM updateBuffer s = .ok () s := by rw [inert.attached]; rfl
  exact bind_ok.2 ⟨s, s, rfl, none⟩

theorem poll_inert (inert : Inert s) (call : SessionCallback → Path → SessionOperation τ Unit) :
    (watchOwner call).poll s = .ok [] s := by
  have none : (watchOwner call).pollEach s.watcher.watches s = .ok [] s := by
    rw [inert.watches]; rfl
  exact bind_ok.2 ⟨s.watcher, s, rfl, none⟩

theorem runDue_inert [Instant τ] (inert : Inert s)
    (fire : Timer τ (Job Handle SessionTask) → SessionOperation τ Unit) :
    Debouncer.runDue timersPart fire s = .ok 0 s := by
  have taken := Scheduler.takeDue_nil inert.pending
  refine bind_ok.2 ⟨[], s, update_ok.2 ?_, rfl⟩
  constructor
  · exact congrArg Prod.fst taken
  · show { s with timers := { s.timers with scheduler := s.timers.scheduler.takeDue.2 } } = s
    rw [taken]

namespace Dormant

theorem emit (e : SessionEvent) (silent : displays e = false) :
    Maintains (Dormant kept c) (Session.emit e : SessionOperation τ Unit) := by
  refine Maintains.modify fun s dormant => { dormant with displayed := ?_ }
  rw [List.filter_cons_of_neg (by rw [silent]; exact Bool.false_ne_true)]
  exact dormant.displayed

theorem log (level : LogLevel) (message : String) :
    Maintains (Dormant kept c) (Session.log level message : SessionOperation τ Unit) :=
  emit _ rfl

theorem attempt {ε : Type} (cause : ε → SessionFailure) (x : Except ε α) :
    Maintains (Dormant kept c) (Session.attempt cause x : SessionOperation τ α) := by
  cases x with
  | ok a => exact Maintains.pure a
  | error e => exact Maintains.throw (cause e)

theorem project (f : ProjectState → ProjectState) :
    Maintains (Dormant kept c) (projectPart.change f : SessionOperation τ Unit) :=
  Maintains.change fun _ dormant => { dormant with }

theorem switch (on : Bool) : Maintains (Dormant kept c)
    (modify fun s => { s with enabled := on } : SessionOperation τ Unit) :=
  Maintains.modify fun _ dormant => { dormant with }

/-- What is done to the timers of an inert session fires none and sets none. -/
theorem timers {f : Debouncer τ Handle SessionTask → Debouncer τ Handle SessionTask}
    (less : ∀ d t, t ∈ (f d).scheduler.pending → t ∈ d.scheduler.pending)
    (fired : ∀ d, (f d).scheduler.fired = d.scheduler.fired) :
    Maintains (Dormant kept c) (timersPart.change f : SessionOperation τ Unit) := by
  refine Maintains.change fun s dormant =>
    { dormant with pending := ?_, fired := (fired s.timers).trans dormant.fired }
  apply List.eq_nil_iff_forall_not_mem.2
  intro t mem
  have before := less s.timers t mem
  rw [dormant.pending] at before
  cases before

theorem cancel (context : Handle) :
    Maintains (Dormant kept c) (timersPart.change (·.cancel context) : SessionOperation τ Unit) :=
  timers (fun _ _ => Debouncer.mem_of_cancel) fun _ => Debouncer.fired_cancel

theorem cancelAll :
    Maintains (Dormant kept c) (timersPart.change (·.cancelAll) : SessionOperation τ Unit) :=
  timers (fun _ _ => Debouncer.mem_of_cancelAll) fun _ => Debouncer.fired_cancelAll

theorem closePanel : Maintains (Dormant kept c) (Session.closePanel : SessionOperation τ Unit) :=
  (emit _ rfl).bind fun _ => Maintains.change fun _ dormant =>
    { dormant with panel := rfl, annotations := dormant.annotations }

theorem closeHover : Maintains (Dormant kept c) (Session.closeHover : SessionOperation τ Unit) :=
  (cancel hoverContext).bind fun _ => closePanel

theorem updateAll : Maintains (Dormant kept c) (Session.updateAll : SessionOperation τ Unit) := by
  intro s dormant
  rwa [leaves_ok (updateAll_inert dormant.toInert)]

theorem loadLocale (locale : String) :
    Maintains (Dormant kept c) (Session.loadLocale locale : SessionOperation τ Unit) := by
  refine Maintains.get_bind fun s dormant => ?_
  split
  · exact ((attempt _ _).bind fun _ =>
      (Maintains.forM (fun _ => emit _ rfl) _).bind fun _ => project _) s dormant
  · exact dormant

theorem loadAllLocales :
    Maintains (Dormant kept c) (Session.loadAllLocales : SessionOperation τ Unit) :=
  Maintains.read_bind fun s =>
    Maintains.ite (Maintains.forM loadLocale _) (Maintains.pure ()) s

theorem onMessageFileChanged (locale : String) :
    Maintains (Dormant kept c) (Session.onMessageFileChanged locale : SessionOperation τ Unit) :=
  Maintains.read_bind fun s => Maintains.ite
    ((log _ _).bind fun _ => (loadLocale locale).bind fun _ => updateAll) (Maintains.pure ()) s

theorem refuseLocale (shown : String) :
    Maintains (Dormant kept c) (Session.refuseLocale shown : SessionOperation τ Bool) :=
  Maintains.read_bind fun s => Maintains.ite ((log _ _).bind fun _ => Maintains.pure _)
    ((log _ _).bind fun _ => Maintains.pure _) s

theorem selectLocale (locale : String) :
    Maintains (Dormant kept c) (Session.selectLocale locale : SessionOperation τ Bool) := by
  have ending : Maintains (Dormant kept c) (do
      Session.updateAll
      Session.log .info ("Locale set to: " ++ locale)
      return true : SessionOperation τ Bool) :=
    updateAll.bind fun _ => (log _ _).bind fun _ => Maintains.pure _
  exact Maintains.read_bind fun s => Maintains.ite (refuseLocale _)
    ((project _).bind fun _ => Maintains.ite ((loadLocale locale).bind fun _ => ending) ending) s

theorem enable : Maintains (Dormant kept c) (Session.enable : SessionOperation τ Unit) :=
  (switch true).bind fun _ => updateAll

theorem disable : Maintains (Dormant kept c) (Session.disable : SessionOperation τ Unit) := by
  refine (switch false).bind fun _ => cancelAll.bind fun _ => ?_
  refine Maintains.get_bind fun s dormant => ?_
  rw [dormant.attached]
  exact dormant

theorem toggle : Maintains (Dormant kept c) (Session.toggle : SessionOperation τ Bool) := by
  have ending (message : String) : Maintains (Dormant kept c) (do
      Session.log .info message
      return (← get).enabled : SessionOperation τ Bool) :=
    (log _ _).bind fun _ => Maintains.get_bind fun _ dormant => dormant
  exact Maintains.get_bind fun s =>
    Maintains.ite (disable.bind fun _ => ending _) (enable.bind fun _ => ending _) s

theorem detach (id : Handle) :
    Maintains (Dormant kept c) (Session.detach id : SessionOperation τ Unit) := by
  refine Maintains.bind (Maintains.modify fun s dormant =>
    { dormant with attached := ?_ }) fun _ => cancel id
  rw [dormant.attached]
  rfl

theorem close : Maintains (Dormant kept c) (Session.close : SessionOperation τ Unit) :=
  cancelAll.bind fun _ => (Maintains.change fun _ dormant => { dormant with watches := rfl }).bind
    fun _ => closePanel.bind fun _ => Maintains.modify fun _ dormant =>
      { dormant with attached := rfl }

theorem changeFiles (change : FileChange) :
    Maintains (Dormant kept c) (Session.changeFiles change : SessionOperation τ Unit) := by
  refine Maintains.get_bind fun s => ((attempt _ _).bind fun _ => ?_) s
  exact Maintains.modify fun _ dormant => { dormant with }

/-- A change of what a buffer holds besides its annotations. -/
theorem changeBuffer {f : Buffer → Buffer} (same : ∀ b, (f b).annotations = b.annotations)
    (id : Handle) :
    Maintains (Dormant kept c) (Session.changeBuffer id f : SessionOperation τ Unit) := by
  intro s dormant
  rw [leaves]
  cases run : Session.changeBuffer id f s with
  | error e s' => rwa [changeBuffer_error run]
  | ok u s' =>
    obtain ⟨b, isOpen, rfl⟩ := changeBuffer_ok run
    refine { dormant with panel := dormant.panel, annotations := fun i counts => ?_ }
    rw [← dormant.annotations i counts]
    by_cases here : i = id
    · rw [here, annotationsIn, annotationsIn, Table.get?_set_self, isOpen, Option.map_some, same]
      rfl
    · rw [annotationsIn, annotationsIn, Table.get?_set_ne _ here]

theorem closeBuffer (uncounted : ¬ kept id) :
    Maintains (Dormant kept c) (hostPart.change (·.closeBuffer id) : SessionOperation τ Unit) := by
  refine Maintains.change fun s dormant =>
    { dormant with panel := dormant.panel, annotations := fun i counts => ?_ }
  have other : i ≠ id := fun same => uncounted (same ▸ counts)
  rw [← dormant.annotations i counts]
  show ((s.host.buffers.erase id).get? i |>.map _).getD ∅ = _
  rw [Table.get?_erase, if_neg other]
  rfl

theorem openBuffer (dormant : Dormant kept c s) (owned : Owned s) (path : String)
    (text : Option String) : Dormant kept c (leaves (Session.openBuffer path text) s) := by
  rw [leaves]
  cases run : Session.openBuffer path text s with
  | error e s' => rwa [openBuffer_error run]
  | ok i s' =>
    obtain ⟨text, -, rfl⟩ := openBuffer_ok run
    refine { dormant with panel := dormant.panel, annotations := fun id counts => ?_ }
    rw [← dormant.annotations id counts]
    show ((s.host.buffers.set (.number (s.host.opened + 1)) _).get? id |>.map _).getD ∅ = _
    by_cases new : id = .number (s.host.opened + 1)
    · rw [new, annotationsIn, Table.get?_set_self, owned.next_free.2.1]
      rfl
    · rw [Table.get?_set_ne _ new]
      rfl

variable [Instant τ]

/-- A step that gives an inert session nothing to do leaves it inert. -/
theorem perform (dormant : Dormant kept c s) (owned : Owned s) (quiet : ¬ Revives step)
    (stays : ∀ id, kept id → step ≠ .closeBuffer id) :
    Dormant kept c (leaves (Session.perform step) s) := by
  have answer {α : Type} {x : SessionOperation τ α} {f : α → SessionAnswer}
      (maintains : Maintains (Dormant kept c) x) :
      Dormant kept c (leaves (x >>= fun a => pure (f a)) s) :=
    maintains.bind (fun _ => Maintains.pure _) s dormant
  have unattached (id : Handle) : id ∉ s.attached := by
    rw [dormant.attached]
    exact List.not_mem_nil
  cases step with
  | attach | refresh | settingsChanged | showHover | updateBuffer => exact absurd trivial quiet
  | openBuffer path text =>
    unfold Session.perform
    rw [leaves_answer]
    exact dormant.openBuffer owned path text
  | closeBuffer id =>
    have uncounted : ¬ kept id := fun counts => stays id counts rfl
    exact answer (closeBuffer uncounted)
  | setText id text => exact answer (changeBuffer (fun _ => by rfl) id)
  | setCursor id line column => exact answer (changeBuffer (fun _ => by rfl) id)
  | detach id => exact answer (detach id)
  | textChanged id =>
    have ignored : Session.onTextChanged id s = .ok () s :=
      bind_ok.2 ⟨s, s, rfl, congrFun (if_neg (unattached id)) s⟩
    unfold Session.perform
    rwa [leaves_answer, leaves_ok ignored]
  | closeHover => exact answer closeHover
  | cursorHold id =>
    have off : ¬ (s.options.hover.enabled && s.enabled && id ∈ s.attached) = true := by
      simp [unattached id]
    have ignored : Session.onCursorHold id s = .ok () s :=
      bind_ok.2 ⟨s, s, rfl, congrFun (if_neg off) s⟩
    unfold Session.perform
    rwa [leaves_answer, leaves_ok ignored]
  | cursorMoved id => exact answer closeHover
  | updateAll => exact answer updateAll
  | enable => exact answer enable
  | disable => exact answer disable
  | toggle => exact answer toggle
  | selectLocale locale => exact answer (selectLocale locale)
  | loadAllLocales => exact answer loadAllLocales
  | messageFileChanged locale => exact answer (onMessageFileChanged locale)
  | close => exact answer close
  | advance ms => exact answer (timers (fun _ _ => fun mem => mem) fun _ => rfl)
  | runDue =>
    have idle : Session.perform .runDue s = .ok (.count 0) s :=
      bind_ok.2 ⟨0, s, runDue_inert dormant.toInert _, rfl⟩
    rwa [leaves_ok idle]
  | poll =>
    have idle : Session.perform .poll s = .ok (.paths []) s :=
      bind_ok.2 ⟨[], s, poll_inert dormant.toInert _, rfl⟩
    rwa [leaves_ok idle]
  | change change => exact answer (changeFiles change)

theorem runSteps {steps : List SessionStep} (dormant : Dormant kept c s) (owned : Owned s)
    (quiet : ∀ step ∈ steps, ¬ Revives step)
    (stays : ∀ id, kept id → SessionStep.closeBuffer id ∉ steps) :
    Dormant kept c (runSteps s steps) := by
  induction steps generalizing s with
  | nil => exact dormant
  | cons step rest ih =>
    rw [List.forall_mem_cons] at quiet
    have apart : ∀ id, kept id → step ≠ .closeBuffer id ∧ SessionStep.closeBuffer id ∉ rest := by
      intro id counts
      obtain ⟨here, later⟩ := not_or.1 (fun mem => stays id counts (List.mem_cons.2 mem))
      exact ⟨Ne.symm here, later⟩
    rw [runSteps_cons]
    exact ih (dormant.perform owned quiet.1 fun id counts => (apart id counts).1)
      (owned.perform step) quiet.2 fun id counts => (apart id counts).2

end Dormant

/-! ## Closing -/

variable [Instant τ]

/-- Closing a session whose timers belong to contexts makes it inert. -/
theorem close_inert (owned : Owned s) : ∃ c, close s = .ok () c ∧ Inert c ∧ Owned c := by
  have closed : perform .close s = .ok .nothing _ := rfl
  have after := owned.perform .close
  rw [leaves_ok closed] at after
  refine ⟨_, rfl, ⟨rfl, ?_, rfl, rfl⟩, after⟩
  refine owned.ticking.tight.pending_cancelAll fun t mem => ?_
  rcases owned.ticking.purpose t (List.mem_append_left _ mem) with ⟨i, task⟩ | ⟨i, task⟩
  · rw [task]; rfl
  · rw [task]; rfl

/-- What is so in a state `s` that steps have led to from the closing of a session in `c`. -/
structure Silent (steps : List SessionStep) (c s : Session τ) : Prop where
  /-- No timer is due, whatever timers do when they fire. -/
  timers : ∀ fire : Timer τ (Job Handle SessionTask) → SessionOperation τ Unit,
    Debouncer.runDue timersPart fire s = .ok 0 s
  /-- No watched file has changed, whatever callbacks do when they are called. -/
  watches : ∀ call, (watchOwner call).poll s = .ok [] s
  fired : s.timers.scheduler.fired = c.timers.scheduler.fired
  panel : s.host.panel = none
  displayed : s.events.filter displays = c.events.filter displays
  annotations : ∀ id, SessionStep.closeBuffer id ∉ steps →
    annotationsIn s.host id = annotationsIn c.host id

/-- Whatever a session has been through, closing it succeeds, and it is silent from then on until
it is given something to do: no timer fires, no callback of a watch is called, no panel opens, and
all buffers hold the annotations that they held, in every namespace. -/
theorem close_silences {s₀ : Session τ} (unused : Unused s₀) (before : List SessionStep) :
    ∃ c, perform .close (runSteps s₀ before) = .ok .nothing c ∧
      ∀ after, (∀ step ∈ after, ¬ Revives step) → Silent after c (runSteps c after) := by
  have owned : Owned (runSteps s₀ before) := (Attained.start.runSteps before).owned unused
  obtain ⟨c, closed, inert, left⟩ := close_inert owned
  refine ⟨c, bind_ok.2 ⟨(), c, closed, rfl⟩, fun after quiet => ?_⟩
  have dormant : Dormant (fun id => SessionStep.closeBuffer id ∉ after) c (runSteps c after) :=
    inert.dormant.runSteps left quiet fun _ unclosed => unclosed
  exact ⟨runDue_inert dormant.toInert, poll_inert dormant.toInert, dormant.fired, dormant.panel,
    dormant.displayed, dormant.annotations⟩

/-- A buffer of a project is edited, and the cursor rests in it. -/
def editedAndHeld : List SessionStep :=
  [.openBuffer "/p/a.ts" (some "m.k()"), .attach (.number 1), .textChanged (.number 1),
    .cursorHold (.number 1)]

/-- The user goes on, the settings file changes, and time passes. -/
def goingOn : List SessionStep :=
  [.setText (.number 1) "m.k() m.l()", .textChanged (.number 1), .setCursor (.number 1) 0 3,
    .cursorHold (.number 1), .messageFileChanged "en", writeSettings [] (some 7), .advance 1000,
    .runDue, .poll, .cursorMoved (.number 1)]

theorem close_silences_edited : Unused (onDisk nestedProject) ∧
    (runSteps (onDisk nestedProject) editedAndHeld).timers.scheduler.pending.length = 2 ∧
    (runSteps (onDisk nestedProject) editedAndHeld).watcher.watches.length = 1 ∧
    (∀ step ∈ goingOn, ¬ Revives step) ∧
    ∃ c, perform .close (runSteps (onDisk nestedProject) editedAndHeld) = .ok .nothing c ∧
      Silent goingOn c (runSteps c goingOn) := by
  have unused := (onDisk_isNew nestedProject).unused
  have quiet : ∀ step ∈ goingOn, ¬ Revives step := by simp [goingOn, writeSettings, Revives]
  obtain ⟨c, closed, silent⟩ := close_silences unused editedAndHeld
  exact ⟨unused, by decide +kernel, by decide +kernel, quiet, c, closed, silent goingOn quiet⟩

end Session

end MessageLens
