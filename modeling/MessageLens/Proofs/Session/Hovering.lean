import MessageLens.Proofs.Session.Attachment
import MessageLens.Proofs.Session.Bursts

/-!
# When the panel opens by itself

The cursor holds in a buffer, and after a delay the panel opens. There is one timer for this, which
the holds of all buffers share, and detaching a buffer takes only the timer of its edits. So a hold
stands until another one replaces it, the cursor moves, previews are switched off, or what is due is
run, and the panel then opens for its buffer whether or not that buffer is still attached.
-/

namespace MessageLens.Session
set_option autoImplicit false

open Operation

variable {τ : Type} {s s' r r' : Session τ} {id i : Handle} {b : Buffer} {n : Nat}
  {t : Timer τ (Job Handle SessionTask)} {rest : List (Timer τ (Job Handle SessionTask))}

/-! ## What a timer does to the panel -/

/-- How often the panel has been opened for a buffer. -/
def openings (s : Session τ) (id : Handle) : Nat := s.events.count (.panelOpened id)

/-- Whether the panel opens for a buffer when the timer of the panel fires: previews are on, there
are settings, and a reference is at the cursor of the buffer. -/
def hasPanel (s : Session τ) (id : Handle) : Bool :=
  s.enabled && s.project.settings.isSome && (s.host.buffers.get? id).any fun b =>
    (keyAt? s.options.receiver b.text b.cursor.1 b.cursor.2).isSome

/-- What the timers of a session do to the panel, as far as a buffer is concerned. -/
def panelSide (id : Handle) (s : Session τ) : Nat × Bool := (s.openings id, s.hasPanel id)

theorem updateBuffer_keeps_panelSide (i : Handle) :
    Keeps (panelSide id) (updateBuffer i : SessionOperation τ Unit) := by
  intro s
  cases drawing : s.enabled && s.host.isValid i with
  | false => rw [leaves_ok (updateBuffer_idle drawing)]
  | true =>
    rw [Bool.and_eq_true] at drawing
    obtain ⟨b, isOpen⟩ := Table.contains_iff.1 drawing.2
    have keys : (s.host.buffers.set i (s.redrawn b)).get? id = (s.host.buffers.get? id).map
        fun b => if id = i then s.redrawn b else b := by
      by_cases here : id = i
      · subst here
        rw [Table.get?_set_self, isOpen, Option.map_some, if_pos rfl]
      · simp only [Table.get?_set_ne _ here, if_neg here, Option.map_id']
    rw [leaves_ok (updateBuffer_open drawing.1 isOpen), panelSide, panelSide, openings, openings,
      List.count_cons_of_ne (by simp), hasPanel, hasPanel]
    simp only [keys, Option.any_map]
    congr 3
    funext b
    by_cases here : id = i
    · simp [here, redrawn]
    · simp [here]

theorem keyAtCursor_open (isOpen : s.host.buffers.get? i = some b) :
    keyAtCursor i s = .ok (keyAt? s.options.receiver b.text b.cursor.1 b.cursor.2) s := by
  have found : buffer i s = .ok b s := buffer_ok.2 ⟨isOpen, rfl⟩
  exact bind_ok.2 ⟨b, s, found, bind_ok.2 ⟨b, s, found, rfl⟩⟩

/-- The panel opens for the key at the cursor of a buffer. -/
theorem showHover_opens {key : String} (isOpen : s.host.buffers.get? i = some b)
    (found : keyAt? s.options.receiver b.text b.cursor.1 b.cursor.2 = some key)
    (usable : s.project.settings.isSome = true) : showHover i s = .ok true
      { s with
        host := s.host.closePanel.openPanel i (s.panelFor key)
        events := .panelOpened i :: .panelClosed :: s.events } := by
  obtain ⟨settings, usable⟩ := Option.isSome_iff_exists.1 usable
  refine bind_ok.2 ⟨some key, s, found ▸ keyAtCursor_open isOpen, ?_⟩
  refine bind_ok.2 ⟨s.project, s, rfl, ?_⟩
  rw [usable]
  rfl

/-- The timer of the panel opens it for the buffer that it has been set for. -/
theorem fire_hover_opens (shown : s.hasPanel i = true) : ∃ panel, fire (.hover i) s = .ok ()
    { s with
      host := s.host.closePanel.openPanel i panel
      events := .panelOpened i :: .panelClosed :: s.events } := by
  simp only [hasPanel, Bool.and_eq_true] at shown
  obtain ⟨⟨enabled, usable⟩, keyed⟩ := shown
  obtain ⟨b, isOpen, keyed⟩ := (Option.any_eq_true _ _).1 keyed
  obtain ⟨key, found⟩ := Option.isSome_iff_exists.1 keyed
  have valid : s.host.isValid i = true := Table.contains_iff.2 ⟨b, isOpen⟩
  have live : (s.enabled && s.host.isValid i) = true := by rw [enabled, valid]; rfl
  refine ⟨s.panelFor key, ?_⟩
  simp only [fire, bind_ok, get_ok, exists_both_eq]
  rw [if_pos live]
  exact discard_ok.2 ⟨true, showHover_opens isOpen found usable⟩

/-- Otherwise it does nothing. -/
theorem fire_hover_idle (unshown : s.hasPanel i = false) : fire (.hover i) s = .ok () s := by
  simp only [fire, bind_ok, get_ok, exists_both_eq]
  cases live : s.enabled && s.host.isValid i with
  | false => rfl
  | true =>
    rw [if_pos rfl]
    obtain ⟨enabled, valid⟩ := Bool.and_eq_true_iff.1 live
    obtain ⟨b, isOpen⟩ := Table.contains_iff.1 valid
    rw [hasPanel, enabled, isOpen, Option.any_some, Bool.true_and] at unshown
    refine discard_ok.2 ⟨false, bind_ok.2 ⟨_, s, keyAtCursor_open isOpen, ?_⟩⟩
    refine bind_ok.2 ⟨s.project, s, rfl, ?_⟩
    cases found : keyAt? s.options.receiver b.text b.cursor.1 b.cursor.2 with
    | none => rfl
    | some key =>
      cases usable : s.project.settings with
      | none => rfl
      | some settings =>
        rw [usable, found] at unshown
        cases unshown

/-- A timer opens the panel for a buffer if it is set for that. -/
theorem fire_panelSide (task : SessionTask) (s : Session τ) :
    panelSide id (leaves (fire task) s) =
      (s.openings id + if task = .hover id ∧ s.hasPanel id = true then 1 else 0,
        s.hasPanel id) := by
  cases task with
  | update i =>
    rw [if_neg (fun both => SessionTask.noConfusion both.1)]
    exact Keeps.get.bind (fun _ => Keeps.ite (updateBuffer_keeps_panelSide i) (Keeps.pure ())) s
  | hover i =>
    cases shown : s.hasPanel i with
    | false =>
      rw [leaves_ok (fire_hover_idle shown), if_neg, Nat.add_zero]
      · rfl
      · rintro ⟨same, shown'⟩
        rw [SessionTask.hover.inj same, shown'] at shown
        cases shown
    | true =>
      obtain ⟨panel, run⟩ := fire_hover_opens shown
      rw [leaves_ok run]
      by_cases own : i = id
      · subst own
        rw [if_pos ⟨rfl, shown⟩]
        exact congrArg (Prod.mk · _) (by simp [openings])
      · rw [if_neg fun both => own (SessionTask.hover.inj both.1)]
        exact congrArg (Prod.mk · _) (by simp [openings, own])

/-! ## What a run of what is due does to the panel -/

section Clock

variable [Instant τ]

/-- The timer is due and set to open the panel for a buffer. -/
def Hovers (id : Handle) (s : Session τ) (t : Timer τ (Job Handle SessionTask)) : Prop :=
  s.timers.scheduler.isDue t = true ∧ t.task.task = .hover id

instance : Decidable (Hovers id s t) := inferInstanceAs (Decidable (_ ∧ _))

/-- What is due in a state `s` is being done, and `rest` is left of it; the panel has been opened
for a buffer as often as it should be until then. -/
structure Opening (id : Handle) (s : Session τ) (rest : List (Timer τ (Job Handle SessionTask)))
    (r : Session τ) : Prop where
  draining : Draining s rest r
  shown : r.hasPanel id = s.hasPanel id
  openings : r.openings id + (if s.hasPanel id then rest.countP (·.task.task = .hover id) else 0) =
    s.openings id +
      if s.hasPanel id then s.timers.scheduler.takeDue.1.countP (·.task.task = .hover id) else 0

theorem Opening.fire (opening : Opening id s (t :: rest) r)
    (fired : Session.fire t.task.task (r.released t) = .ok () r') : Opening id s rest r' := by
  have side : panelSide id (leaves _ _) = _ := fire_panelSide t.task.task (r.released t)
  rw [leaves_ok fired] at side
  obtain ⟨openings, shown⟩ := Prod.mk.inj side
  have shownBefore : (r.released t).hasPanel id = s.hasPanel id := opening.shown
  refine ⟨opening.draining.fire fired, shown.trans shownBefore, ?_⟩
  have before := opening.openings
  rw [openings, shownBefore, ← before, List.countP_cons]
  show r.openings id + _ + _ = _
  cases s.hasPanel id <;> simp
  omega

/-- The timers that a run takes and that are set to open the panel for a buffer are among those of
the panel. -/
theorem countP_hovers (ticking : Ticking [] s) :
    s.timers.scheduler.takeDue.1.countP (·.task.task = .hover id) =
      ((s.timers.outstanding hoverContext).filter (Hovers id s)).length := by
  have perm : s.timers.scheduler.takeDue.1.Perm
      (s.timers.scheduler.pending.filter s.timers.scheduler.isDue) := List.mergeSort_perm _ _
  rw [perm.countP_eq, List.countP_eq_length_filter, List.filter_filter,
    ticking.tight.outstanding_eq, List.filter_filter]
  refine congrArg List.length (List.filter_congr fun t mem => ?_)
  rw [Bool.eq_iff_iff]
  simp only [Bool.and_eq_true, decide_eq_true_eq]
  constructor
  · rintro ⟨own, due⟩
    obtain ⟨i, update⟩ | ⟨i, hover⟩ := ticking.purpose t (List.mem_append_left _ mem)
    · rw [update] at own
      cases own
    · exact ⟨⟨due, own⟩, by rw [hover]⟩
  · rintro ⟨⟨due, own⟩, -⟩
    exact ⟨own, due⟩

/-- A run of what is due opens the panel for a buffer once if the timer of the panel is due and set
for the buffer. -/
theorem runDue_openings (ticking : Ticking [] s) (run : runDue s = .ok n s') :
    s'.openings id = s.openings id +
      if s.hasPanel id then ((s.timers.outstanding hoverContext).filter (Hovers id s)).length
      else 0 := by
  have opening : Opening id s [] s' := runDue_preserves
    (fun _ _ _ before inactive => (before.draining.not_skipped inactive).elim)
    (fun _ _ _ _ before _ fired => before.fire fired) ⟨.start ticking, rfl, rfl⟩ run
  have total := opening.openings
  rw [List.countP_nil, ite_self, Nat.add_zero, countP_hovers ticking] at total
  exact total

/-! ## Holds of the cursor -/

/-- When the panel opens if the cursor rests from now on. -/
def hoverTime (s : Session τ) : τ :=
  Instant.shift s.timers.scheduler.now (max s.options.hover.delayMs 0)

/-- A hold of the cursor in a buffer would be noted. -/
structure NotesHold (id : Handle) (s : Session τ) : Prop where
  asked : s.options.hover.enabled = true
  enabled : s.enabled = true
  attached : id ∈ s.attached

/-- The step is a hold in a buffer that makes the panel open at a moment. -/
structure Starts (id : Handle) (moment : τ) (s : Session τ) (step : SessionStep) : Prop where
  hold : step = .cursorHold id
  noted : NotesHold id s
  accepted : s.timers.scheduler.accepts s.options.hover.delayMs = true
  moment : moment = s.hoverTime

/-- The step is a hold. -/
def IsHold : SessionStep → Prop
  | .cursorHold _ => True
  | _ => False

theorem Starts.isHold {due : τ} {step : SessionStep} (starts : Starts id due s step) :
    IsHold step := by
  rw [starts.hold]
  trivial

/-- The step takes a hold back that makes the panel open at a moment. -/
def Withdraws (moment : τ) (s : Session τ) : SessionStep → Prop
  | .closeHover | .cursorMoved _ | .disable | .close => True
  | .toggle => s.enabled = true
  | .cursorHold id => NotesHold id s
  | .detach id => id = hoverContext
  | .runDue => Reached moment s
  | _ => False

/-- The cursor has been held in a buffer, so that the panel opens at a moment, and the hold has not
been taken back since. -/
def Held (id : Handle) (moment : τ) : Session τ → List SessionStep → Prop :=
  Began (Starts id moment) (Withdraws moment)

/-- The timer of the panel is set for a buffer and a moment. -/
def Waits (id : Handle) (moment : τ) (s : Session τ) : Prop :=
  ∃ t ∈ s.timers.outstanding hoverContext, t.task.task = .hover id ∧ t.due = moment

variable {moment : τ} {step : SessionStep} {steps : List SessionStep}

/-! ### The timer of the panel is that of the latest hold -/

theorem startTimer_timers (c : Handle) (delay : Int) (task : SessionTask) (s : Session τ) :
    (leaves (startTimer c delay task) s).timers =
      if s.timers.scheduler.accepts delay = true then (s.timers.trigger c delay task).2
      else s.timers.cancel c := by
  by_cases accepted : s.timers.scheduler.accepts delay = true
  · have run : startTimer c delay task s =
        .ok () { s with timers := (s.timers.trigger c delay task).2 } :=
      bind_ok.2 ⟨s.timers, s, rfl, congrFun (if_pos accepted) s⟩
    rw [leaves_ok run, if_pos accepted]
  · have run : startTimer c delay task s =
        .error .delayTooLong { s with timers := s.timers.cancel c } :=
      bind_error.2 (.inr ⟨s.timers, s, rfl, congrFun (if_neg accepted) s⟩)
    rw [leaves_error run, if_neg accepted]

omit [Instant τ] in
theorem waits_of_timers (same : s'.timers.outstanding hoverContext =
    s.timers.outstanding hoverContext) : Waits id moment s' ↔ Waits id moment s := by
  rw [Waits, Waits, same]

omit [Instant τ] in
theorem not_waits (none' : s.timers.outstanding hoverContext = []) : ¬ Waits id moment s := by
  rintro ⟨t, mem, -⟩
  rw [none'] at mem
  cases mem

omit [Instant τ] in
theorem disable_timers (s : Session τ) : (leaves disable s).timers = s.timers.cancelAll := by
  have clears (id : Handle) : Keeps Session.timers (clearBuffer id : SessionOperation τ Unit) :=
    Keeps.bind (Keeps.modify fun _ => rfl) fun _ => Keeps.get.bind fun _ => fun _ => rfl
  exact clearAll_keeps clears { s with enabled := false, timers := s.timers.cancelAll }

/-- A hold that is noted sets the timer of the panel, or leaves none if its delay is too long. -/
theorem cursorHold_waits (ticking : Ticking [] s) (noted : NotesHold i s) :
    Waits id moment (leaves (perform (.cursorHold i)) s) ↔
      Starts id moment s (.cursorHold i) := by
  have asked : (s.options.hover.enabled && s.enabled && decide (i ∈ s.attached)) = true := by
    rw [noted.asked, noted.enabled, decide_eq_true noted.attached]
    rfl
  have set : (leaves (perform (.cursorHold i)) s).timers =
      if s.timers.scheduler.accepts s.options.hover.delayMs = true
      then (s.timers.trigger hoverContext s.options.hover.delayMs (.hover i)).2
      else s.timers.cancel hoverContext := by
    rw [perform, leaves_answer, ← startTimer_timers]
    show (leaves (if (s.options.hover.enabled && s.enabled && decide (i ∈ s.attached)) = true
      then startTimer hoverContext s.options.hover.delayMs (.hover i) else pure ()) s).timers = _
    rw [leaves_ite, if_pos asked]
  by_cases accepted : s.timers.scheduler.accepts s.options.hover.delayMs = true
  · rw [if_pos accepted] at set
    rw [Waits, set, ticking.tight.outstanding_trigger_eq ticking.sound]
    constructor
    · rintro ⟨t, mem, own, due⟩
      obtain rfl := List.mem_singleton.1 mem
      obtain rfl := SessionTask.hover.inj own
      exact ⟨rfl, noted, accepted, due.symm⟩
    · rintro ⟨hold, -, -, rfl⟩
      obtain rfl := SessionStep.cursorHold.inj hold
      exact ⟨_, List.mem_singleton_self _, rfl, rfl⟩
  · rw [if_neg accepted] at set
    refine iff_of_false (not_waits ?_) fun starts => accepted starts.accepted
    rw [set, ticking.tight.outstanding_cancel_self]

/-- A run of what is due takes the timer of the panel when its moment has come. -/
theorem runDue_waits (ticking : Ticking [] s) :
    Waits id moment (leaves (perform .runDue) s) ↔ Waits id moment s ∧ ¬ Reached moment s := by
  obtain ⟨n, s', run⟩ := runDue_ok s
  have performed : perform .runDue s = .ok (.count n) s' := bind_ok.2 ⟨n, s', run, rfl⟩
  rw [leaves_ok performed, Waits, (runDue_draining ticking run).outstanding ticking hoverContext]
  simp only [List.mem_filter, Bool.not_eq_true']
  constructor
  · rintro ⟨t, ⟨mem, early⟩, own, rfl⟩
    exact ⟨⟨t, mem, own, rfl⟩, Bool.eq_false_iff.1 early⟩
  · rintro ⟨⟨t, mem, own, rfl⟩, early⟩
    exact ⟨t, ⟨mem, Bool.eq_false_iff.2 early⟩, own, rfl⟩

/-- The timer of the panel waits after a step if the step is a hold that sets it, or if it waited
before and the step does not take that back. -/
theorem perform_waits (ticking : Ticking [] s) (free : hoverContext ∉ s.attached)
    (step : SessionStep) : Waits id moment (leaves (perform step) s) ↔
      Starts id moment s step ∨ Waits id moment s ∧ ¬ Withdraws moment s step := by
  have outstanding {step : SessionStep} {s' : Session τ} (other : ¬ IsHold step)
      (stands : ¬ Withdraws moment s step)
      (same : s'.timers.outstanding hoverContext = s.timers.outstanding hoverContext) :
      Waits id moment s' ↔
        Starts id moment s step ∨ Waits id moment s ∧ ¬ Withdraws moment s step := by
    rw [waits_of_timers same]
    exact ⟨fun waits => .inr ⟨waits, stands⟩,
      fun either => (either.resolve_left fun starts => other starts.isHold).1⟩
  have kept {step : SessionStep} {s' : Session τ} (same : s'.timers = s.timers)
      (other : ¬ IsHold step := by exact not_false)
      (stands : ¬ Withdraws moment s step := by exact not_false) :=
    outstanding other stands (congrArg (Debouncer.outstanding · hoverContext) same)
  have gone {step : SessionStep} {s' : Session τ} (other : ¬ IsHold step)
      (withdraws : Withdraws moment s step) (none' : s'.timers.outstanding hoverContext = []) :
      Waits id moment s' ↔
        Starts id moment s step ∨ Waits id moment s ∧ ¬ Withdraws moment s step :=
    iff_of_false (not_waits none') fun either =>
      either.elim (fun starts => other starts.isHold) fun both => both.2 withdraws
  have answers {α : Type} {x : SessionOperation τ α} {f : α → SessionAnswer}
      (keeps : Keeps standing x) :
      (leaves (x >>= fun a => pure (f a) : SessionOperation τ SessionAnswer) s).timers =
        s.timers := by
    rw [leaves_answer]
    exact congrArg Prod.fst (keeps s)
  cases step with
  | openBuffer path text => exact kept (answers (openBuffer_keeps_standing path text))
  | closeBuffer i => exact kept rfl
  | setText i text => exact kept (answers (changeBuffer_keeps_standing i _))
  | setCursor i line column => exact kept (answers (changeBuffer_keeps_standing i _))
  | attach i =>
    exact kept (answers (standing_undisturbed.attach i (Keeps.modify fun _ => rfl)))
  | detach i =>
    by_cases panel : i = hoverContext
    · subst panel
      exact gone not_false rfl ticking.tight.outstanding_cancel_self
    · exact outstanding not_false panel
        (ticking.tight.outstanding_cancel ticking.sound (Ne.symm panel))
  | textChanged i =>
    refine outstanding not_false not_false ?_
    rw [perform, leaves_answer]
    show (leaves (if i ∈ s.attached then _ else _) s).timers.outstanding hoverContext = _
    rw [leaves_ite]
    split
    -- the buffer is attached and what the panel waits under is not, so they are told apart
    · have apart : hoverContext ≠ i := fun same => free (same ▸ ‹i ∈ s.attached›)
      rw [startTimer_timers]
      split
      · exact ticking.tight.outstanding_trigger ticking.sound apart
      · exact ticking.tight.outstanding_cancel ticking.sound apart
    · rfl
  | showHover i => exact kept (answers (standing_of_previews (showHover_keeps_previews i)))
  | closeHover =>
    exact gone not_false trivial ticking.tight.outstanding_cancel_self
  | cursorHold i =>
    by_cases noted : NotesHold i s
    · rw [cursorHold_waits ticking noted]
      exact ⟨.inl, fun either => either.elim (fun starts => starts) fun both => absurd noted both.2⟩
    · have idle : leaves (perform (.cursorHold i)) s = s := by
        rw [perform, leaves_answer]
        refine congrArg (leaves · s) (if_neg fun asked => noted ?_)
        simp only [Bool.and_eq_true, decide_eq_true_eq] at asked
        exact ⟨asked.1.1, asked.1.2, asked.2⟩
      rw [idle]
      refine ⟨fun waits => .inr ⟨waits, noted⟩, fun either => (either.resolve_left ?_).1⟩
      rintro ⟨hold, noted', -, -⟩
      obtain rfl := SessionStep.cursorHold.inj hold
      exact noted noted'
  | cursorMoved i =>
    exact gone not_false trivial ticking.tight.outstanding_cancel_self
  | updateBuffer i => exact kept (answers (updateBuffer_keeps_standing i))
  | updateAll => exact kept (answers standing_undisturbed.updateAll)
  | enable => exact kept (answers enable_keeps_standing)
  | disable =>
    refine gone not_false trivial ?_
    rw [perform, leaves_answer, disable_timers]
    exact ticking.tight.outstanding_cancelAll
  | toggle =>
    cases on : s.enabled with
    | true =>
      have left : (leaves toggle s).timers = (leaves disable s).timers :=
        toggle_disables (fun _ => Keeps.modify fun _ => rfl) on
      refine gone not_false on ?_
      rw [perform, leaves_answer, left, disable_timers]
      exact ticking.tight.outstanding_cancelAll
    | false =>
      have left : (leaves toggle s).timers = (leaves enable s).timers :=
        toggle_enables (fun _ => Keeps.modify fun _ => rfl) on
      refine kept ?_ not_false (fun on' => Bool.eq_false_iff.1 on on')
      rw [perform, leaves_answer, left]
      exact congrArg Prod.fst (enable_keeps_standing s)
  | refresh => exact kept (answers standing_undisturbed.refresh)
  | selectLocale locale => exact kept (answers (standing_undisturbed.selectLocale locale))
  | loadAllLocales => exact kept (answers (standing_of_editor loadAllLocales_keeps_editor))
  | messageFileChanged locale =>
    exact kept (answers (standing_undisturbed.onMessageFileChanged locale))
  | settingsChanged => exact kept (answers standing_undisturbed.onSettingsChanged)
  | close =>
    exact gone not_false trivial ticking.tight.outstanding_cancelAll
  | advance ms => exact outstanding not_false not_false rfl
  | runDue =>
    rw [runDue_waits ticking]
    exact ⟨.inr, fun either => either.resolve_left fun starts => starts.isHold⟩
  | poll => exact kept (answers standing_undisturbed.poll)
  | change c => exact kept (answers (standing_of_previews (changeFiles_keeps_previews c)))

/-! ## The panel in the course of a run -/

theorem hover_not_attached (ticking : Ticking [] s) (free : hoverContext ∉ s.attached)
    (step : SessionStep) : hoverContext ∉ (leaves (perform step) s).attached := by
  intro after
  obtain before | ⟨-, valid⟩ := attached_before after
  · exact free before
  · rw [ticking.closed] at valid
    cases valid

theorem stays_attached (attached : id ∈ s.attached) (stands : Lasts (Withdraws moment) s steps)
    (kept : .detach id ∉ steps) : id ∈ (runSteps s steps).attached := by
  induction steps generalizing s with
  | nil => exact attached
  | cons step rest ih =>
    rw [List.mem_cons, not_or] at kept
    obtain ⟨now, later⟩ := lasts_cons.1 stands
    rw [runSteps_cons]
    refine ih (attached_stays attached ⟨Ne.symm kept.1, ?_⟩) later kept.2
    rintro rfl
    exact now trivial

/-- A buffer that a hold stands for is attached, unless it has been detached since. -/
theorem Held.attached (held : Held id moment s steps) : id ∈ (runSteps s steps).attached ∨
    ∃ before after, steps = before ++ .cursorHold id :: after ∧ .detach id ∈ after := by
  obtain ⟨before, _, after, rfl, ⟨rfl, noted, -, -⟩, stands⟩ := held
  -- closing the session also ends an attachment, but it withdraws the hold
  by_cases detached : .detach id ∈ after
  · exact .inr ⟨before, after, rfl, detached⟩
  · rw [runSteps_append, runSteps_cons]
    refine .inl (stays_attached ?_ stands detached)
    exact attached_stays noted.attached ⟨nofun, nofun⟩

/-- What is due opens the panel for a buffer at most once, and it does so exactly if there is a
panel to open and the timer of the panel is set for the buffer and due. -/
theorem runDue_opens (ticking : Ticking [] s) (run : runDue s = .ok n s') :
    s'.openings id ≤ s.openings id + 1 ∧ (s.openings id < s'.openings id ↔
      s.hasPanel id = true ∧ ∃ moment, Waits id moment s ∧ Reached moment s) := by
  have single : ((s.timers.outstanding hoverContext).filter (Hovers id s)).length ≤ 1 :=
    Nat.le_trans (List.length_filter_le _ _) ticking.tight.outstanding_length
  have due : 0 < ((s.timers.outstanding hoverContext).filter (Hovers id s)).length ↔
      ∃ moment, Waits id moment s ∧ Reached moment s := by
    rw [List.length_pos_iff_exists_mem]
    simp only [List.mem_filter, decide_eq_true_eq]
    constructor
    · rintro ⟨t, mem, reached, own⟩
      exact ⟨t.due, ⟨t, mem, own, rfl⟩, reached⟩
    · rintro ⟨_, ⟨t, mem, own, rfl⟩, reached⟩
      exact ⟨t, mem, reached, own⟩
  rw [runDue_openings ticking run, ← due]
  cases s.hasPanel id with
  | false => simp
  | true =>
    rw [if_pos rfl]
    exact ⟨Nat.add_le_add_left single _, (Nat.lt_add_right_iff_pos).trans (by simp)⟩

/-- What is due opens the panel for a buffer at most once, and it does so exactly if a hold of the
cursor in the buffer stands whose moment has come and there is a reference at the cursor. If the
buffer is not attached at that time, it has been detached since the hold. -/
theorem hover_opens_iff {s₀ : Session τ} (new : IsNew s₀) (steps : List SessionStep)
    (id : Handle) :
    ∃ n s', perform .runDue (runSteps s₀ steps) = .ok (.count n) s' ∧
      s'.openings id ≤ (runSteps s₀ steps).openings id + 1 ∧
      ((runSteps s₀ steps).openings id < s'.openings id ↔
        (runSteps s₀ steps).hasPanel id = true ∧
          ∃ moment, Held id moment s₀ steps ∧ Reached moment (runSteps s₀ steps)) ∧
      ((runSteps s₀ steps).openings id < s'.openings id → id ∉ (runSteps s₀ steps).attached →
        ∃ before after, steps = before ++ .cursorHold id :: after ∧ .detach id ∈ after) := by
  have free : hoverContext ∉ s₀.attached := by
    rw [new.attached]
    exact List.not_mem_nil
  have waits (moment : τ) : Waits id moment (runSteps s₀ steps) ↔ Held id moment s₀ steps := by
    rw [runSteps_iff_began (I := fun s => Ticking [] s ∧ hoverContext ∉ s.attached)
      (fun s step both => ⟨both.1.perform step, hover_not_attached both.1 both.2 step⟩)
      (fun s step both => perform_waits both.1 both.2 step) ⟨new.ticking, free⟩ steps]
    refine or_iff_left fun both => not_waits ?_ both.1
    rw [new.timers]
    rfl
  obtain ⟨n, s', run⟩ := runDue_ok (runSteps s₀ steps)
  obtain ⟨once, opens⟩ := runDue_opens (new.ticking.runSteps steps) run
  have opens' := opens.trans (and_congr_right fun _ => exists_congr fun moment =>
    and_congr_left fun _ => waits moment)
  refine ⟨n, s', bind_ok.2 ⟨n, s', run, rfl⟩, once, opens', fun opened loose => ?_⟩
  obtain ⟨-, moment, held, -⟩ := opens'.1 opened
  exact held.attached.resolve_left loose

end Clock

/-! ### Examples of holds -/

/-- Two buffers of a project are attached, and the cursor is held in one and then in the other. -/
def heldInBoth : List SessionStep :=
  [.openBuffer "/p/a.ts" (some "m.k()"), .attach (.number 1), .openBuffer "/p/b.ts" (some "m.k()"),
    .attach (.number 2), .cursorHold (.number 1), .advance 200]

/-- The other buffer is detached before the panel opens. -/
def thenDetached : List SessionStep := [.detach (.number 2), .advance 300]

theorem hover_opens_iff_latest : IsNew (onDisk nestedProject) ∧
    ∃ n s', perform .runDue (runSteps (onDisk nestedProject)
        (heldInBoth ++ .cursorHold (.number 2) :: thenDetached)) = .ok (.count n) s' ∧
      (runSteps (onDisk nestedProject)
        (heldInBoth ++ .cursorHold (.number 2) :: thenDetached)).openings (.number 2) <
        s'.openings (.number 2) := by
  have seen : (fun s : Session Int => s.options.hover.enabled = true ∧ s.enabled = true ∧
      .number 2 ∈ s.attached ∧ s.timers.scheduler.accepts s.options.hover.delayMs = true ∧
      500 = s.hoverTime) (runSteps (onDisk nestedProject) heldInBoth) := by
    decide +kernel
  obtain ⟨asked, enabled, attached, accepted, moment⟩ := seen
  have starts : Starts (.number 2) 500 (runSteps (onDisk nestedProject) heldInBoth)
      (.cursorHold (.number 2)) := ⟨rfl, ⟨asked, enabled, attached⟩, accepted, moment⟩
  have held : Held (.number 2) 500 (onDisk nestedProject)
      (heldInBoth ++ .cursorHold (.number 2) :: thenDetached) := by
    refine ⟨heldInBoth, _, thenDetached, rfl, starts, lasts_cons.2 ⟨?_, lasts_cons.2 ⟨?_, ?_⟩⟩⟩
    · exact fun same => by cases same
    · exact fun never => never
    · exact lasts_nil
  obtain ⟨n, s', run, -, opens, -⟩ := hover_opens_iff (onDisk_isNew nestedProject)
    (heldInBoth ++ .cursorHold (.number 2) :: thenDetached) (.number 2)
  have ripe : (fun s : Session Int => s.hasPanel (.number 2) = true ∧ Reached 500 s)
      (runSteps (onDisk nestedProject)
        (heldInBoth ++ .cursorHold (.number 2) :: thenDetached)) := by
    decide +kernel
  exact ⟨onDisk_isNew _, n, s', run, opens.2 ⟨ripe.1, _, held, ripe.2⟩⟩

/-- A buffer of a project is attached, the cursor is held in it, it is detached, and the delay
passes. -/
def detachedWhileHeld : List SessionStep :=
  [.openBuffer "/p/a.ts" (some "m.k()"), .attach (.number 1), .cursorHold (.number 1),
    .detach (.number 1), .advance 300]

/-- The panel opens for a buffer that is not attached any more. -/
theorem detached_buffer_hovers : IsNew (onDisk nestedProject) ∧
    .number 1 ∉ (runSteps (onDisk nestedProject) detachedWhileHeld).attached ∧
    (runSteps (onDisk nestedProject) detachedWhileHeld).host.panel = none ∧
    ∃ s', perform .runDue (runSteps (onDisk nestedProject) detachedWhileHeld) =
        .ok (.count 1) s' ∧
      s'.host.panelBuffer = some (.number 1) ∧
      (runSteps (onDisk nestedProject) detachedWhileHeld).openings (.number 1) <
        s'.openings (.number 1) := by
  have evaluated : succeedsWith (fun answer s' => answer = .count 1 ∧
      s'.host.panelBuffer = some (.number 1) ∧
      (runSteps (onDisk nestedProject) detachedWhileHeld).openings (.number 1) <
        s'.openings (.number 1)) (perform .runDue)
      (runSteps (onDisk nestedProject) detachedWhileHeld) = true := by
    decide +kernel
  obtain ⟨answer, s', run, seen⟩ := ok_of_succeedsWith evaluated
  obtain ⟨rfl, shown, opened⟩ := of_decide_eq_true seen
  have before : (fun s : Session Int => .number 1 ∉ s.attached ∧ s.host.panel = none)
      (runSteps (onDisk nestedProject) detachedWhileHeld) := by
    decide +kernel
  exact ⟨onDisk_isNew _, before.1, before.2, s', run, shown, opened⟩

end MessageLens.Session
