import MessageLens.Proofs.Session.Attachment
import MessageLens.Proofs.Session.Timers

/-!
# What is drawn while previews are off

Switching previews off empties the attached buffers, and nothing is drawn until they are switched on
again. But detaching a buffer leaves in it what has been drawn there, and attaching it does not
empty it while previews are off. An attached buffer shows something while previews are off exactly
if it has been attached like that and nothing has been done since that ends previews of it or
empties it.
-/

namespace MessageLens.Session
set_option autoImplicit false

open Operation

variable {τ : Type} {s s' : Session τ} {id : Handle} {step : SessionStep}

/-! ## Views that few steps change -/

/-- A view of a session that neither reading nor drawing nor the timers nor attaching changes. -/
structure Still {γ : Type} (view : Session τ → γ) : Prop extends Undisturbed view where
  previews : ∀ {α : Type} {x : SessionOperation τ α}, Keeps previewSide x → Keeps view x
  timers : ∀ s timers, view { s with timers := timers } = view s
  attached : ∀ s ids, view { s with attached := ids } = view s

/-- The step leaves the buffers and the switch to the session. -/
def Ordinary : SessionStep → Prop
  | .openBuffer .. | .closeBuffer _ | .setText .. | .setCursor .. => False
  | .enable | .disable | .toggle => False
  | _ => True

/-- The step draws in no buffer but the attached ones, and it leaves the list of these alone. -/
def Collective : SessionStep → Prop
  | .attach _ | .detach _ | .updateBuffer _ | .close | .runDue => False
  | step => Ordinary step

/-- What neither reading nor drawing in the attached buffers changes stays through most steps. -/
theorem Unread.perform [Instant τ] {γ : Type} {view : Session τ → γ} (unread : Unread view)
    (draws : Keeps view (updateAll : SessionOperation τ Unit))
    (previews : ∀ {α : Type} {x : SessionOperation τ α}, Keeps previewSide x → Keeps view x)
    (timers : ∀ s timers, view { s with timers := timers } = view s)
    (collective : Collective step) :
    Keeps view (perform step : SessionOperation τ SessionAnswer) := by
  have answers {α : Type} {x : SessionOperation τ α} {f : α → SessionAnswer}
      (keeps : Keeps view x) :
      Keeps view (x >>= fun a => pure (f a) : SessionOperation τ SessionAnswer) :=
    keeps.bind fun _ => Keeps.pure _
  have panel : Keeps view (closeHover : SessionOperation τ Unit) :=
    Keeps.bind (Keeps.change timers _) fun _ => previews closePanel_keeps_previews
  cases step with
  | openBuffer | closeBuffer | setText | setCursor | enable | disable | toggle => cases collective
  | attach | detach | updateBuffer | close | runDue => cases collective
  | textChanged i => exact answers (onTextChanged_keeps timers i)
  | showHover i => exact answers (previews (showHover_keeps_previews i))
  | closeHover => exact answers panel
  | cursorHold i => exact answers (onCursorHold_keeps timers i)
  | cursorMoved i => exact answers panel
  | updateAll => exact answers draws
  | refresh => exact answers (unread.refresh draws)
  | selectLocale locale => exact answers (unread.selectLocale draws locale)
  | loadAllLocales => exact answers (unread.reading loadAllLocales_keeps_editor)
  | messageFileChanged locale => exact answers (unread.onMessageFileChanged draws locale)
  | settingsChanged => exact answers (unread.onSettingsChanged draws)
  | advance ms => exact answers (Keeps.change timers _)
  | poll => exact answers (unread.poll draws)
  | change c => exact answers (previews (changeFiles_keeps_previews c))

theorem Still.perform [Instant τ] {γ : Type} {view : Session τ → γ} (still : Still view)
    (ordinary : Ordinary step) :
    Keeps view (perform step : SessionOperation τ SessionAnswer) := by
  have answers {α : Type} {x : SessionOperation τ α} {f : α → SessionAnswer}
      (keeps : Keeps view x) :
      Keeps view (x >>= fun a => pure (f a) : SessionOperation τ SessionAnswer) :=
    keeps.bind fun _ => Keeps.pure _
  have others (collective : Collective step) :
      Keeps view (Session.perform step : SessionOperation τ SessionAnswer) :=
    still.toUnread.perform still.updateAll still.previews still.timers collective
  cases step with
  | attach i => exact answers (still.attach i (Keeps.modify fun _ => still.attached _ _))
  | detach i =>
    exact answers (Keeps.bind (Keeps.modify fun _ => still.attached _ _) fun _ =>
      Keeps.change still.timers _)
  | updateBuffer i => exact answers (still.drawing i)
  | close =>
    refine answers (Keeps.bind (Keeps.change still.timers _) fun _ => ?_)
    exact (still.reading (watcher_keeps_editor _)).bind fun _ =>
      (still.previews closePanel_keeps_previews).bind fun _ =>
        Keeps.modify fun _ => still.attached _ _
  | runDue =>
    refine answers (runDue_keeps still.timers fun task => Keeps.get.bind fun _ => ?_)
    cases task with
    | update i => exact Keeps.ite (still.drawing i) (Keeps.pure ())
    | hover i =>
      exact Keeps.ite (still.previews (showHover_keeps_previews i)).discard (Keeps.pure ())
  | _ => exact others ordinary

/-! ## What is drawn -/

/-- What a namespace of a buffer holds, if the buffer is open. -/
def drawnIn (buffers : Table Handle Buffer) (layer : String) (id : Handle) : List Annotation :=
  ((buffers.get? id).map (·.drawn layer)).getD []

/-- What the session has drawn in a buffer. -/
def shown (s : Session τ) (id : Handle) : List Annotation := drawnIn s.host.buffers s.layer id

/-- Which buffers are open, and what is drawn in them unless previews are on. -/
structure Canvas where
  opened : Nat
  isOpen : Handle → Bool
  dark : Option (Handle → List Annotation)

/-- The canvas of a session. -/
def canvas (s : Session τ) : Canvas :=
  ⟨s.host.opened, s.host.isValid, if s.enabled then none else some s.shown⟩

theorem canvas_off (off : s.enabled = false) :
    canvas s = ⟨s.host.opened, s.host.isValid, some s.shown⟩ := by
  rw [canvas, off]
  rfl

theorem canvas_on (on : s.enabled = true) :
    canvas s = ⟨s.host.opened, s.host.isValid, none⟩ := by
  rw [canvas, on]
  rfl

theorem isValid_of_shown (shown : s.shown id ≠ []) : s.host.isValid id = true := by
  cases isOpen : s.host.buffers.get? id with
  | none =>
    rw [Session.shown, drawnIn, isOpen] at shown
    exact absurd rfl shown
  | some b => exact Table.contains_iff.2 ⟨b, isOpen⟩

theorem updateBuffer_keeps_canvas (i : Handle) :
    Keeps canvas (updateBuffer i : SessionOperation τ Unit) := by
  intro s
  obtain ⟨s', run, drawn⟩ := updateBuffer_ok i s
  rw [leaves_ok run]
  cases enabled : s.enabled with
  | false =>
    have idle : (s.enabled && s.host.isValid i) = false := by rw [enabled]; rfl
    rw [updateBuffer_idle idle] at run
    cases run
    rfl
  | true =>
    have same : s'.enabled = s.enabled := by rw [drawn.outside]
    have opened : s'.host.opened = s.host.opened := by rw [drawn.outside]
    have isOpen : s'.host.isValid = s.host.isValid := by
      funext id
      rw [Host.isValid, Host.isValid, Table.contains, Table.contains, drawn.buffers,
        Option.isSome_map]
    rw [canvas_on enabled, canvas_on (same.trans enabled), opened, isOpen]

theorem canvas_still : Still (canvas (τ := τ)) where
  reading keeps := keeps.comp fun side => Canvas.mk side.host.opened side.host.isValid
    (if side.enabled then none else some (drawnIn side.host.buffers side.layer))
  project f := Keeps.change (fun _ _ => rfl) f
  drawing := updateBuffer_keeps_canvas
  previews keeps := keeps.comp fun side => Canvas.mk side.opened side.buffers.contains
    (if side.enabled then none else some (drawnIn side.buffers side.layer))
  timers _ _ := rfl
  attached _ _ := rfl

theorem changeBuffer_keeps_canvas {f : Buffer → Buffer}
    (same : ∀ b, (f b).annotations = b.annotations) (i : Handle) :
    Keeps canvas (changeBuffer i f : SessionOperation τ Unit) := by
  intro s
  rw [leaves]
  cases run : changeBuffer i f s with
  | error e s' => rw [changeBuffer_error run]
  | ok u s' =>
    obtain ⟨b, isOpen, rfl⟩ := changeBuffer_ok run
    have opens : (s.host.buffers.set i (f b)).contains = s.host.buffers.contains :=
      funext fun id => Table.contains_set_held isOpen
    have draws : drawnIn (s.host.buffers.set i (f b)) s.layer = drawnIn s.host.buffers s.layer := by
      funext id
      by_cases here : id = i
      · rw [here, drawnIn, drawnIn, Table.get?_set_self, isOpen, Option.map_some, Option.map_some,
          Buffer.drawn, Buffer.drawn, same]
      · rw [drawnIn, drawnIn, Table.get?_set_ne _ here]
    show Canvas.mk s.host.opened (s.host.buffers.set i (f b)).contains
      (if s.enabled then none else some (drawnIn (s.host.buffers.set i (f b)) s.layer)) = _
    rw [opens, draws]
    rfl

/-! ## Steps that change what is drawn -/

/-- Emptying a buffer succeeds. -/
theorem clearOpen_ok (i : Handle) (s : Session τ) :
    ∃ s', clearOpen i s = .ok () s' ∧ s'.enabled = s.enabled ∧
      s'.host.opened = s.host.opened ∧ s'.host.isValid = s.host.isValid ∧
      s'.shown = fun id => if id = i then [] else s.shown id := by
  cases isOpen : s.host.buffers.get? i with
  | none =>
    have closed : s.host.isValid i = false := by
      rw [Host.isValid, Table.contains, isOpen, Option.isSome_none]
    have idle : clearOpen i s = .ok () s :=
      bind_ok.2 ⟨s.host, s, rfl, congrFun (if_neg (Bool.eq_false_iff.1 closed)) s⟩
    refine ⟨s, idle, rfl, rfl, rfl, funext fun id => ?_⟩
    by_cases here : id = i
    · rw [if_pos here, here, shown, drawnIn, isOpen]
      rfl
    · rw [if_neg here]
  | some b =>
    have valid : s.host.isValid i = true := Table.contains_iff.2 ⟨b, isOpen⟩
    have run : clearOpen i s = _ := bind_ok.2
      ⟨s.host, s, rfl, (congrFun (if_pos valid) s).trans (clearBuffer_ok isOpen)⟩
    refine ⟨_, run, rfl, rfl, funext fun id => Table.contains_set_held isOpen, funext fun id => ?_⟩
    by_cases here : id = i
    · rw [if_pos here, here, shown, drawnIn, Table.get?_set_self, Option.map_some,
        Buffer.drawn_redrawn]
      rfl
    · rw [if_neg here, shown, drawnIn, Table.get?_set_ne _ here]
      rfl

theorem forM_clearOpen_ok (ids : List Handle) (s : Session τ) :
    ∃ s', ids.forM clearOpen s = .ok () s' ∧ s'.enabled = s.enabled ∧
      s'.host.opened = s.host.opened ∧ s'.host.isValid = s.host.isValid ∧
      s'.shown = fun id => if id ∈ ids then [] else s.shown id := by
  induction ids generalizing s with
  | nil => exact ⟨s, rfl, rfl, rfl, rfl, by simp⟩
  | cons i rest ih =>
    obtain ⟨t, cleared, enabled, opened, isOpen, blank⟩ := clearOpen_ok i s
    obtain ⟨s', later, enabled', opened', isOpen', blank'⟩ := ih t
    refine ⟨s', forM_cons_ok.2 ⟨t, cleared, later⟩, enabled'.trans enabled, opened'.trans opened,
      isOpen'.trans isOpen, ?_⟩
    rw [blank', blank]
    funext id
    by_cases here : id = i <;> by_cases there : id ∈ rest <;> simp [here, there]

theorem disable_canvas (s : Session τ) : canvas (leaves disable s) =
    ⟨s.host.opened, s.host.isValid, some fun id => if id ∈ s.attached then [] else s.shown id⟩ := by
  obtain ⟨s', run, enabled, opened, isOpen, blank⟩ := forM_clearOpen_ok s.attached
    { s with enabled := false, timers := s.timers.cancelAll }
  have off : disable s = .ok () s' := run
  rw [leaves_ok off, canvas_off enabled, opened, isOpen, blank]
  rfl

theorem enable_canvas (s : Session τ) :
    canvas (leaves enable s) = ⟨s.host.opened, s.host.isValid, none⟩ :=
  canvas_still.updateAll { s with enabled := true }

theorem openBuffer_canvas (path : String) (text : Option String) (s : Session τ) :
    leaves (openBuffer path text) s = s ∨ canvas (leaves (openBuffer path text) s) =
      ⟨s.host.opened + 1, fun id => decide (id = .number (s.host.opened + 1)) || s.host.isValid id,
        if s.enabled then none
        else some fun id => if id = .number (s.host.opened + 1) then [] else s.shown id⟩ := by
  rw [leaves]
  cases run : openBuffer path text s with
  | error e s' => exact .inl (openBuffer_error run)
  | ok i s' =>
    obtain ⟨text, -, rfl⟩ := openBuffer_ok run
    have lookup (id : Handle) : (s.host.openBuffer path text).2.buffers.get? id =
        if id = .number (s.host.opened + 1) then some { path := path, text := text }
        else s.host.buffers.get? id := Table.get?_set ..
    have opens : (s.host.openBuffer path text).2.isValid =
        fun id => decide (id = .number (s.host.opened + 1)) || s.host.isValid id := by
      funext id
      rw [Host.isValid, Table.contains, lookup]
      by_cases new : id = .number (s.host.opened + 1) <;> simp [new, Host.isValid, Table.contains]
    have draws : drawnIn (s.host.openBuffer path text).2.buffers s.layer =
        fun id => if id = .number (s.host.opened + 1) then [] else s.shown id := by
      funext id
      rw [drawnIn, lookup]
      by_cases new : id = .number (s.host.opened + 1)
      · rw [if_pos new, if_pos new]
        rfl
      · rw [if_neg new, if_neg new]
        rfl
    refine .inr ?_
    show Canvas.mk _ (s.host.openBuffer path text).2.isValid
      (if s.enabled then none else some (drawnIn (s.host.openBuffer path text).2.buffers s.layer)) =
        _
    rw [opens, draws]
    rfl

theorem closeBuffer_canvas (i : Handle) (s : Session τ) :
    canvas { s with host := s.host.closeBuffer i } =
      ⟨s.host.opened, fun id => !decide (id = i) && s.host.isValid id,
        if s.enabled then none else some fun id => if id = i then [] else s.shown id⟩ := by
  have lookup (id : Handle) : (s.host.closeBuffer i).buffers.get? id =
      if id = i then none else s.host.buffers.get? id := Table.get?_erase ..
  have opens : (s.host.closeBuffer i).isValid =
      fun id => !decide (id = i) && s.host.isValid id := by
    funext id
    rw [Host.isValid, Table.contains, lookup]
    by_cases here : id = i <;> simp [here, Host.isValid, Table.contains]
  have draws : drawnIn (s.host.closeBuffer i).buffers s.layer =
      fun id => if id = i then [] else s.shown id := by
    funext id
    rw [drawnIn, lookup]
    by_cases here : id = i
    · rw [if_pos here, if_pos here]
      rfl
    · rw [if_neg here, if_neg here]
      rfl
  show Canvas.mk _ (s.host.closeBuffer i).isValid
    (if s.enabled then none else some (drawnIn (s.host.closeBuffer i).buffers s.layer)) = _
  rw [opens, draws]
  rfl

/-- The step empties a buffer, or closes it. -/
def Wipes (id : Handle) (s : Session τ) : SessionStep → Prop
  | .disable => id ∈ s.attached
  | .closeBuffer i => i = id
  | _ => False

/-- What a step does to the canvas. -/
inductive Painted (step : SessionStep) (s s' : Session τ) : Prop where
  | kept (others : ∀ id, ¬ Wipes id s step) (same : canvas s' = canvas s)
  | opened (path : String) (text : Option String) (how : step = .openBuffer path text)
      (new : canvas s' = ⟨s.host.opened + 1,
        fun id => decide (id = .number (s.host.opened + 1)) || s.host.isValid id,
        if s.enabled then none
        else some fun id => if id = .number (s.host.opened + 1) then [] else s.shown id⟩)
  | closed (i : Handle) (how : step = .closeBuffer i)
      (rest : canvas s' = ⟨s.host.opened, fun id => !decide (id = i) && s.host.isValid id,
        if s.enabled then none else some fun id => if id = i then [] else s.shown id⟩)
  | lit (how : step = .enable ∨ step = .toggle)
      (same : canvas s' = ⟨s.host.opened, s.host.isValid, none⟩)
  | darkened (how : step = .disable ∨ step = .toggle)
      (wiped : canvas s' = ⟨s.host.opened, s.host.isValid,
        some fun id => if id ∈ s.attached then [] else s.shown id⟩)

section Clock

variable [Instant τ]

theorem perform_painted (step : SessionStep) (s : Session τ) :
    Painted step s (leaves (perform step) s) := by
  have same (ordinary : Ordinary step) (others : ∀ id, ¬ Wipes id s step) :
      Painted step s (leaves (perform step) s) :=
    .kept others (canvas_still.perform ordinary s)
  cases step with
  | openBuffer path text =>
    rw [perform, leaves_answer]
    obtain unread | new := openBuffer_canvas path text s
    · rw [unread]
      exact .kept (fun _ => not_false) rfl
    · exact .opened path text rfl new
  | closeBuffer i => exact .closed i rfl (closeBuffer_canvas i s)
  | setText i text =>
    rw [perform, leaves_answer]
    refine .kept (fun _ => not_false) (changeBuffer_keeps_canvas ?_ i s)
    exact fun _ => rfl
  | setCursor i line column =>
    rw [perform, leaves_answer]
    refine .kept (fun _ => not_false) (changeBuffer_keeps_canvas ?_ i s)
    exact fun _ => rfl
  | enable =>
    rw [perform, leaves_answer]
    exact .lit (.inl rfl) (enable_canvas s)
  | disable =>
    rw [perform, leaves_answer]
    exact .darkened (.inl rfl) (disable_canvas s)
  | toggle =>
    rw [perform, leaves_answer]
    cases on : s.enabled with
    | true =>
      exact .darkened (.inr rfl) ((toggle_disables canvas_still.emit on).trans (disable_canvas s))
    | false => exact .lit (.inr rfl) ((toggle_enables canvas_still.emit on).trans (enable_canvas s))
  | _ => exact same trivial fun _ => not_false

/-- Every open buffer has been opened under a number of its own. -/
def Opened (s : Session τ) : Prop := ∀ id, s.host.isValid id = true → s.host.Issued id

omit [Instant τ] in
theorem IsNew.allOpened (new : IsNew s) : Opened s := by
  intro id valid
  obtain ⟨b, isOpen⟩ := Table.contains_iff.1 valid
  exact new.opened id b isOpen

omit [Instant τ] in
theorem Opened.not_next (opened : Opened s) (valid : s.host.isValid id = true) :
    id ≠ .number (s.host.opened + 1) := by
  obtain ⟨n, le, rfl⟩ := opened id valid
  intro same
  have := Handle.number.inj same
  omega

theorem Opened.perform (opened : Opened s) (step : SessionStep) :
    Opened (leaves (perform step) s) := by
  have painted := perform_painted step s
  generalize leaves (Session.perform step) s = s' at painted
  have numbered {s' : Session τ} (count : s'.host.opened = s.host.opened)
      (fewer : ∀ id, s'.host.isValid id = true → s.host.isValid id = true) : Opened s' := by
    intro id valid
    obtain ⟨n, le, same⟩ := opened id (fewer id valid)
    exact ⟨n, count ▸ le, same⟩
  cases painted with
  | kept _ same =>
    obtain ⟨count, isOpen, -⟩ := Canvas.mk.inj same
    exact numbered count fun id valid => isOpen ▸ valid
  | opened path text _ new =>
    obtain ⟨count, isOpen, -⟩ := Canvas.mk.inj new
    intro id valid
    rw [isOpen, Bool.or_eq_true, decide_eq_true_eq] at valid
    obtain rfl | before := valid
    · exact ⟨s.host.opened + 1, count ▸ Nat.le_refl _, rfl⟩
    · obtain ⟨n, le, same⟩ := opened id before
      exact ⟨n, count ▸ Nat.le_succ_of_le le, same⟩
  | closed i _ rest =>
    obtain ⟨count, isOpen, -⟩ := Canvas.mk.inj rest
    refine numbered count fun id valid => ?_
    rw [isOpen, Bool.and_eq_true] at valid
    exact valid.2
  | lit _ same =>
    obtain ⟨count, isOpen, -⟩ := Canvas.mk.inj same
    exact numbered count fun id valid => isOpen ▸ valid
  | darkened _ wiped =>
    obtain ⟨count, isOpen, -⟩ := Canvas.mk.inj wiped
    exact numbered count fun id valid => isOpen ▸ valid

/-! ## Attached buffers that are not blank -/

omit [Instant τ] in
/-- While previews are off a step leaves drawn what has been drawn before, unless it wipes it. -/
theorem Painted.shown_iff (painted : Painted step s s') (opened : Opened s)
    (off : s.enabled = false) (off' : s'.enabled = false) (other : step ≠ .toggle) :
    s'.shown id ≠ [] ↔ s.shown id ≠ [] ∧ ¬ Wipes id s step := by
  have now := canvas_off off'
  cases painted with
  | kept others same =>
    obtain ⟨-, -, dark⟩ := Canvas.mk.inj (now.symm.trans (same.trans (canvas_off off)))
    rw [Option.some.inj dark]
    exact (and_iff_left (others id)).symm
  | opened path text how new =>
    subst how
    obtain ⟨-, -, dark⟩ := Canvas.mk.inj (now.symm.trans new)
    rw [off, if_neg Bool.false_ne_true] at dark
    have drawn : s'.shown id = _ := congrFun (Option.some.inj dark) id
    rw [drawn]
    refine Iff.trans ?_ (and_iff_left fun never => never).symm
    by_cases next : id = .number (s.host.opened + 1)
    · rw [if_pos next]
      refine iff_of_false (fun blank => blank rfl) fun shown => ?_
      exact opened.not_next (isValid_of_shown shown) next
    · rw [if_neg next]
  | closed i how rest =>
    subst how
    obtain ⟨-, -, dark⟩ := Canvas.mk.inj (now.symm.trans rest)
    rw [off, if_neg Bool.false_ne_true] at dark
    have drawn : s'.shown id = _ := congrFun (Option.some.inj dark) id
    rw [drawn]
    by_cases here : id = i
    · rw [if_pos here]
      exact iff_of_false (fun blank => blank rfl) fun both => both.2 here.symm
    · rw [if_neg here]
      exact (and_iff_left fun same => here same.symm).symm
  | lit how same =>
    obtain ⟨-, -, dark⟩ := Canvas.mk.inj (now.symm.trans same)
    cases dark
  | darkened how wiped =>
    obtain rfl := how.resolve_right other
    obtain ⟨-, -, dark⟩ := Canvas.mk.inj (now.symm.trans wiped)
    have drawn : s'.shown id = _ := congrFun (Option.some.inj dark) id
    rw [drawn]
    by_cases attached : id ∈ s.attached
    · rw [if_pos attached]
      exact iff_of_false (fun blank => blank rfl) fun both => both.2 attached
    · rw [if_neg attached]
      exact (and_iff_left attached).symm

/-- Switching previews off leaves the attached buffers blank. -/
theorem shown_of_switched (on : s.enabled = true) (off : (leaves (perform step) s).enabled = false)
    (attached : id ∈ (leaves (perform step) s).attached) :
    (leaves (perform step) s).shown id = [] := by
  have switched := perform_enabled step s
  have now := canvas_off off
  rw [off, on] at switched
  have painted := perform_painted step s
  have before := (attached_before attached).resolve_right fun attaching => by
    rw [attaching.1] at switched
    cases switched
  generalize leaves (perform step) s = s' at *
  cases painted with
  | kept others same =>
    obtain ⟨-, -, dark⟩ := Canvas.mk.inj (now.symm.trans (same.trans (canvas_on on)))
    cases dark
  | opened path text how new => rw [how] at switched; cases switched
  | closed i how rest => rw [how] at switched; cases switched
  | lit how same =>
    obtain ⟨-, -, dark⟩ := Canvas.mk.inj (now.symm.trans same)
    cases dark
  | darkened how wiped =>
    obtain ⟨-, -, dark⟩ := Canvas.mk.inj (now.symm.trans wiped)
    exact (congrFun (Option.some.inj dark) id).trans (if_pos before)

/-- Previews are off, and the buffer is attached and not blank. -/
structure Stained (id : Handle) (s : Session τ) : Prop where
  off : s.enabled = false
  attached : id ∈ s.attached
  shown : s.shown id ≠ []

/-- Previews are off, and the buffer can be attached although it is not blank. -/
structure Stains (id : Handle) (s : Session τ) : Prop where
  off : s.enabled = false
  free : id ∉ s.attached
  shown : s.shown id ≠ []
  attached : id ∈ (leaves (perform (.attach id)) s).attached

/-- The step ends previews of a buffer, empties it or switches previews over. -/
def Cleans (id : Handle) : SessionStep → Prop
  | .enable | .disable | .toggle | .close => True
  | .detach i | .closeBuffer i => i = id
  | _ => False

theorem Stained.before (stained : Stained id (leaves (perform step) s)) (opened : Opened s) :
    (step = .attach id ∧ Stains id s) ∨ Stained id s ∧ ¬ Cleans id step := by
  have switched := perform_enabled step s
  rw [stained.off] at switched
  cases off : s.enabled with
  -- the step that switches previews off leaves no attached buffer stained
  | true => exact absurd (shown_of_switched off stained.off stained.attached) stained.shown
  | false =>
    rw [off] at switched
    have other : step ≠ .toggle := by
      rintro rfl
      cases switched
    obtain ⟨shown, stays⟩ :=
      ((perform_painted step s).shown_iff opened off stained.off other).1 stained.shown
    by_cases before : id ∈ s.attached
    · refine .inr ⟨⟨off, before, shown⟩, fun cleans => ?_⟩
      have attached := stained.attached
      cases step with
      | enable => cases switched
      | disable => exact stays before
      | toggle => exact other rfl
      | close => cases attached
      | detach i =>
        obtain rfl : i = id := cleans
        exact of_decide_eq_true (List.mem_filter.1 attached).2 rfl
      | closeBuffer i => exact stays cleans
      | _ => exact cleans
    · obtain ⟨rfl, -⟩ := (attached_before stained.attached).resolve_left before
      exact .inl ⟨rfl, off, before, shown, stained.attached⟩

theorem Stains.after (stains : Stains id s) (opened : Opened s) :
    Stained id (leaves (perform (.attach id)) s) := by
  have off := (perform_enabled (.attach id) s).trans stains.off
  refine ⟨off, stains.attached, ?_⟩
  exact ((perform_painted _ s).shown_iff opened stains.off off nofun).2
    ⟨stains.shown, fun never => never⟩

theorem Stained.after (stained : Stained id s) (opened : Opened s) (stays : ¬ Cleans id step) :
    Stained id (leaves (perform step) s) := by
  have switched : switches step s.enabled = false := by
    cases step with
    | enable | toggle => exact absurd trivial stays
    | disable => rfl
    | _ => exact stained.off
  have off := (perform_enabled step s).trans switched
  have unwiped : ¬ Wipes id s step := by
    cases step with
    | disable => exact absurd trivial stays
    | closeBuffer i => exact stays
    | _ => exact fun never => never
  refine ⟨off, attached_stays stained.attached ⟨?_, ?_⟩, ?_⟩
  · rintro rfl
    exact stays rfl
  · rintro rfl
    exact stays trivial
  · refine ((perform_painted step s).shown_iff opened stained.off off ?_).2 ⟨stained.shown, unwiped⟩
    rintro rfl
    exact stays trivial

/-- While previews are off, an attached buffer is not blank exactly if it has been attached while
they were off and it was not blank, and no step since has ended previews of it, emptied it or
switched previews over. -/
theorem stained_iff {s₀ : Session τ} (new : IsNew s₀) (steps : List SessionStep) (id : Handle) :
    Stained id (runSteps s₀ steps) ↔ ∃ before after, steps = before ++ .attach id :: after ∧
      Stains id (runSteps s₀ before) ∧ ∀ step ∈ after, ¬ Cleans id step := by
  have began : Stained id (runSteps s₀ steps) ↔
      Began (fun s step => step = .attach id ∧ Stains id s) (fun _ => Cleans id) s₀ steps ∨
        Stained id s₀ ∧ Lasts (fun _ => Cleans id) s₀ steps := by
    refine runSteps_iff_began (I := Opened) (fun _ step opened => opened.perform step)
      (fun s step opened => ⟨fun stained => stained.before opened, ?_⟩) new.allOpened steps
    rintro (⟨rfl, stains⟩ | ⟨stained, stays⟩)
    · exact stains.after opened
    · exact stained.after opened stays
  have fresh : ¬ Stained id s₀ := by
    intro stained
    have attached := stained.attached
    rw [new.attached] at attached
    cases attached
  rw [began, or_iff_left fun both => fresh both.1]
  constructor
  · rintro ⟨before, _, after, rfl, ⟨rfl, stains⟩, lasts⟩
    exact ⟨before, after, rfl, stains, lasts_iff.1 lasts⟩
  · rintro ⟨before, after, rfl, stains, lasts⟩
    exact ⟨before, _, after, rfl, ⟨rfl, stains⟩, lasts_iff.2 lasts⟩

end Clock

/-! ### Examples of previews that are off -/

/-- A buffer of a project is drawn in and detached before previews are switched off. -/
def detachedThenOff : List SessionStep :=
  [.openBuffer "/p/a.ts" (some "m.k()"), .attach (.number 1), .detach (.number 1), .disable]

/-- The buffer is edited, what is due is run, and everything is loaded and drawn anew. -/
def usedWhileOff : List SessionStep :=
  [.setText (.number 1) "", .textChanged (.number 1), .advance 150, .runDue, .refresh]

theorem stained_iff_used : IsNew (onDisk nestedProject) ∧ Stained (.number 1)
    (runSteps (onDisk nestedProject) (detachedThenOff ++ .attach (.number 1) :: usedWhileOff)) := by
  have seen : (fun s : Session Int => s.enabled = false ∧ .number 1 ∉ s.attached ∧
      s.shown (.number 1) ≠ [] ∧ .number 1 ∈ (leaves (perform (.attach (.number 1))) s).attached)
      (runSteps (onDisk nestedProject) detachedThenOff) := by
    decide +kernel
  obtain ⟨off, free, shown, attached⟩ := seen
  have stays : ∀ step ∈ usedWhileOff, ¬ Cleans (.number 1) step := by
    simp [usedWhileOff, Cleans]
  exact ⟨onDisk_isNew _, (stained_iff (onDisk_isNew _) _ _).2
    ⟨detachedThenOff, usedWhileOff, rfl, ⟨off, free, shown, attached⟩, stays⟩⟩

/-- Previews are off, and an attached buffer that is open is not blank. -/
theorem attached_while_off_not_blank : IsNew (onDisk nestedProject) ∧
    (runSteps (onDisk nestedProject) (detachedThenOff ++ [.attach (.number 1)])).enabled = false ∧
    .number 1 ∈
      (runSteps (onDisk nestedProject) (detachedThenOff ++ [.attach (.number 1)])).attached ∧
    ∃ b, (runSteps (onDisk nestedProject)
        (detachedThenOff ++ [.attach (.number 1)])).host.buffers.get? (.number 1) = some b ∧
      b.drawn (runSteps (onDisk nestedProject)
        (detachedThenOff ++ [.attach (.number 1)])).layer ≠ [] := by
  have seen : (fun s : Session Int => s.enabled = false ∧ .number 1 ∈ s.attached ∧
      ((s.host.buffers.get? (.number 1)).any fun b => b.drawn s.layer ≠ []) = true)
      (runSteps (onDisk nestedProject) (detachedThenOff ++ [.attach (.number 1)])) := by
    decide +kernel
  obtain ⟨off, attached, drawn⟩ := seen
  obtain ⟨b, isOpen, drawn⟩ := (Option.any_eq_true _ _).1 drawn
  exact ⟨onDisk_isNew _, off, attached, b, isOpen, of_decide_eq_true drawn⟩

end MessageLens.Session
