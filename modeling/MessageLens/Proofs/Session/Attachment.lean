import MessageLens.Proofs.Session.Failing
import MessageLens.Proofs.Session.Redraw
import MessageLens.Proofs.Session.Start

/-!
# Which buffers are attached

Only a few steps switch previews on or off or change the list of attached buffers, and they do so
whether they fail or not. A buffer can be attached only while it is open.
-/

namespace MessageLens.Session
set_option autoImplicit false

open Operation

variable {τ α : Type} {s s' : Session τ} {id : Handle} {e : SessionFailure}

/-- Whether previews are on, and the attached buffers. -/
def status (s : Session τ) : Bool × List Handle := (s.enabled, s.attached)

theorem status_aside : Aside (status (τ := τ)) :=
  ⟨fun _ => Keeps.modify fun _ => rfl, fun f => Keeps.change (fun _ _ => rfl) f, fun _ _ => rfl⟩

theorem status_undisturbed : Undisturbed (status (τ := τ)) where
  reading keeps := keeps.comp fun side => (side.enabled, side.attached)
  project f := Keeps.change (fun _ _ => rfl) f
  drawing := status_aside.updateBuffer

/-! ## Steps that change the status -/

/-- Whether previews are on after a step, from whether they were on before. -/
def switches : SessionStep → Bool → Bool
  | .enable, _ => true
  | .disable, _ => false
  | .toggle, enabled => !enabled
  | _, enabled => enabled

/-- The status after a step. -/
inductive Turned (step : SessionStep) (s s' : Session τ) : Prop where
  | switched (same : status s' = (switches step s.enabled, s.attached))
  | attached (id : Handle) (how : step = .attach id) (free : id ∉ s.attached)
      (isOpen : s.host.isValid id = true) (same : status s' = (s.enabled, s.attached ++ [id]))
  | detached (id : Handle) (how : step = .detach id)
      (same : status s' = (s.enabled, s.attached.filter (· ≠ id)))
  | closed (how : step = .close) (same : status s' = (s.enabled, []))

/-- Attaching fails before the buffer is attached. -/
theorem attach_error (run : attach id s = .error e s') : status s' = status s := by
  have draws (t : Session τ) : updateBuffer id t = .error e s' ↔ False :=
    iff_of_false (updateBuffer_avoids id t s') not_false
  simp only [attach, bind_error, get_error, get_ok, exists_both_eq, false_or, ite_error, pure_error,
    buffer_error, buffer_ok, read_error, read_ok, modify_error, draws, and_false, or_false,
    exists_false] at run
  obtain ⟨-, ⟨-, -, rfl⟩ | ⟨b, t, ⟨-, rfl⟩, -, -, failed⟩⟩ := run
  · rfl
  · exact (status_undisturbed.discoverProject _).error failed

theorem attach_turned (id : Handle) (s : Session τ) :
    status (leaves (attach id) s) = status s ∨ id ∉ s.attached ∧ s.host.isValid id = true ∧
      status (leaves (attach id) s) = (s.enabled, s.attached ++ [id]) := by
  rw [leaves]
  cases run : attach id s with
  | error e s' => exact .inl (attach_error run)
  | ok b s' =>
    obtain rfl | ⟨free, isOpen, t, looked, drawn⟩ := attach_ok run
    · exact .inl rfl
    · refine .inr ⟨free, Table.contains_iff.2 isOpen, ?_⟩
      have found : status t = status s := by
        obtain ⟨-, file, discovered⟩ | ⟨-, rfl⟩ := looked
        · exact (status_undisturbed.discoverProject file).ok discovered
        · rfl
      obtain ⟨enabled, attached⟩ := Prod.mk.inj found
      show status s' = _
      rw [drawn.outside, ← enabled, ← attached]
      rfl

theorem enable_status (s : Session τ) : status (leaves enable s) = (true, s.attached) :=
  status_undisturbed.updateAll { s with enabled := true }

theorem disable_status (s : Session τ) : status (leaves disable s) = (false, s.attached) :=
  status_aside.clearAll { s with enabled := false, timers := s.timers.cancelAll }

/-- Switching over switches off while previews are on, apart from what is logged. -/
theorem toggle_disables {γ : Type} {view : Session τ → γ}
    (notes : ∀ e, Keeps view (emit e : SessionOperation τ Unit)) (on : s.enabled = true) :
    view (leaves toggle s) = view (leaves disable s) := by
  have branch : toggle s = (disable >>= fun _ => _) s := congrFun (if_pos on) s
  rw [leaves, branch]
  exact Keeps.after (fun _ => (notes _).bind fun _ => Keeps.get.bind fun _ => Keeps.pure _)
    disable s

/-- Switching over switches on while previews are off. -/
theorem toggle_enables {γ : Type} {view : Session τ → γ}
    (notes : ∀ e, Keeps view (emit e : SessionOperation τ Unit)) (off : s.enabled = false) :
    view (leaves toggle s) = view (leaves enable s) := by
  have branch : toggle s = (enable >>= fun _ => _) s :=
    congrFun (if_neg (Bool.eq_false_iff.1 off)) s
  rw [leaves, branch]
  exact Keeps.after (fun _ => (notes _).bind fun _ => Keeps.get.bind fun _ => Keeps.pure _) enable s

theorem toggle_status (s : Session τ) : status (leaves toggle s) = (!s.enabled, s.attached) := by
  cases on : s.enabled with
  | true => exact (toggle_disables status_aside.emit on).trans (disable_status s)
  | false => exact (toggle_enables status_aside.emit on).trans (enable_status s)

/-- Every step leaves a status of this kind, whether it fails or not. -/
theorem perform_turned [Instant τ] (step : SessionStep) (s : Session τ) :
    Turned step s (leaves (perform step) s) := by
  have same {α : Type} {x : SessionOperation τ α} {f : α → SessionAnswer} (keeps : Keeps status x) :
      status (leaves (x >>= fun a => pure (f a) : SessionOperation τ SessionAnswer) s) =
        status s := by
    rw [leaves_answer]
    exact keeps s
  cases step with
  | openBuffer path text => exact .switched (same (status_aside.openBuffer path text))
  | closeBuffer id => exact .switched (same (status_aside.host _))
  | setText id text => exact .switched (same (status_aside.changeBuffer id _))
  | setCursor id line column => exact .switched (same (status_aside.changeBuffer id _))
  | attach id =>
    rw [perform, leaves_answer]
    obtain same | ⟨free, isOpen, same⟩ := attach_turned id s
    · exact .switched same
    · exact .attached id rfl free isOpen same
  | detach id => exact .detached id rfl rfl
  | textChanged id => exact .switched (same (status_aside.onTextChanged id))
  | showHover id => exact .switched (same (status_aside.showHover id))
  | closeHover => exact .switched (same status_aside.closeHover)
  | cursorHold id => exact .switched (same (status_aside.onCursorHold id))
  | cursorMoved id => exact .switched (same status_aside.closeHover)
  | updateBuffer id => exact .switched (same (status_aside.updateBuffer id))
  | updateAll => exact .switched (same status_undisturbed.updateAll)
  | enable => rw [perform, leaves_answer]; exact .switched (enable_status s)
  | disable => rw [perform, leaves_answer]; exact .switched (disable_status s)
  | toggle => rw [perform, leaves_answer]; exact .switched (toggle_status s)
  | refresh => exact .switched (same status_undisturbed.refresh)
  | selectLocale locale => exact .switched (same (status_undisturbed.selectLocale locale))
  | loadAllLocales =>
    exact .switched (same (status_undisturbed.reading loadAllLocales_keeps_editor))
  | messageFileChanged locale =>
    exact .switched (same (status_undisturbed.onMessageFileChanged locale))
  | settingsChanged => exact .switched (same status_undisturbed.onSettingsChanged)
  | close => exact .closed rfl rfl
  | advance ms => exact .switched rfl
  | runDue => exact .switched (same (runDue_keeps (fun _ _ => rfl) status_aside.fire))
  | poll => exact .switched (same status_undisturbed.poll)
  | change c => exact .switched (same (changeFiles_keeps (fun _ _ => rfl) c))

variable [Instant τ] {step : SessionStep}

theorem perform_enabled (step : SessionStep) (s : Session τ) :
    (leaves (perform step) s).enabled = switches step s.enabled := by
  cases perform_turned step s with
  | switched same => exact congrArg Prod.fst same
  | attached _ how _ _ same => rw [how] at same ⊢; exact congrArg Prod.fst same
  | detached _ how same => rw [how] at same ⊢; exact congrArg Prod.fst same
  | closed how same => rw [how] at same ⊢; exact congrArg Prod.fst same

omit [Instant τ] in
theorem attached_of_status {enabled : Bool} {ids : List Handle} (same : status s = (enabled, ids)) :
    s.attached = ids := congrArg Prod.snd same

/-- An attached buffer stays so until it is detached or the session is closed. -/
theorem attached_stays (before : id ∈ s.attached) (other : step ≠ .detach id ∧ step ≠ .close) :
    id ∈ (leaves (perform step) s).attached := by
  cases perform_turned step s with
  | switched same => rw [attached_of_status same]; exact before
  | attached i _ _ _ same => rw [attached_of_status same]; exact List.mem_append_left _ before
  | detached i how same =>
    rw [attached_of_status same, List.mem_filter]
    refine ⟨before, decide_eq_true fun same => other.1 ?_⟩
    rw [how, same]
  | closed how => exact absurd how other.2

/-- A buffer comes to be attached by being attached while it is open. -/
theorem attached_before (after : id ∈ (leaves (perform step) s).attached) :
    id ∈ s.attached ∨ step = .attach id ∧ s.host.isValid id = true := by
  cases perform_turned step s with
  | switched same => rw [attached_of_status same] at after; exact .inl after
  | attached i how _ isOpen same =>
    rw [attached_of_status same] at after
    refine (List.mem_append.1 after).imp_right fun new => ?_
    rw [List.mem_singleton.1 new]
    exact ⟨how, isOpen⟩
  | detached i _ same =>
    rw [attached_of_status same] at after
    exact .inl ((List.mem_filter.1 after).1)
  | closed _ same => rw [attached_of_status same] at after; cases after

end MessageLens.Session
