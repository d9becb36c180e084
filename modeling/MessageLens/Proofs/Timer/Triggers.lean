import Mathlib
import MessageLens.Proofs.Timer.Firing
import MessageLens.Proofs.Timer.History
import MessageLens.Proofs.Timer.Marks

/-!
# The latest trigger wins

A debouncer is recorded together with the triggers, the cancellations and the calls that it has
seen. The mark of a context names its latest trigger, unless that has been withdrawn: by another
trigger, by a cancellation, or by firing. So a callback that is called belongs to the latest trigger
of its context, also when callbacks trigger and cancel contexts and run what is due themselves.
-/

namespace MessageLens
set_option autoImplicit false

open Operation

variable {τ κ α ρ ε β : Type}

/-- What is done with the contexts of a debouncer. -/
inductive TriggerEvent (τ κ α : Type) where
  | triggered (context : κ) (id : TimerId)
  | cancelled (context : κ)
  | cancelledAll
  /-- The callback of a timer is called. -/
  | called (t : Timer τ (Job κ α))

namespace TriggerEvent

/-- The event takes back an earlier trigger of the context. -/
def Withdraws (context : κ) : TriggerEvent τ κ α → Prop
  | triggered context' _ => context' = context
  | cancelled context' => context' = context
  | cancelledAll => True
  | called _ => False

/-- The timer is of the latest trigger of the context, which has not been taken back. -/
def Latest (context : κ) (id : TimerId) (h : List (TriggerEvent τ κ α)) : Prop :=
  ∃ before after, h = before ++ triggered context id :: after ∧
    ∀ e ∈ after, ¬ e.Withdraws context

/-- A callback is called once, and while the trigger of its timer is the latest of its context. -/
def CalledInTurn (h : List (TriggerEvent τ κ α)) : Prop :=
  ∀ before t after, h = before ++ called t :: after →
    (∀ t', called t' ∈ before → t'.id ≠ t.id) ∧
    ∀ context, t.task.context = some context → Latest context t.id before

variable {h : List (TriggerEvent τ κ α)} {e : TriggerEvent τ κ α} {c : κ} {id : TimerId}

theorem Latest.snoc (latest : Latest c id h) (stays : ¬ e.Withdraws c) :
    Latest c id (h ++ [e]) := by
  obtain ⟨before, after, rfl, none⟩ := latest
  refine ⟨before, after ++ [e], by simp, fun e' mem => ?_⟩
  obtain mem | mem := List.mem_append.1 mem
  · exact none e' mem
  · exact List.mem_singleton.1 mem ▸ stays

theorem Latest.triggered : Latest c id (h ++ [.triggered c id]) :=
  ⟨h, [], rfl, fun _ mem => by cases mem⟩

theorem CalledInTurn.snoc (inTurn : CalledInTurn h)
    (last : ∀ t, e = .called t → (∀ t', .called t' ∈ h → t'.id ≠ t.id) ∧
      ∀ c, t.task.context = some c → Latest c t.id h) : CalledInTurn (h ++ [e]) := by
  intro before t after split
  obtain ⟨rfl, same, -⟩ | ⟨after', rfl, -⟩ := snoc_split split
  · exact last t same.symm
  · exact inTurn before t after' rfl

end TriggerEvent

namespace Debouncer

open TriggerEvent

/-- A debouncer with the history of what has been done with it, in a program with other data. -/
structure Recorded (τ κ α ρ : Type) where
  debouncer : Debouncer τ κ α
  history : List (TriggerEvent τ κ α)
  rest : ρ

namespace Recorded

/-- The place of the debouncer. -/
def timers : Focus (Recorded τ κ α ρ) (Debouncer τ κ α) where
  get := debouncer
  put r d := { r with debouncer := d }

/-- Adds an event to the history. -/
def note (e : TriggerEvent τ κ α) : Operation ε (Recorded τ κ α ρ) Unit :=
  modify fun r => { r with history := r.history ++ [e] }

/-- Nothing has been done with the debouncer yet. -/
structure IsNew (r : Recorded τ κ α ρ) : Prop where
  debouncer : r.debouncer = { scheduler := { now := r.debouncer.scheduler.now } }
  history : r.history = []

/-- Cancels a timer that has been scheduled, by the scheduler itself. It is not the outstanding
timer of a context: that one is cancelled by way of the context. -/
def cancelTimer (id : TimerId) : Operation ε (Recorded τ κ α ρ) Unit := do
  let d := (← get).debouncer
  if id < d.scheduler.issued ∧ ∀ e ∈ d.handles.entries, e.2 ≠ id then
    timers.change fun d => { d with scheduler := d.scheduler.cancel id }

variable [DecidableEq κ]

/-- Cancels the outstanding timer of a context. -/
def cancel (context : κ) : Operation ε (Recorded τ κ α ρ) Unit := do
  timers.change (·.cancel context)
  note (.cancelled context)

/-- Cancels the outstanding timers of all contexts. -/
def cancelAll : Operation ε (Recorded τ κ α ρ) Unit := do
  timers.change (·.cancelAll)
  note .cancelledAll

variable [Instant τ]

/-- Schedules a task that belongs to no context. -/
def schedule (delayMs : Int) (task : α) : Operation ε (Recorded τ κ α ρ) TimerId :=
  timers.update (·.schedule delayMs task)

/-- Schedules a task for a context in place of the outstanding one. -/
def trigger (context : κ) (delayMs : Int) (task : α) : Operation ε (Recorded τ κ α ρ) TimerId := do
  let id ← timers.update (·.trigger context delayMs task)
  note (.triggered context id)
  return id

/-- Runs what is due, given what the callbacks do. -/
def runDue (callback : Timer τ (Job κ α) → Operation ε (Recorded τ κ α ρ) Unit) :
    Operation ε (Recorded τ κ α ρ) Nat :=
  Debouncer.runDue timers fun t => do
    note (.called t)
    callback t

/-- What a user of the debouncer may do, in and outside of callbacks: anything that has nothing to
do with it, and its calls in any order, for any contexts. Callbacks may depend on the whole state. -/
inductive Program : {β : Type} → Operation ε (Recorded τ κ α ρ) β → Prop where
  | elsewhere {β : Type} {x : Operation ε (Recorded τ κ α ρ) β}
      (keeps : Keeps (fun r => (r.debouncer, r.history)) x) : Program x
  | bind {β γ : Type} {x : Operation ε (Recorded τ κ α ρ) β}
      {k : β → Operation ε (Recorded τ κ α ρ) γ} (first : Program x)
      (later : ∀ b, Program (k b)) : Program (x >>= k)
  | advance (ms : Int) : Program (timers.change (·.advance ms))
  | schedule (delayMs : Int) (task : α) : Program (schedule delayMs task)
  | cancelTimer (id : TimerId) : Program (cancelTimer id)
  | trigger (context : κ) (delayMs : Int) (task : α) : Program (trigger context delayMs task)
  | cancel (context : κ) : Program (cancel context)
  | cancelAll : Program cancelAll
  | runDue {callback : Timer τ (Job κ α) → Operation ε (Recorded τ κ α ρ) Unit}
      (callbacks : ∀ t, Program (callback t)) : Program (runDue callback)

/-! ## Marks name the latest triggers -/

/-- The marks of contexts are those of their latest triggers, and what has been called has fired;
`flight` holds the timers of the batches in progress that have not been come to yet. -/
structure Followed (flight : List (Timer τ (Job κ α))) (r : Recorded τ κ α ρ) : Prop where
  sound : r.debouncer.Sound flight
  tight : r.debouncer.Tight flight
  latest : ∀ c id, r.debouncer.handles.get? c = some id → Latest c id r.history
  fired : ∀ t, .called t ∈ r.history → t.id ∈ r.debouncer.scheduler.fired
  inTurn : CalledInTurn r.history

namespace Followed

variable {flight rest : List (Timer τ (Job κ α))} {r r' : Recorded τ κ α ρ}
  {t : Timer τ (Job κ α)} {c : κ} {id : TimerId}

section Plain

omit [Instant τ]

theorem start (new : r.IsNew) : Followed [] r := by
  obtain ⟨debouncer, history⟩ := new
  refine ⟨debouncer ▸ .start _, debouncer ▸ .start _, fun c id marked => ?_, fun t mem => ?_,
    fun before t after split => ?_⟩
  · rw [debouncer] at marked
    cases marked
  · rw [history] at mem
    cases mem
  · rw [history] at split
    simp at split

/-- What has nothing to do with the debouncer changes no mark. -/
theorem congr (followed : Followed flight r)
    (same : (r'.debouncer, r'.history) = (r.debouncer, r.history)) : Followed flight r' := by
  obtain ⟨debouncer, history, rest⟩ := r
  obtain ⟨debouncer', history', rest'⟩ := r'
  obtain ⟨rfl, rfl⟩ := Prod.mk.inj same
  exact ⟨followed.sound, followed.tight, followed.latest, followed.fired, followed.inTurn⟩

theorem cancelTimer (followed : Followed flight r) (known : id < r.debouncer.scheduler.issued)
    (unmarked : ∀ e ∈ r.debouncer.handles.entries, e.2 ≠ id) :
    Followed flight { r with debouncer :=
      { r.debouncer with scheduler := r.debouncer.scheduler.cancel id } } := by
  have other : ∀ c, r.debouncer.handles.get? c ≠ some id :=
    fun c marked => unmarked _ (Table.mem_entries_of_get? marked) rfl
  exact ⟨followed.sound.cancelTimer known other, followed.tight.cancelTimer fun _ _ _ held => held,
    followed.latest, followed.fired, followed.inTurn⟩

theorem cancel (followed : Followed flight r) : Followed flight { r with
    debouncer := r.debouncer.cancel c, history := r.history ++ [.cancelled c] } := by
  refine ⟨followed.sound.cancel c, followed.tight.cancel c, fun c' id marked => ?_,
    fun t mem => ?_, followed.inTurn.snoc fun _ same => by cases same⟩
  · rw [get?_cancel] at marked
    by_cases own : c' = c
    · rw [if_pos own] at marked
      cases marked
    · rw [if_neg own] at marked
      exact (followed.latest c' id marked).snoc fun same => own same.symm
  · simp only [List.mem_append, List.mem_singleton, reduceCtorEq, or_false] at mem
    rw [fired_cancel]
    exact followed.fired t mem

theorem cancelAll (followed : Followed flight r) : Followed flight { r with
    debouncer := r.debouncer.cancelAll, history := r.history ++ [.cancelledAll] } := by
  refine ⟨followed.sound.cancelAll, followed.tight.cancelAll, fun c id marked => ?_,
    fun t mem => ?_, followed.inTurn.snoc fun _ same => by cases same⟩
  · rw [get?_cancelAll] at marked
    cases marked
  · simp only [List.mem_append, List.mem_singleton, reduceCtorEq, or_false] at mem
    rw [fired_cancelAll]
    exact followed.fired t mem

/-- A timer that cannot fire any more is passed over. -/
theorem skip (followed : Followed (t :: flight) r)
    (inactive : r.debouncer.scheduler.isActive t.id = false) : Followed flight r :=
  ⟨followed.sound.skip (Bool.eq_false_iff.1 inactive), followed.tight.skip, followed.latest,
    followed.fired, followed.inTurn⟩

/-- A timer that can fire is the one that marks its context, so it is of the latest trigger. -/
theorem call (followed : Followed (t :: flight) r)
    (active : r.debouncer.scheduler.isActive t.id = true) :
    Followed flight { r with
      debouncer := Debouncer.release
        { r.debouncer with scheduler := r.debouncer.scheduler.markFired t.id } t
      history := r.history ++ [.called t] } := by
  have head : t ∈ r.debouncer.scheduler.pending ++ t :: flight := by simp
  refine ⟨followed.sound.fire, followed.tight.fire, fun c id marked => ?_, fun t' mem => ?_,
    followed.inTurn.snoc fun t' same => ?_⟩
  · rw [get?_release] at marked
    split at marked
    · cases marked
    · exact (followed.latest c id marked).snoc not_false
  · rw [release_scheduler]
    simp only [List.mem_append, List.mem_singleton, called.injEq] at mem
    obtain old | rfl := mem
    · exact List.mem_cons_of_mem _ (followed.fired t' old)
    · exact List.mem_cons_self
  · cases same
    refine ⟨fun t' old same => ?_, fun c own => ?_⟩
    · have spent := followed.fired t' old
      rw [same] at spent
      simp [Scheduler.isActive, spent] at active
    · exact followed.latest c t.id (followed.tight.owner t head active c own)

end Plain

theorem schedule (followed : Followed flight r) {delayMs : Int} {task : α} :
    Followed flight { r with debouncer := (r.debouncer.schedule delayMs task).2 } :=
  ⟨followed.sound.schedule delayMs ⟨none, task⟩,
    followed.tight.schedule followed.sound delayMs (fun _ own => by cases own) fun _ _ held => held,
    followed.latest, followed.fired, followed.inTurn⟩

theorem trigger (followed : Followed flight r) {delayMs : Int} {task : α} :
    Followed flight { r with
      debouncer := (r.debouncer.trigger c delayMs task).2
      history := r.history ++ [.triggered c (r.debouncer.trigger c delayMs task).1] } := by
  refine ⟨followed.sound.trigger c delayMs task,
    followed.tight.trigger followed.sound c delayMs task, fun c' id marked => ?_,
    fun t mem => ?_, followed.inTurn.snoc fun _ same => by cases same⟩
  · rw [get?_trigger] at marked
    by_cases own : c' = c
    · rw [if_pos own] at marked
      obtain rfl := Option.some.inj marked
      rw [own]
      exact .triggered
    · rw [if_neg own] at marked
      exact (followed.latest c' id marked).snoc fun same => own same.symm
  · simp only [List.mem_append, List.mem_singleton, reduceCtorEq, or_false] at mem
    have kept : t.id ∈ (r.debouncer.cancel c).scheduler.fired := by
      rw [fired_cancel]
      exact followed.fired t mem
    exact kept

theorem advance (followed : Followed flight r) (ms : Int) :
    Followed flight { r with debouncer := r.debouncer.advance ms } :=
  ⟨followed.sound.advance ms, followed.tight.advance ms, followed.latest, followed.fired,
    followed.inTurn⟩

/-- A run begins by taking what is due off the pending list. -/
theorem begin (followed : Followed flight r) :
    Followed (r.debouncer.scheduler.takeDue.1 ++ flight) { r with debouncer :=
      { r.debouncer with scheduler := r.debouncer.scheduler.takeDue.2 } } :=
  ⟨followed.sound.takeDue, followed.tight.takeDue, followed.latest, followed.fired,
    followed.inTurn⟩

end Followed

/-- Programs keep the marks of contexts at their latest triggers, whatever batches are in progress
around them. -/
theorem Program.followed {x : Operation ε (Recorded τ κ α ρ) β} (program : Program x) :
    ∀ {flight : List (Timer τ (Job κ α))} {r r' : Recorded τ κ α ρ} {b : β},
      Followed flight r → x r = .ok b r' → Followed flight r' := by
  induction program with
  | elsewhere keeps =>
    intro flight r r' b followed run
    exact followed.congr (keeps.ok run)
  | bind _ _ first later =>
    intro flight r r' c followed run
    obtain ⟨b, r₁, run₁, run₂⟩ := bind_ok.1 run
    exact later b (first followed run₁) run₂
  | advance ms =>
    intro flight r r' b followed run
    obtain rfl := change_ok.1 run
    exact followed.advance ms
  | schedule delayMs task =>
    intro flight r r' id followed run
    obtain ⟨-, rfl⟩ := update_ok.1 run
    exact followed.schedule
  | cancelTimer id =>
    intro flight r r' b followed run
    simp only [Recorded.cancelTimer, bind_ok, get_ok, exists_both_eq, ite_ok, change_ok,
      pure_ok] at run
    obtain ⟨⟨known, unmarked⟩, rfl⟩ | ⟨-, -, rfl⟩ := run
    · exact followed.cancelTimer known unmarked
    · exact followed
  | trigger context delayMs task =>
    intro flight r r' id followed run
    simp only [Recorded.trigger, note, bind_ok, update_ok, exists_both_eq, modify_ok,
      exists_unit_eq, pure_ok] at run
    obtain ⟨-, rfl⟩ := run
    exact followed.trigger
  | cancel context =>
    intro flight r r' b followed run
    simp only [Recorded.cancel, note, bind_ok, change_ok, exists_unit_eq, modify_ok] at run
    obtain rfl := run
    exact followed.cancel
  | cancelAll =>
    intro flight r r' b followed run
    simp only [Recorded.cancelAll, note, bind_ok, change_ok, exists_unit_eq, modify_ok] at run
    obtain rfl := run
    exact followed.cancelAll
  | runDue _ callbacks =>
    intro flight r r' n followed run
    simp only [Recorded.runDue, Debouncer.runDue, Scheduler.runDue, bind_ok, update_ok,
      exists_both_eq] at run
    refine Scheduler.runBatch_preserves (I := fun rest r => Followed (rest ++ flight) r)
      (fun t rest s followed inactive => followed.skip inactive)
      (fun t rest s s' followed active fired => ?_) followed.begin run
    simp only [note, bind_ok, change_ok, exists_unit_eq, modify_ok] at fired
    exact callbacks t (followed.call active) fired

/-- Outside of batches a context is marked as pending exactly when one timer of its own is pending
and can still fire, there is never more than one, and it is of the latest trigger of the context,
which has not been cancelled; every callback is called once at most, and if it belongs to a context,
with no trigger and no cancellation of the context since its own trigger. -/
theorem latest_trigger_wins {r₀ r : Recorded τ κ α ρ} {b : β}
    {x : Operation ε (Recorded τ κ α ρ) β} (new : r₀.IsNew) (program : Program x)
    (run : x r₀ = .ok b r) :
    (∀ c, (r.debouncer.isPending c = true ↔ ∃ t, r.debouncer.outstanding c = [t]) ∧
      (r.debouncer.outstanding c).length ≤ 1 ∧
      ∀ t ∈ r.debouncer.outstanding c, Latest c t.id r.history) ∧
    CalledInTurn r.history := by
  have followed := program.followed (.start new) run
  refine ⟨fun c => ⟨?_, followed.tight.outstanding_length, fun t mem => ?_⟩, followed.inTurn⟩
  · exact followed.tight.isPending_iff followed.sound
  · exact followed.latest c t.id (followed.tight.mark_of_outstanding mem)

/-- A callback of the context "a" triggers its own context and that of "b", cancels "c" and runs
what is due. -/
def retrigger (t : Timer Int (Job String Nat)) : Operation Unit (Recorded Int String Nat Unit) Unit :=
  if t.task.context = some "a" ∧ t.task.task = 2 then do
    let _ ← trigger "a" 20 4
    let _ ← trigger "b" 0 5
    cancel "c"
    let _ ← runDue fun _ => pure ()
  else pure ()

/-- Three contexts are triggered, one of them twice, and what is due is run. -/
def retriggered : Operation Unit (Recorded Int String Nat Unit) Unit := do
  let _ ← trigger "a" 5 0
  let _ ← schedule 5 1
  let _ ← trigger "a" 5 2
  let _ ← trigger "b" 6 3
  let _ ← trigger "c" 7 6
  timers.change (·.advance 10)
  let _ ← runDue retrigger

theorem retrigger_program (t : Timer Int (Job String Nat)) : Program (retrigger t) := by
  have idle : Program (pure () : Operation Unit (Recorded Int String Nat Unit) Unit) :=
    .elsewhere (.pure ())
  rw [retrigger]
  split
  · refine .bind (.trigger _ _ _) fun _ => .bind (.trigger _ _ _) fun _ =>
      .bind (.cancel _) fun _ => ?_
    exact .bind (.runDue fun _ => idle) fun _ => idle
  · exact idle

theorem retriggered_program : Program retriggered := by
  refine .bind (.trigger _ _ _) fun _ => .bind (.schedule _ _) fun _ =>
    .bind (.trigger _ _ _) fun _ => .bind (.trigger _ _ _) fun _ => .bind (.trigger _ _ _) fun _ =>
    .bind (.advance _) fun _ => ?_
  exact .bind (.runDue retrigger_program) fun _ => .elsewhere (.pure ())

/-- The timers of "a" and of the plain task fire, then that of the new trigger of "b"; the earlier
triggers of "a" and "b" and that of "c" do not, and "a" is pending again. -/
theorem latest_trigger_wins_retriggered :
    ∃ r, retriggered ⟨{ scheduler := { now := 0 } }, [], ()⟩ = .ok () r ∧
      r.debouncer.scheduler.fired = [6, 2, 1] ∧
      r.debouncer.isPending "a" = true ∧ r.debouncer.isPending "b" = false ∧
      (∀ c, (r.debouncer.isPending c = true ↔ ∃ t, r.debouncer.outstanding c = [t]) ∧
        (r.debouncer.outstanding c).length ≤ 1 ∧
        ∀ t ∈ r.debouncer.outstanding c, Latest c t.id r.history) ∧
      CalledInTurn r.history := by
  have evaluated : succeedsWith (fun _ r => r.debouncer.scheduler.fired = [6, 2, 1] ∧
      r.debouncer.isPending "a" = true ∧ r.debouncer.isPending "b" = false) retriggered
      ⟨{ scheduler := { now := 0 } }, [], ()⟩ = true := by cbv
  obtain ⟨⟨⟩, r, run, seen⟩ := ok_of_succeedsWith evaluated
  obtain ⟨fired, pending, free⟩ := of_decide_eq_true seen
  obtain ⟨marks, inTurn⟩ := latest_trigger_wins ⟨rfl, rfl⟩ retriggered_program run
  exact ⟨r, run, fired, pending, free, marks, inTurn⟩

end Recorded
end Debouncer
end MessageLens
