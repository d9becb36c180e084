import MessageLens.Proofs.Table
import MessageLens.Timer.Debouncer

/-!
# Outstanding timers

A context that is marked as pending has a timer of its own that can still fire: it is in the pending
list, or in the batch that is being fired and not yet passed. No operation on a debouncer loses the
timer of a context while the mark stays.
-/

namespace MessageLens
set_option autoImplicit false

variable {τ κ α : Type}

namespace Scheduler

variable {s : Scheduler τ α} {id id' : TimerId}

theorem isActive_cancel :
    (s.cancel id).isActive id' = true ↔ id' ≠ id ∧ s.isActive id' = true := by
  simp [isActive, cancel, and_assoc]

theorem isActive_markFired :
    (s.markFired id).isActive id' = true ↔ id' ≠ id ∧ s.isActive id' = true := by
  simp [isActive, markFired, and_left_comm]

theorem mem_cancel {t : Timer τ α} :
    t ∈ (s.cancel id).pending ↔ t ∈ s.pending ∧ t.id ≠ id := by
  simp [cancel]

theorem mem_takeDue [Instant τ] {t : Timer τ α} :
    t ∈ s.takeDue.2.pending ++ s.takeDue.1 ↔ t ∈ s.pending := by
  simp only [takeDue, dueTimers, List.mem_append, List.mem_filter, List.mem_mergeSort]
  cases s.isDue t <;> simp

end Scheduler

namespace Debouncer

variable [DecidableEq κ] {d : Debouncer τ κ α} {t : Timer τ (Job κ α)}
  {batch rest : List (Timer τ (Job κ α))} {c c' : κ}

/-! ## The marks of contexts -/

theorem get?_cancel :
    (d.cancel c).handles.get? c' = if c' = c then none else d.handles.get? c' := by
  rw [cancel]
  cases held : d.handles.get? c with
  | none =>
    by_cases h : c' = c
    · rw [if_pos h, h, held]
    · rw [if_neg h]
  | some id => exact Table.get?_erase ..

theorem get?_trigger [Instant τ] {delay : Int} {task : α} :
    (d.trigger c delay task).2.handles.get? c' =
      if c' = c then some (d.cancel c).scheduler.issued else d.handles.get? c' := by
  rw [trigger]
  simp only [Scheduler.schedule]
  rw [Table.get?_set, get?_cancel]
  by_cases h : c' = c <;> simp [h]

theorem get?_release :
    (d.release t).handles.get? c' =
      if t.task.context = some c' ∧ d.handles.get? c' = some t.id then none
      else d.handles.get? c' := by
  rw [release]
  cases owner : t.task.context with
  | none => simp
  | some c =>
    simp only [Option.some.injEq]
    by_cases own : d.handles.get? c = some t.id
    · rw [if_pos own, Table.get?_erase]
      by_cases h : c' = c
      · rw [if_pos h, if_pos ⟨h.symm, h ▸ own⟩]
      · rw [if_neg h, if_neg fun both => h both.1.symm]
    · rw [if_neg own, if_neg]
      rintro ⟨rfl, held⟩
      exact own held

theorem isPending_cancel :
    (d.cancel c).isPending c' = true ↔ c' ≠ c ∧ d.isPending c' = true := by
  rw [isPending, isPending, Table.contains, get?_cancel]
  by_cases h : c' = c <;> simp [h, Table.contains]

theorem isPending_trigger [Instant τ] {delay : Int} {task : α} :
    (d.trigger c delay task).2.isPending c' = true ↔ c' = c ∨ d.isPending c' = true := by
  rw [isPending, isPending, Table.contains, get?_trigger]
  by_cases h : c' = c <;> simp [h, Table.contains]

/-- A timer that fires frees no context but its own. -/
theorem isPending_release (other : t.task.context ≠ some c') :
    (d.release t).isPending c' = d.isPending c' := by
  rw [isPending, Table.contains, get?_release, if_neg fun both => other both.1]
  rfl

theorem release_scheduler : (d.release t).scheduler = d.scheduler := by
  rw [release]
  split
  · rfl
  · split <;> rfl

theorem mem_of_cancel (mem : t ∈ (d.cancel c).scheduler.pending) : t ∈ d.scheduler.pending := by
  rw [cancel] at mem
  split at mem
  · exact mem
  · exact (Scheduler.mem_cancel.1 mem).1

theorem mem_of_cancelAll (mem : t ∈ d.cancelAll.scheduler.pending) : t ∈ d.scheduler.pending := by
  rw [cancelAll] at mem
  generalize d.handles.keys = contexts at mem
  induction contexts generalizing d with
  | nil => exact mem
  | cons c rest ih => exact mem_of_cancel (ih mem)

theorem fired_cancel : (d.cancel c).scheduler.fired = d.scheduler.fired := by
  rw [cancel]
  split <;> rfl

theorem fired_cancelAll : d.cancelAll.scheduler.fired = d.scheduler.fired := by
  rw [cancelAll]
  induction d.handles.keys generalizing d with
  | nil => rfl
  | cons c rest ih => exact ih.trans fired_cancel

theorem mem_of_trigger [Instant τ] {delay : Int} {task : α}
    (mem : t ∈ (d.trigger c delay task).2.scheduler.pending) :
    t ∈ d.scheduler.pending ∨ t.task = ⟨some c, task⟩ := by
  rw [trigger] at mem
  simp only [Scheduler.schedule, List.mem_append, List.mem_singleton] at mem
  obtain old | new := mem
  · exact .inl (mem_of_cancel old)
  · exact .inr (congrArg Timer.task new)

/-! ## Every mark has its timer -/

/-- Of the timers that are outstanding, with `batch` those of a batch not yet passed, none shares
its number with another, and every context that is marked as pending has one that can still fire. -/
structure Sound (d : Debouncer τ κ α) (batch : List (Timer τ (Job κ α))) : Prop where
  issued : ∀ t ∈ d.scheduler.pending ++ batch, t.id < d.scheduler.issued
  same : ∀ t ∈ d.scheduler.pending ++ batch, ∀ t' ∈ d.scheduler.pending ++ batch,
    t.id = t'.id → t = t'
  spent : ∀ id, ¬ d.scheduler.isActive id = true → id < d.scheduler.issued
  held : ∀ c id, d.handles.get? c = some id → d.scheduler.isActive id = true ∧
    ∃ t ∈ d.scheduler.pending ++ batch, t.id = id ∧ t.task.context = some c

namespace Sound

theorem start (now : τ) : Sound ({ scheduler := { now := now } } : Debouncer τ κ α) [] where
  issued := by simp
  same := by simp
  spent := by simp [Scheduler.isActive]
  held c id marked := by cases marked

/-- Two contexts are not marked with the same timer. -/
theorem handles_inj (sound : d.Sound batch) {id : TimerId} (first : d.handles.get? c = some id)
    (second : d.handles.get? c' = some id) : c = c' := by
  obtain ⟨-, t, mem, number, owner⟩ := sound.held c id first
  obtain ⟨-, t', mem', number', owner'⟩ := sound.held c' id second
  obtain rfl := sound.same t mem t' mem' (number.trans number'.symm)
  exact Option.some.inj (owner.symm.trans owner')

/-- Cancelling a timer that marks no context takes no mark from its timer. -/
theorem cancelTimer (sound : d.Sound batch) {id : TimerId} (known : id < d.scheduler.issued)
    (unmarked : ∀ c, d.handles.get? c ≠ some id) :
    Sound { d with scheduler := d.scheduler.cancel id } batch := by
  have sub : ∀ t ∈ (d.scheduler.cancel id).pending ++ batch,
      t ∈ d.scheduler.pending ++ batch := fun t mem => by
    rw [List.mem_append, Scheduler.mem_cancel] at mem
    exact List.mem_append.2 (mem.imp_left And.left)
  refine ⟨fun t mem => sound.issued t (sub t mem),
    fun t mem t' mem' => sound.same t (sub t mem) t' (sub t' mem'), fun i inactive => ?_,
    fun c i held => ?_⟩
  · by_cases this : i = id
    · exact this ▸ known
    · exact sound.spent i fun active => inactive (Scheduler.isActive_cancel.2 ⟨this, active⟩)
  · have differ : i ≠ id := fun h => unmarked c (h ▸ held)
    obtain ⟨active, t, mem, number, owner⟩ := sound.held c i held
    refine ⟨Scheduler.isActive_cancel.2 ⟨differ, active⟩, t, ?_, number, owner⟩
    rw [List.mem_append, Scheduler.mem_cancel]
    exact (List.mem_append.1 mem).imp_left fun pending => ⟨pending, number ▸ differ⟩

theorem unmark (sound : d.Sound batch) (c : κ) :
    Sound { d with handles := d.handles.erase c } batch := by
  refine ⟨sound.issued, sound.same, sound.spent, fun c' i held => ?_⟩
  rw [Table.get?_erase] at held
  by_cases other : c' = c
  · rw [if_pos other] at held
    cases held
  · rw [if_neg other] at held
    exact sound.held c' i held

theorem cancel (sound : d.Sound batch) (c : κ) : (d.cancel c).Sound batch := by
  rw [Debouncer.cancel]
  cases marked : d.handles.get? c with
  | none => exact sound
  | some id =>
    obtain ⟨-, own, mem, number, -⟩ := sound.held c id marked
    have known : id < d.scheduler.issued := number ▸ sound.issued own mem
    refine (sound.unmark c).cancelTimer known fun c' held => ?_
    rw [Table.get?_erase] at held
    by_cases other : c' = c
    · rw [if_pos other] at held
      cases held
    · rw [if_neg other] at held
      exact other (sound.handles_inj held marked)

theorem cancelAll (sound : d.Sound batch) : d.cancelAll.Sound batch := by
  rw [Debouncer.cancelAll]
  induction d.handles.keys generalizing d with
  | nil => exact sound
  | cons c rest ih => exact ih (sound.cancel c)

theorem schedule [Instant τ] (sound : d.Sound batch) (delay : Int) (job : Job κ α) :
    Sound { d with scheduler := (d.scheduler.schedule delay job).2 } batch := by
  simp only [Scheduler.schedule]
  have mem_iff : ∀ t : Timer τ (Job κ α),
      t ∈ (d.scheduler.pending ++
        [⟨d.scheduler.issued, Instant.shift d.scheduler.now (max delay 0), job⟩]) ++ batch ↔
      t ∈ d.scheduler.pending ++ batch ∨
        t = ⟨d.scheduler.issued, Instant.shift d.scheduler.now (max delay 0), job⟩ := by
    intro t
    rw [List.mem_append, List.mem_append, List.mem_append, List.mem_singleton, or_right_comm]
  refine ⟨fun t mem => ?_, fun t mem t' mem' number => ?_, fun i inactive => ?_,
    fun c i held => ?_⟩
  · obtain old | rfl := (mem_iff t).1 mem
    · exact Nat.lt_succ_of_lt (sound.issued t old)
    · exact Nat.lt_succ_self _
  · obtain old | rfl := (mem_iff t).1 mem <;> obtain old' | rfl := (mem_iff t').1 mem'
    · exact sound.same t old t' old' number
    · exact absurd number (Nat.ne_of_lt (sound.issued t old))
    · exact absurd number.symm (Nat.ne_of_lt (sound.issued t' old'))
    · rfl
  · exact Nat.lt_succ_of_lt (sound.spent i inactive)
  · obtain ⟨active, t, mem, found⟩ := sound.held c i held
    exact ⟨active, t, (mem_iff t).2 (.inl mem), found⟩

/-- The number that the next timer gets has not been used up. -/
theorem isActive_issued (sound : d.Sound batch) :
    d.scheduler.isActive d.scheduler.issued = true := by
  refine Decidable.byContradiction fun inactive => ?_
  exact Nat.lt_irrefl _ (sound.spent _ inactive)

theorem trigger [Instant τ] (sound : d.Sound batch) (c : κ) (delay : Int) (task : α) :
    (d.trigger c delay task).2.Sound batch := by
  have active := (sound.cancel c).isActive_issued
  have scheduled := (sound.cancel c).schedule delay ⟨some c, task⟩
  rw [Debouncer.trigger]
  generalize d.cancel c = e at active scheduled ⊢
  refine ⟨scheduled.issued, scheduled.same, scheduled.spent, fun c' i held => ?_⟩
  by_cases own : c' = c
  · rw [own, Table.get?_set_self, Option.some.injEq] at held
    refine ⟨held ▸ active, ⟨_, Instant.shift e.scheduler.now (max delay 0), ⟨some c, task⟩⟩, ?_,
      held, by rw [own]⟩
    simp [Scheduler.schedule]
  · rw [Table.get?_set_ne _ own] at held
    exact scheduled.held c' i held

theorem advance [Instant τ] (sound : d.Sound batch) (ms : Int) : (d.advance ms).Sound batch :=
  ⟨sound.issued, sound.same, sound.spent, sound.held⟩

/-- What is taken off the pending list for a batch goes before what is in batches already. -/
theorem takeDue [Instant τ] (sound : d.Sound batch) :
    Sound { d with scheduler := d.scheduler.takeDue.2 } (d.scheduler.takeDue.1 ++ batch) := by
  have mem_iff : ∀ t, t ∈ d.scheduler.takeDue.2.pending ++ (d.scheduler.takeDue.1 ++ batch) ↔
      t ∈ d.scheduler.pending ++ batch := fun t => by
    rw [← List.append_assoc, List.mem_append, Scheduler.mem_takeDue, List.mem_append]
  refine ⟨fun t mem => sound.issued t ((mem_iff t).1 mem),
    fun t mem t' mem' => sound.same t ((mem_iff t).1 mem) t' ((mem_iff t').1 mem'), sound.spent,
    fun c id held => ?_⟩
  obtain ⟨active, t, mem, found⟩ := sound.held c id held
  exact ⟨active, t, (mem_iff t).2 mem, found⟩

/-- A timer that can fire gives its context free when it does. -/
theorem fire (sound : d.Sound (t :: rest)) :
    (Debouncer.release { d with scheduler := d.scheduler.markFired t.id } t).Sound rest := by
  have sub : ∀ t' ∈ d.scheduler.pending ++ rest, t' ∈ d.scheduler.pending ++ t :: rest :=
    fun t' mem => by
      rw [List.mem_append] at mem ⊢
      exact mem.imp_right (List.mem_cons_of_mem t)
  have head : t ∈ d.scheduler.pending ++ t :: rest := by simp
  refine ⟨?_, ?_, ?_, fun c' i held => ?_⟩
  · rw [release_scheduler]
    exact fun t' mem => sound.issued t' (sub t' mem)
  · rw [release_scheduler]
    exact fun t' mem t'' mem' => sound.same t' (sub t' mem) t'' (sub t'' mem')
  · rw [release_scheduler]
    intro i inactive
    by_cases this : i = t.id
    · exact this ▸ sound.issued t head
    · exact sound.spent i fun active => inactive (Scheduler.isActive_markFired.2 ⟨this, active⟩)
  · rw [get?_release] at held
    rw [release_scheduler]
    split at held
    · cases held
    · rename_i kept
      obtain ⟨active, t', mem, number, owner⟩ := sound.held c' i held
      have differ : i ≠ t.id := by
        rintro rfl
        obtain rfl := sound.same t' mem t head number
        exact kept ⟨owner, held⟩
      refine ⟨Scheduler.isActive_markFired.2 ⟨differ, active⟩, t', ?_, number, owner⟩
      have other : t' ≠ t := fun h => differ (h ▸ number.symm)
      simp only [List.mem_append, List.mem_cons, other, false_or] at mem
      exact List.mem_append.2 mem

/-- A timer that cannot fire any more marks no context. -/
theorem skip (sound : d.Sound (t :: rest)) (inactive : ¬ d.scheduler.isActive t.id = true) :
    d.Sound rest := by
  have sub : ∀ t' ∈ d.scheduler.pending ++ rest, t' ∈ d.scheduler.pending ++ t :: rest :=
    fun t' mem => by
      rw [List.mem_append] at mem ⊢
      exact mem.imp_right (List.mem_cons_of_mem t)
  refine ⟨fun t' mem => sound.issued t' (sub t' mem),
    fun t' mem t'' mem' => sound.same t' (sub t' mem) t'' (sub t'' mem'), sound.spent,
    fun c' i held => ?_⟩
  obtain ⟨active, t', mem, number, owner⟩ := sound.held c' i held
  have other : t' ≠ t := fun h => inactive (h ▸ number ▸ active)
  simp only [List.mem_append, List.mem_cons, other, false_or] at mem
  exact ⟨active, t', List.mem_append.2 mem, number, owner⟩

/-- Outside of a batch a context is marked as pending exactly when a timer of its own is pending. -/
theorem isPending_iff (sound : d.Sound []) : d.isPending c = true ↔
    ∃ t ∈ d.scheduler.pending, t.task.context = some c ∧ d.handles.get? c = some t.id := by
  rw [isPending, Table.contains_iff]
  constructor
  · rintro ⟨id, marked⟩
    obtain ⟨-, t, mem, number, owner⟩ := sound.held c id marked
    rw [List.append_nil] at mem
    exact ⟨t, mem, owner, number ▸ marked⟩
  · rintro ⟨t, -, -, marked⟩
    exact ⟨t.id, marked⟩

end Sound

end Debouncer

end MessageLens
