import MessageLens.Proofs.Timer.Debouncer

/-!
# Every timer has its mark

A timer of a context that can still fire is the one that marks its context, so no context has two
of them. The pending list holds no timer that cannot fire any more. Together with soundness the
marks of contexts and the timers that can fire are in one-to-one correspondence.
-/

namespace MessageLens
set_option autoImplicit false

variable {τ κ α : Type}

namespace Scheduler

/-- A batch is taken off the pending list without losing or doubling a timer. -/
theorem takeDue_perm [Instant τ] (s : Scheduler τ α) :
    (s.takeDue.2.pending ++ s.takeDue.1).Perm s.pending := by
  have sorted : s.takeDue.1.Perm (s.pending.filter s.isDue) := List.mergeSort_perm _ _
  have parts := List.filter_append_perm s.isDue s.pending
  exact (sorted.append_left _).trans (List.perm_append_comm.trans parts)

end Scheduler

namespace Debouncer

variable [DecidableEq κ] {d : Debouncer τ κ α} {t : Timer τ (Job κ α)}
  {batch rest : List (Timer τ (Job κ α))} {c c' : κ} {id : TimerId}

theorem get?_cancelAll : d.cancelAll.handles.get? c = none := by
  have all : ∀ (contexts : List κ) (d : Debouncer τ κ α),
      (d.handles.get? c = none ∨ c ∈ contexts) →
      (contexts.foldl Debouncer.cancel d).handles.get? c = none := by
    intro contexts
    induction contexts with
    | nil =>
      intro d free
      obtain free | listed := free
      · exact free
      · cases listed
    | cons c' rest ih =>
      intro d free
      refine ih (d.cancel c') ?_
      rw [get?_cancel]
      by_cases this : c = c'
      · exact .inl (if_pos this)
      · rw [if_neg this]
        exact free.imp_right fun listed => (List.mem_cons.1 listed).resolve_left this
  refine all d.handles.keys d ?_
  cases marked : d.handles.get? c with
  | none => exact .inl rfl
  | some id =>
    exact .inr (List.mem_map.2 ⟨(c, id), Table.mem_entries_of_get? marked, rfl⟩)

theorem now_cancel : (d.cancel c).scheduler.now = d.scheduler.now := by
  rw [cancel]
  split <;> rfl

/-- No timer is outstanding twice, pending timers can fire, and an outstanding timer of a context
that can fire marks it. -/
structure Tight (d : Debouncer τ κ α) (batch : List (Timer τ (Job κ α))) : Prop where
  distinct : (d.scheduler.pending ++ batch).Pairwise (·.id ≠ ·.id)
  live : ∀ t ∈ d.scheduler.pending, d.scheduler.isActive t.id = true
  owner : ∀ t ∈ d.scheduler.pending ++ batch, d.scheduler.isActive t.id = true →
    ∀ c, t.task.context = some c → d.handles.get? c = some t.id

/-- The pending timers of a context that can still fire. -/
def outstanding (d : Debouncer τ κ α) (context : κ) : List (Timer τ (Job κ α)) :=
  d.scheduler.pending.filter fun t =>
    t.task.context = some context ∧ d.scheduler.isActive t.id = true

theorem mem_outstanding : t ∈ d.outstanding c ↔ t ∈ d.scheduler.pending ∧
    t.task.context = some c ∧ d.scheduler.isActive t.id = true := by
  rw [outstanding, List.mem_filter, decide_eq_true_eq]

namespace Tight

theorem start (now : τ) : Tight ({ scheduler := { now := now } } : Debouncer τ κ α) [] where
  distinct := .nil
  live _ mem := by cases mem
  owner _ mem := by cases mem

/-- A timer is cancelled together with the marks that it has. -/
theorem cancelTimer (tight : d.Tight batch) {handles : Table κ TimerId}
    (kept : ∀ c id', id' ≠ id → d.handles.get? c = some id' → handles.get? c = some id') :
    Tight { scheduler := d.scheduler.cancel id, handles := handles } batch := by
  have sub : ((d.scheduler.cancel id).pending ++ batch).Sublist (d.scheduler.pending ++ batch) :=
    List.filter_sublist.append_right batch
  refine ⟨tight.distinct.sublist sub, fun t mem => ?_, fun t mem active c own => ?_⟩
  · obtain ⟨pending, other⟩ := Scheduler.mem_cancel.1 mem
    exact Scheduler.isActive_cancel.2 ⟨other, tight.live t pending⟩
  · obtain ⟨other, active⟩ := Scheduler.isActive_cancel.1 active
    exact kept c t.id other (tight.owner t (sub.subset mem) active c own)

theorem cancel (tight : d.Tight batch) (c : κ) : (d.cancel c).Tight batch := by
  rw [Debouncer.cancel]
  cases marked : d.handles.get? c with
  | none => exact tight
  | some id =>
    refine tight.cancelTimer fun c' id' other held => ?_
    rw [Table.get?_erase, if_neg, held]
    rintro rfl
    exact other (Option.some.inj (held.symm.trans marked))

theorem cancelAll (tight : d.Tight batch) : d.cancelAll.Tight batch := by
  rw [Debouncer.cancelAll]
  induction d.handles.keys generalizing d with
  | nil => exact tight
  | cons c rest ih => exact ih (tight.cancel c)

/-- A timer is scheduled and marks its context, if it has one and the context is free. -/
theorem schedule [Instant τ] (tight : d.Tight batch) (sound : d.Sound batch) (delay : Int)
    {job : Job κ α} {handles : Table κ TimerId}
    (own : ∀ c, job.context = some c → handles.get? c = some d.scheduler.issued)
    (kept : ∀ c id', d.handles.get? c = some id' → handles.get? c = some id') :
    Tight { scheduler := (d.scheduler.schedule delay job).2, handles := handles } batch := by
  have older : ∀ t ∈ d.scheduler.pending ++ batch, t.id ≠ d.scheduler.issued :=
    fun t mem => Nat.ne_of_lt (sound.issued t mem)
  have active := sound.isActive_issued
  simp only [Scheduler.schedule]
  refine ⟨?_, fun t mem => ?_, fun t mem active' c context => ?_⟩
  · rw [List.append_assoc, List.pairwise_append]
    obtain ⟨first, second, apart⟩ := List.pairwise_append.1 tight.distinct
    refine ⟨first, List.pairwise_cons.2 ⟨fun t mem => ?_, second⟩, fun t mem t' mem' => ?_⟩
    · exact (older t (List.mem_append_right _ mem)).symm
    · obtain rfl | old := List.mem_cons.1 mem'
      · exact older t (List.mem_append_left _ mem)
      · exact apart t mem t' old
  · obtain old | new := List.mem_append.1 mem
    · exact tight.live t old
    · obtain rfl := List.mem_singleton.1 new
      exact active
  · rw [List.append_assoc, List.mem_append, List.mem_append, List.mem_singleton] at mem
    obtain old | rfl | old := mem
    · exact kept c _ (tight.owner t (List.mem_append_left _ old) active' c context)
    · exact own c context
    · exact kept c _ (tight.owner t (List.mem_append_right _ old) active' c context)

theorem trigger [Instant τ] (tight : d.Tight batch) (sound : d.Sound batch) (c : κ) (delay : Int)
    (task : α) : (d.trigger c delay task).2.Tight batch := by
  have free : (d.cancel c).handles.get? c = none := by rw [get?_cancel, if_pos rfl]
  refine (tight.cancel c).schedule (sound.cancel c) delay (fun c' own => ?_) fun c' id' held => ?_
  · rw [← Option.some.inj own, Table.get?_set_self]
  · rw [Table.get?_set_ne, held]
    rintro rfl
    rw [free] at held
    cases held

theorem advance [Instant τ] (tight : d.Tight batch) (ms : Int) : (d.advance ms).Tight batch :=
  ⟨tight.distinct, tight.live, tight.owner⟩

theorem takeDue [Instant τ] (tight : d.Tight batch) :
    Tight { d with scheduler := d.scheduler.takeDue.2 } (d.scheduler.takeDue.1 ++ batch) := by
  have perm : (d.scheduler.takeDue.2.pending ++ (d.scheduler.takeDue.1 ++ batch)).Perm
      (d.scheduler.pending ++ batch) := by
    rw [← List.append_assoc]
    exact d.scheduler.takeDue_perm.append_right batch
  refine ⟨?_, fun t mem => ?_, fun t mem => tight.owner t (perm.subset mem)⟩
  · exact (perm.pairwise_iff fun differ => differ.symm).2 tight.distinct
  · exact tight.live t (List.mem_filter.1 mem).1

/-- A timer that fires has marked its context, and marks it no longer. -/
theorem fire (tight : d.Tight (t :: rest)) :
    (Debouncer.release { d with scheduler := d.scheduler.markFired t.id } t).Tight rest := by
  have sub : (d.scheduler.pending ++ rest).Sublist (d.scheduler.pending ++ t :: rest) :=
    (List.sublist_cons_self t rest).append_left _
  refine ⟨?_, ?_, ?_⟩
  · rw [release_scheduler]
    exact tight.distinct.sublist sub
  · rw [release_scheduler]
    intro t' mem
    have differ := (List.pairwise_append.1 tight.distinct).2.2 t' mem t List.mem_cons_self
    exact Scheduler.isActive_markFired.2 ⟨differ, tight.live t' mem⟩
  · rw [release_scheduler]
    intro t' mem active c own
    obtain ⟨other, active⟩ := Scheduler.isActive_markFired.1 active
    have held := tight.owner t' (sub.subset mem) active c own
    rw [get?_release, if_neg, held]
    rintro ⟨-, held'⟩
    exact other (Option.some.inj (held.symm.trans held'))

/-- A timer that cannot fire any more is passed over. -/
theorem skip (tight : d.Tight (t :: rest)) : d.Tight rest := by
  have sub : (d.scheduler.pending ++ rest).Sublist (d.scheduler.pending ++ t :: rest) :=
    (List.sublist_cons_self t rest).append_left _
  exact ⟨tight.distinct.sublist sub, tight.live, fun t' mem => tight.owner t' (sub.subset mem)⟩

theorem mark_of_outstanding (tight : d.Tight batch) (mem : t ∈ d.outstanding c) :
    d.handles.get? c = some t.id := by
  obtain ⟨pending, own, active⟩ := mem_outstanding.1 mem
  exact tight.owner t (List.mem_append_left _ pending) active c own

/-- No context has two timers. -/
theorem outstanding_length (tight : d.Tight batch) : (d.outstanding c).length ≤ 1 := by
  have distinct : (d.outstanding c).Pairwise (·.id ≠ ·.id) :=
    (List.pairwise_append.1 tight.distinct).1.sublist List.filter_sublist
  have marks : ∀ t ∈ d.outstanding c, d.handles.get? c = some t.id :=
    fun t mem => tight.mark_of_outstanding mem
  cases timers : d.outstanding c with
  | nil => exact Nat.zero_le 1
  | cons t rest =>
    cases rest with
    | nil => exact Nat.le_refl 1
    | cons t' rest =>
      rw [timers] at distinct marks
      have differ := (List.pairwise_cons.1 distinct).1 t' List.mem_cons_self
      have first := marks t List.mem_cons_self
      have second := marks t' (List.mem_cons_of_mem t List.mem_cons_self)
      exact absurd (Option.some.inj (first.symm.trans second)) differ

/-! ### The timer of a context -/

theorem outstanding_of_free (tight : d.Tight batch) (free : d.handles.get? c = none) :
    d.outstanding c = [] := by
  refine List.eq_nil_iff_forall_not_mem.2 fun t mem => ?_
  have marked := tight.mark_of_outstanding mem
  rw [free] at marked
  cases marked

theorem outstanding_cancel_self (tight : d.Tight batch) : (d.cancel c).outstanding c = [] := by
  refine (tight.cancel c).outstanding_of_free ?_
  rw [get?_cancel, if_pos rfl]

/-- Cancelling the timer of another context is of no consequence. -/
theorem outstanding_cancel (tight : d.Tight batch) (sound : d.Sound batch) (other : c ≠ c') :
    (d.cancel c').outstanding c = d.outstanding c := by
  rw [Debouncer.cancel]
  cases marked : d.handles.get? c' with
  | none => rfl
  | some id =>
    have kept : ∀ t ∈ d.outstanding c, t.id ≠ id := by
      rintro t mem rfl
      exact other (sound.handles_inj (tight.mark_of_outstanding mem) marked)
    show ((d.scheduler.pending.filter (·.id != id)).filter fun t =>
      t.task.context = some c ∧ (d.scheduler.cancel id).isActive t.id = true) = d.outstanding c
    rw [outstanding, List.filter_filter]
    refine List.filter_congr fun t pending => ?_
    rw [Bool.eq_iff_iff, Bool.and_eq_true, decide_eq_true_eq, decide_eq_true_eq, bne_iff_ne]
    constructor
    · rintro ⟨⟨own, active⟩, -⟩
      exact ⟨own, (Scheduler.isActive_cancel.1 active).2⟩
    · rintro ⟨own, active⟩
      have differ := kept t (mem_outstanding.2 ⟨pending, own, active⟩)
      exact ⟨⟨own, Scheduler.isActive_cancel.2 ⟨differ, active⟩⟩, differ⟩

/-- A new timer is outstanding for its own context, besides what was. -/
theorem outstanding_schedule [Instant τ] (sound : d.Sound batch) {delay : Int} {job : Job κ α}
    {handles : Table κ TimerId} :
    outstanding { scheduler := (d.scheduler.schedule delay job).2, handles := handles } c =
      d.outstanding c ++ if job.context = some c then
        [⟨d.scheduler.issued, Instant.shift d.scheduler.now (max delay 0), job⟩] else [] := by
  have active := sound.isActive_issued
  rw [Scheduler.isActive] at active
  simp only [outstanding, Scheduler.schedule, Scheduler.isActive, List.filter_append,
    List.filter_cons, List.filter_nil, active, and_true, decide_eq_true_eq]
  rfl

theorem outstanding_trigger [Instant τ] (tight : d.Tight batch) (sound : d.Sound batch)
    {delay : Int} {task : α} (other : c ≠ c') :
    (d.trigger c' delay task).2.outstanding c = d.outstanding c := by
  have free : ¬ some c' = some c := fun same => other (Option.some.inj same).symm
  rw [Debouncer.trigger]
  simp only
  rw [outstanding_schedule (sound.cancel c'), if_neg free, List.append_nil,
    tight.outstanding_cancel sound other]

/-- A trigger leaves its own timer for its context. -/
theorem outstanding_trigger_eq [Instant τ] (tight : d.Tight batch) (sound : d.Sound batch)
    {delay : Int} {task : α} : (d.trigger c delay task).2.outstanding c =
      [⟨(d.cancel c).scheduler.issued, Instant.shift d.scheduler.now (max delay 0),
        ⟨some c, task⟩⟩] := by
  rw [Debouncer.trigger]
  simp only
  rw [outstanding_schedule (sound.cancel c), if_pos rfl, tight.outstanding_cancel_self,
    List.nil_append, now_cancel]

/-- A trigger leaves one timer for its context, due after the delay. -/
theorem outstanding_trigger_self [Instant τ] (tight : d.Tight batch) (sound : d.Sound batch)
    {delay : Int} {task : α} : ∃ t, (d.trigger c delay task).2.outstanding c = [t] ∧
      t.due = Instant.shift d.scheduler.now (max delay 0) :=
  ⟨_, tight.outstanding_trigger_eq sound, rfl⟩

theorem outstanding_cancelAll (tight : d.Tight batch) : d.cancelAll.outstanding c = [] :=
  tight.cancelAll.outstanding_of_free get?_cancelAll

theorem outstanding_eq (tight : d.Tight batch) :
    d.outstanding c = d.scheduler.pending.filter fun t => t.task.context = some c := by
  rw [outstanding]
  refine List.filter_congr fun t pending => ?_
  rw [tight.live t pending]
  simp

/-- Of the timers of a context those that are due are in the batch that is taken. -/
theorem countP_takeDue [Instant τ] (tight : d.Tight batch) :
    d.scheduler.takeDue.1.countP (fun t => t.task.context = some c) =
      ((d.outstanding c).filter d.scheduler.isDue).length := by
  have perm : d.scheduler.takeDue.1.Perm (d.scheduler.pending.filter d.scheduler.isDue) :=
    List.mergeSort_perm _ _
  rw [perm.countP_eq, List.countP_eq_length_filter, tight.outstanding_eq, List.filter_filter,
    List.filter_filter]
  simp only [Bool.and_comm]

theorem isPending_iff (tight : d.Tight []) (sound : d.Sound []) :
    d.isPending c = true ↔ ∃ t, d.outstanding c = [t] := by
  constructor
  · intro pending
    obtain ⟨id, marked⟩ := Table.contains_iff.1 pending
    obtain ⟨active, t, mem, rfl, own⟩ := sound.held c id marked
    rw [List.append_nil] at mem
    have outstanding : t ∈ d.outstanding c := mem_outstanding.2 ⟨mem, own, active⟩
    have short := tight.outstanding_length (c := c)
    have long := List.length_pos_of_mem outstanding
    exact List.length_eq_one_iff.1 (by omega)
  · rintro ⟨t, single⟩
    have mem : t ∈ d.outstanding c := single ▸ List.mem_singleton_self t
    exact Table.contains_iff.2 ⟨t.id, tight.mark_of_outstanding mem⟩

end Tight

end Debouncer

end MessageLens
