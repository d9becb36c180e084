import Mathlib
import MessageLens.Proofs.Timer.Firing
import MessageLens.Proofs.Timer.Marks
import MessageLens.Timer.Action

/-!
# What a failing callback leaves behind

A run takes its whole batch off the pending list before it calls the first callback. When a callback
fails, the timers behind its own are neither pending nor called: those that have not been cancelled
are stranded. They count as active and never fire, and the contexts that they were triggered for go
on being marked as pending although nothing is pending for them.

All of this holds in whatever way the timers are used, in and outside of callbacks. What uses of the
timers lead to is recorded together with the timers in flight: those that a run has taken off the
pending list and not come to yet.
-/

namespace MessageLens
set_option autoImplicit false

open Operation

variable {σ τ κ α ε β γ : Type}

namespace Scheduler

/-- The timer has been scheduled and counts as active, but it is not pending. -/
structure Stranded (s : Scheduler τ α) (id : TimerId) : Prop where
  issued : id < s.issued
  active : s.isActive id = true
  absent : ∀ t ∈ s.pending, t.id ≠ id

theorem isActive_eq_false {s : Scheduler τ α} {id : TimerId} :
    s.isActive id = false ↔ id ∈ s.fired ∨ id ∈ s.cancelled := by
  simp only [isActive, Bool.not_eq_false', Bool.or_eq_true, List.contains_iff_mem, or_comm]

variable [Instant τ]

/-- What uses of a scheduler lead to, with the timers in flight before and after. A run drops a
timer in flight that can no longer fire, and all that it has left when a callback fails. -/
inductive Leads (flight : List (Timer τ α)) (s : Scheduler τ α) :
    List (Timer τ α) → Scheduler τ α → Prop where
  | refl : Leads flight s flight s
  | wait {flight' : List (Timer τ α)} {s' : Scheduler τ α} (now : τ) :
      Leads flight s flight' s' → Leads flight s flight' { s' with now := now }
  | schedule {flight' : List (Timer τ α)} {s' : Scheduler τ α} (delayMs : Int) (task : α) :
      Leads flight s flight' s' → Leads flight s flight' (s'.schedule delayMs task).2
  | cancel {flight' : List (Timer τ α)} {s' : Scheduler τ α} (id : TimerId) :
      Leads flight s flight' s' → Leads flight s flight' (s'.cancel id)
  | begin {flight' : List (Timer τ α)} {s' : Scheduler τ α} :
      Leads flight s flight' s' → Leads flight s (s'.takeDue.1 ++ flight') s'.takeDue.2
  | call {t : Timer τ α} {flight' : List (Timer τ α)} {s' : Scheduler τ α} :
      Leads flight s (t :: flight') s' → s'.isActive t.id = true →
      Leads flight s flight' (s'.markFired t.id)
  | drop {t : Timer τ α} {flight' : List (Timer τ α)} {s' : Scheduler τ α} :
      Leads flight s (t :: flight') s' → Leads flight s flight' s'

namespace Leads

variable {flight flight' : List (Timer τ α)} {s s' : Scheduler τ α} {id : TimerId}

/-- Timers that have fired or have been cancelled stay so. -/
theorem grows (leads : Leads flight s flight' s') :
    (∀ id ∈ s.fired, id ∈ s'.fired) ∧ ∀ id ∈ s.cancelled, id ∈ s'.cancelled := by
  induction leads with
  | refl => exact ⟨fun _ mem => mem, fun _ mem => mem⟩
  | cancel id _ ih => exact ⟨ih.1, fun id' mem => List.mem_cons_of_mem id (ih.2 id' mem)⟩
  | @call t _ _ _ _ ih => exact ⟨fun id mem => List.mem_cons_of_mem t.id (ih.1 id mem), ih.2⟩
  | _ => assumption

theorem inactive (leads : Leads flight s flight' s') (spent : s.isActive id = false) :
    s'.isActive id = false := by
  obtain ⟨fired, cancelled⟩ := leads.grows
  rw [isActive_eq_false] at spent ⊢
  exact spent.imp (fired id) (cancelled id)

/-- A timer that is neither pending nor in flight fires no more. -/
theorem never_fires (leads : Leads flight s flight' s') (known : id < s.issued)
    (unfired : id ∉ s.fired) (gone : ∀ t ∈ s.pending ++ flight, t.id ≠ id) :
    id < s'.issued ∧ id ∉ s'.fired ∧ ∀ t ∈ s'.pending ++ flight', t.id ≠ id := by
  induction leads with
  | refl => exact ⟨known, unfired, gone⟩
  | wait _ _ ih => exact ih
  | @schedule flight' s' delayMs task _ ih =>
    obtain ⟨known, unfired, gone⟩ := ih
    refine ⟨Nat.lt_succ_of_lt known, unfired, fun t mem => ?_⟩
    simp only [Scheduler.schedule, List.append_assoc, List.mem_append, List.mem_singleton] at mem
    obtain old | rfl | old := mem
    · exact gone t (List.mem_append_left _ old)
    · exact (Nat.ne_of_lt known).symm
    · exact gone t (List.mem_append_right _ old)
  | cancel id' _ ih =>
    obtain ⟨known, unfired, gone⟩ := ih
    refine ⟨known, unfired, fun t mem => gone t ?_⟩
    exact (List.filter_sublist.append_right _).subset mem
  | @begin flight' s' _ ih =>
    obtain ⟨known, unfired, gone⟩ := ih
    refine ⟨known, unfired, fun t mem => gone t ?_⟩
    rw [← List.append_assoc, List.mem_append, mem_takeDue] at mem
    exact List.mem_append.2 mem
  | @call t flight' s' _ _ ih =>
    obtain ⟨known, unfired, gone⟩ := ih
    refine ⟨known, fun fired => ?_, fun t' mem => gone t' ?_⟩
    · obtain rfl | old := List.mem_cons.1 fired
      · exact gone t (by simp) rfl
      · exact unfired old
    · exact ((List.sublist_cons_self t flight').append_left _).subset mem
  | @drop t flight' s' _ ih =>
    obtain ⟨known, unfired, gone⟩ := ih
    refine ⟨known, unfired, fun t' mem => gone t' ?_⟩
    exact ((List.sublist_cons_self t flight').append_left _).subset mem

end Leads

/-- The timers that are pending or in flight have been given different numbers, and none of them has
fired. -/
structure Numbered (s : Scheduler τ α) (flight : List (Timer τ α)) : Prop where
  issued : ∀ t ∈ s.pending ++ flight, t.id < s.issued
  distinct : (s.pending ++ flight).Pairwise (·.id ≠ ·.id)
  unfired : ∀ t ∈ s.pending ++ flight, t.id ∉ s.fired
  fired : ∀ id ∈ s.fired, id < s.issued

namespace Numbered

variable {s : Scheduler τ α} {t : Timer τ α} {flight rest : List (Timer τ α)}

omit [Instant τ] in
theorem start (now : τ) : Numbered ({ now := now } : Scheduler τ α) [] where
  issued := by simp
  distinct := .nil
  unfired := by simp
  fired := by simp

omit [Instant τ] in
theorem cancel (numbered : s.Numbered flight) (id : TimerId) : (s.cancel id).Numbered flight := by
  have sub : ((s.cancel id).pending ++ flight).Sublist (s.pending ++ flight) :=
    List.filter_sublist.append_right flight
  exact ⟨fun t mem => numbered.issued t (sub.subset mem), numbered.distinct.sublist sub,
    fun t mem => numbered.unfired t (sub.subset mem), numbered.fired⟩

theorem schedule (numbered : s.Numbered flight) (delayMs : Int) (task : α) :
    (s.schedule delayMs task).2.Numbered flight := by
  have perm : ((s.schedule delayMs task).2.pending ++ flight).Perm
      (⟨s.issued, Instant.shift s.now (max delayMs 0), task⟩ :: (s.pending ++ flight)) := by
    simp only [Scheduler.schedule, List.append_assoc, List.singleton_append]
    exact List.perm_middle
  refine ⟨fun t mem => ?_, ?_, fun t mem fired => ?_, fun id fired => ?_⟩
  · obtain rfl | old := List.mem_cons.1 (perm.subset mem)
    · exact Nat.lt_succ_self _
    · exact Nat.lt_succ_of_lt (numbered.issued t old)
  · refine (perm.pairwise_iff fun differ => differ.symm).2
      (List.pairwise_cons.2 ⟨?_, numbered.distinct⟩)
    exact fun t old => (Nat.ne_of_lt (numbered.issued t old)).symm
  · obtain rfl | old := List.mem_cons.1 (perm.subset mem)
    · exact Nat.lt_irrefl _ (numbered.fired _ fired)
    · exact numbered.unfired t old fired
  · exact Nat.lt_succ_of_lt (numbered.fired id fired)

omit [Instant τ] in
/-- What is outstanding may be divided in another way into what is pending and what is in flight. -/
theorem divide {s' : Scheduler τ α} {flight' : List (Timer τ α)} (numbered : s.Numbered flight)
    (perm : (s'.pending ++ flight').Perm (s.pending ++ flight)) (issued : s'.issued = s.issued)
    (fired : s'.fired = s.fired) : s'.Numbered flight' := by
  refine ⟨fun t mem => ?_, ?_, fun t mem => ?_, fun id mem => ?_⟩
  · rw [issued]; exact numbered.issued t (perm.subset mem)
  · exact (perm.pairwise_iff fun differ => differ.symm).2 numbered.distinct
  · rw [fired]; exact numbered.unfired t (perm.subset mem)
  · rw [issued]; exact numbered.fired id (fired ▸ mem)

omit [Instant τ] in
theorem call (numbered : s.Numbered (t :: rest)) : (s.markFired t.id).Numbered rest := by
  have sub : (s.pending ++ rest).Sublist (s.pending ++ t :: rest) :=
    (List.sublist_cons_self t rest).append_left _
  have head : t ∈ s.pending ++ t :: rest := by simp
  have others : ∀ t' ∈ s.pending ++ rest, t'.id ≠ t.id := by
    have apart := (List.perm_middle.pairwise_iff fun differ => differ.symm).1 numbered.distinct
    exact fun t' mem => ((List.pairwise_cons.1 apart).1 t' mem).symm
  refine ⟨fun t' mem => numbered.issued t' (sub.subset mem), numbered.distinct.sublist sub,
    fun t' mem fired => ?_, fun id fired => ?_⟩
  · obtain same | old := List.mem_cons.1 fired
    · exact others t' mem same
    · exact numbered.unfired t' (sub.subset mem) old
  · obtain rfl | old := List.mem_cons.1 fired
    · exact numbered.issued t head
    · exact numbered.fired id old

omit [Instant τ] in
theorem cancelled_or_stranded (numbered : s.Numbered (rest ++ flight)) (mem : t ∈ rest) :
    t.id ∈ s.cancelled ∨ s.Stranded t.id := by
  have out : t ∈ s.pending ++ (rest ++ flight) :=
    List.mem_append_right _ (List.mem_append_left _ mem)
  cases active : s.isActive t.id with
  | false => exact .inl ((isActive_eq_false.1 active).resolve_left (numbered.unfired t out))
  | true =>
    refine .inr ⟨numbered.issued t out, active, fun t' pending => ?_⟩
    exact (List.pairwise_append.1 numbered.distinct).2.2 t' pending t (List.mem_append_left _ mem)

/-- A timer of a batch that is dropped fires no more. -/
theorem never_fires {lost flight' : List (Timer τ α)} {s' : Scheduler τ α}
    (numbered : s.Numbered (rest ++ (flight ++ lost))) (mem : t ∈ rest)
    (leads : Leads flight s flight' s') : t.id ∉ s'.fired := by
  have out : t ∈ s.pending ++ (rest ++ (flight ++ lost)) :=
    List.mem_append_right _ (List.mem_append_left _ mem)
  obtain ⟨-, behind, apart⟩ := List.pairwise_append.1 numbered.distinct
  obtain ⟨-, -, between⟩ := List.pairwise_append.1 behind
  refine (leads.never_fires (numbered.issued t out) (numbered.unfired t out) fun t' mem' => ?_).2.1
  obtain mem' | mem' := List.mem_append.1 mem'
  · exact apart t' mem' t (List.mem_append_left _ mem)
  · exact (between t mem t' (List.mem_append_left _ mem')).symm

end Numbered

/-- Whatever is done with a scheduler, its timers stay numbered, those that have been dropped
besides those that are in flight. -/
theorem Leads.numbered {flight flight' lost : List (Timer τ α)} {s s' : Scheduler τ α}
    (leads : Leads flight s flight' s') (start : s.Numbered (flight ++ lost)) :
    ∃ lost', s'.Numbered (flight' ++ lost') := by
  induction leads with
  | refl => exact ⟨lost, start⟩
  | wait now _ ih =>
    obtain ⟨lost', numbered⟩ := ih
    exact ⟨lost', numbered.divide .rfl rfl rfl⟩
  | schedule delayMs task _ ih =>
    obtain ⟨lost', numbered⟩ := ih
    exact ⟨lost', numbered.schedule delayMs task⟩
  | cancel id _ ih =>
    obtain ⟨lost', numbered⟩ := ih
    exact ⟨lost', numbered.cancel id⟩
  | @begin _ s' _ ih =>
    obtain ⟨lost', numbered⟩ := ih
    refine ⟨lost', numbered.divide ?_ rfl rfl⟩
    simp only [← List.append_assoc]
    exact (s'.takeDue_perm.append_right _).append_right _
  | call _ _ ih =>
    obtain ⟨lost', numbered⟩ := ih
    exact ⟨lost', numbered.call⟩
  | @drop t flight' _ _ ih =>
    obtain ⟨lost', numbered⟩ := ih
    exact ⟨t :: lost', numbered.divide (List.perm_middle.append_left _) rfl rfl⟩

end Scheduler

namespace Debouncer

variable [DecidableEq κ] [Instant τ]

/-- What uses of a debouncer lead to, with the timers in flight before and after. Where `direct`
holds the scheduler itself may be told to cancel any timer, and otherwise only one that has been
scheduled and marks no context. -/
inductive Leads (direct : Bool) (flight : List (Timer τ (Job κ α))) (d : Debouncer τ κ α) :
    List (Timer τ (Job κ α)) → Debouncer τ κ α → Prop where
  | refl : Leads direct flight d flight d
  | wait {flight' : List (Timer τ (Job κ α))} {d' : Debouncer τ κ α} (now : τ) :
      Leads direct flight d flight' d' →
      Leads direct flight d flight' { d' with scheduler := { d'.scheduler with now := now } }
  | schedule {flight' : List (Timer τ (Job κ α))} {d' : Debouncer τ κ α} (delayMs : Int)
      (task : α) : Leads direct flight d flight' d' →
      Leads direct flight d flight' (d'.schedule delayMs task).2
  | cancelTimer {flight' : List (Timer τ (Job κ α))} {d' : Debouncer τ κ α} (id : TimerId) :
      Leads direct flight d flight' d' →
      (direct = true ∨ id < d'.scheduler.issued ∧ ∀ c, d'.handles.get? c ≠ some id) →
      Leads direct flight d flight' { d' with scheduler := d'.scheduler.cancel id }
  | trigger {flight' : List (Timer τ (Job κ α))} {d' : Debouncer τ κ α} (context : κ)
      (delayMs : Int) (task : α) : Leads direct flight d flight' d' →
      Leads direct flight d flight' (d'.trigger context delayMs task).2
  | cancel {flight' : List (Timer τ (Job κ α))} {d' : Debouncer τ κ α} (context : κ) :
      Leads direct flight d flight' d' → Leads direct flight d flight' (d'.cancel context)
  | begin {flight' : List (Timer τ (Job κ α))} {d' : Debouncer τ κ α} :
      Leads direct flight d flight' d' →
      Leads direct flight d (d'.scheduler.takeDue.1 ++ flight')
        { d' with scheduler := d'.scheduler.takeDue.2 }
  | call {t : Timer τ (Job κ α)} {flight' : List (Timer τ (Job κ α))} {d' : Debouncer τ κ α} :
      Leads direct flight d (t :: flight') d' → d'.scheduler.isActive t.id = true →
      Leads direct flight d flight'
        (Debouncer.release { d' with scheduler := d'.scheduler.markFired t.id } t)
  | drop {t : Timer τ (Job κ α)} {flight' : List (Timer τ (Job κ α))} {d' : Debouncer τ κ α} :
      Leads direct flight d (t :: flight') d' → Leads direct flight d flight' d'

namespace Leads

variable {direct : Bool} {flight flight' flight'' batch : List (Timer τ (Job κ α))}
  {d d' d'' : Debouncer τ κ α}

theorem trans (first : Leads direct flight d flight' d')
    (second : Leads direct flight' d' flight'' d'') : Leads direct flight d flight'' d'' := by
  induction second with
  | refl => exact first
  | wait now _ ih => exact ih.wait now
  | schedule delayMs task _ ih => exact ih.schedule delayMs task
  | cancelTimer id _ spared ih => exact ih.cancelTimer id spared
  | trigger context delayMs task _ ih => exact ih.trigger context delayMs task
  | cancel context _ ih => exact ih.cancel context
  | begin _ ih => exact ih.begin
  | call _ active ih => exact ih.call active
  | drop _ ih => exact ih.drop

theorem dropAll (leads : Leads direct flight d (batch ++ flight') d') :
    Leads direct flight d flight' d' := by
  induction batch with
  | nil => exact leads
  | cons t rest ih => exact ih leads.drop

theorem cancelAll (leads : Leads direct flight d flight' d') :
    Leads direct flight d flight' d'.cancelAll := by
  rw [Debouncer.cancelAll]
  induction d'.handles.keys generalizing d' with
  | nil => exact leads
  | cons c rest ih => exact ih (leads.cancel c)

/-- Uses of a debouncer are uses of its scheduler. -/
theorem scheduler (leads : Leads direct flight d flight' d') :
    Scheduler.Leads flight d.scheduler flight' d'.scheduler := by
  have cancelled : ∀ {flight' : List (Timer τ (Job κ α))} {d' : Debouncer τ κ α} (c : κ),
      Scheduler.Leads flight d.scheduler flight' d'.scheduler →
      Scheduler.Leads flight d.scheduler flight' (d'.cancel c).scheduler := by
    intro flight' d' c before
    rw [Debouncer.cancel]
    split
    · exact before
    · exact before.cancel _
  induction leads with
  | refl => exact .refl
  | wait now _ ih => exact ih.wait now
  | schedule delayMs task _ ih => exact ih.schedule delayMs ⟨none, task⟩
  | cancelTimer id _ _ ih => exact ih.cancel id
  | trigger context delayMs task _ ih =>
    exact (cancelled context ih).schedule delayMs ⟨some context, task⟩
  | cancel context _ ih => exact cancelled context ih
  | begin _ ih => exact ih.begin
  | call _ active ih =>
    rw [release_scheduler]
    exact ih.call active
  | drop _ ih => exact ih.drop

end Leads

/-! ## Marks of contexts -/

section Marks

variable {d : Debouncer τ κ α} {batch batch' : List (Timer τ (Job κ α))} {c : κ}

omit [Instant τ] in
theorem Sound.perm (sound : d.Sound batch) (perm : batch'.Perm batch) : d.Sound batch' := by
  have sub : ∀ t ∈ d.scheduler.pending ++ batch', t ∈ d.scheduler.pending ++ batch :=
    fun t mem => (perm.append_left _).subset mem
  refine ⟨fun t mem => sound.issued t (sub t mem),
    fun t mem t' mem' => sound.same t (sub t mem) t' (sub t' mem'), sound.spent,
    fun c id held => ?_⟩
  obtain ⟨active, t, mem, found⟩ := sound.held c id held
  exact ⟨active, t, (perm.symm.append_left _).subset mem, found⟩

omit [Instant τ] in
theorem Tight.perm (tight : d.Tight batch) (perm : batch'.Perm batch) : d.Tight batch' :=
  ⟨((perm.append_left _).pairwise_iff fun differ => differ.symm).2 tight.distinct, tight.live,
    fun t mem => tight.owner t ((perm.append_left _).subset mem)⟩

/-- As long as timers of contexts are cancelled by way of their contexts, the marks of contexts and
the timers that can fire belong to each other, those that have been dropped included. -/
theorem Leads.marked {flight flight' lost : List (Timer τ (Job κ α))} {d' : Debouncer τ κ α}
    (leads : Leads false flight d flight' d') (sound : d.Sound (flight ++ lost))
    (tight : d.Tight (flight ++ lost)) :
    ∃ lost', d'.Sound (flight' ++ lost') ∧ d'.Tight (flight' ++ lost') := by
  induction leads with
  | refl => exact ⟨lost, sound, tight⟩
  | wait now _ ih =>
    obtain ⟨lost', sound, tight⟩ := ih
    exact ⟨lost', ⟨sound.issued, sound.same, sound.spent, sound.held⟩,
      ⟨tight.distinct, tight.live, tight.owner⟩⟩
  | schedule delayMs task _ ih =>
    obtain ⟨lost', sound, tight⟩ := ih
    exact ⟨lost', sound.schedule delayMs ⟨none, task⟩,
      tight.schedule sound delayMs (fun _ own => by cases own) fun _ _ held => held⟩
  | cancelTimer id _ spared ih =>
    obtain ⟨lost', sound, tight⟩ := ih
    obtain ⟨known, unmarked⟩ := spared.resolve_left Bool.false_ne_true
    exact ⟨lost', sound.cancelTimer known unmarked, tight.cancelTimer fun _ _ _ held => held⟩
  | trigger context delayMs task _ ih =>
    obtain ⟨lost', sound, tight⟩ := ih
    exact ⟨lost', sound.trigger context delayMs task, tight.trigger sound context delayMs task⟩
  | cancel context _ ih =>
    obtain ⟨lost', sound, tight⟩ := ih
    exact ⟨lost', sound.cancel context, tight.cancel context⟩
  | begin _ ih =>
    obtain ⟨lost', sound, tight⟩ := ih
    refine ⟨lost', ?_, ?_⟩
    · rw [List.append_assoc]; exact sound.takeDue
    · rw [List.append_assoc]; exact tight.takeDue
  | call _ _ ih =>
    obtain ⟨lost', sound, tight⟩ := ih
    exact ⟨lost', sound.fire, tight.fire⟩
  | @drop t _ _ _ ih =>
    obtain ⟨lost', sound, tight⟩ := ih
    exact ⟨t :: lost', sound.perm List.perm_middle, tight.perm List.perm_middle⟩

omit [Instant τ] in
/-- A context is marked as pending when it has a timer that is pending or one that is stranded. -/
theorem Tight.isPending_iff_or_stranded (tight : d.Tight batch) (sound : d.Sound batch) :
    d.isPending c = true ↔ (∃ t, d.outstanding c = [t]) ∨
      ∃ id, d.handles.get? c = some id ∧ d.scheduler.Stranded id := by
  constructor
  · intro marked
    obtain ⟨id, marked⟩ := Table.contains_iff.1 marked
    obtain ⟨active, t, mem, rfl, own⟩ := sound.held c id marked
    by_cases pending : t ∈ d.scheduler.pending
    · have outstanding : t ∈ d.outstanding c := mem_outstanding.2 ⟨pending, own, active⟩
      have short := tight.outstanding_length (c := c)
      have long := List.length_pos_of_mem outstanding
      exact .inl (List.length_eq_one_iff.1 (by omega))
    · refine .inr ⟨t.id, marked, sound.issued t mem, active, fun t' pending' same => pending ?_⟩
      exact sound.same t' (List.mem_append_left _ pending') t mem same ▸ pending'
  · rintro (⟨t, single⟩ | ⟨id, marked, -⟩)
    · have mem : t ∈ d.outstanding c := single ▸ List.mem_singleton_self t
      exact Table.contains_iff.2 ⟨t.id, tight.mark_of_outstanding mem⟩
    · exact Table.contains_iff.2 ⟨id, marked⟩

end Marks

/-! ## Operations that use a debouncer -/

/-- Whatever becomes of the operation, it treats the debouncer as its users may, and it is through
with all the batches that it begins. -/
def Uses (direct : Bool) (at' : Focus σ (Debouncer τ κ α)) (x : Operation ε σ β) : Prop :=
  ∀ flight s, Leads direct flight (at'.get s) flight (at'.get (leaves x s))

namespace Uses

variable {direct : Bool} {at' : Focus σ (Debouncer τ κ α)}

theorem of_keeps {x : Operation ε σ β} (keeps : Keeps at'.get x) : Uses direct at' x := by
  intro flight s
  rw [keeps s]
  exact .refl

theorem bind {x : Operation ε σ β} {k : β → Operation ε σ γ} (first : Uses direct at' x)
    (later : ∀ b, Uses direct at' (k b)) : Uses direct at' (x >>= k) := by
  intro flight s
  have begun := first flight s
  rw [leaves_bind]
  cases run : x s with
  | ok b t => exact (leaves_ok run ▸ begun).trans (later b flight t)
  | error e t => exact leaves_error run ▸ begun

theorem change {g : Debouncer τ κ α → Debouncer τ κ α}
    (leads : ∀ flight d, Leads direct flight d flight (g d)) :
    Uses direct at' (at'.change g : Operation ε σ Unit) := by
  intro flight s
  show Leads direct flight _ flight (at'.get (at'.put s (g (at'.get s))))
  rw [at'.get_put]
  exact leads flight _

theorem update {g : Debouncer τ κ α → β × Debouncer τ κ α}
    (leads : ∀ flight d, Leads direct flight d flight (g d).2) :
    Uses direct at' (at'.update g : Operation ε σ β) := by
  intro flight s
  show Leads direct flight _ flight (at'.get (at'.put s (g (at'.get s)).2))
  rw [at'.get_put]
  exact leads flight _

theorem discard {x : Operation ε σ β} (uses : Uses direct at' x) :
    Uses direct at' (discard x) := by
  intro flight s
  show Leads direct flight _ flight (at'.get (leaves (Function.const β () <$> x) s))
  rw [leaves_map]
  exact uses flight s

theorem forM {f : β → Operation ε σ Unit} (uses : ∀ b, Uses direct at' (f b)) (bs : List β) :
    Uses direct at' (bs.forM f) := by
  induction bs with
  | nil => exact of_keeps (.pure ())
  | cons b bs ih => exact (uses b).bind fun _ => ih

end Uses

/-! ## Runs -/

section Runs

variable {direct : Bool} {at' : Focus σ (Debouncer τ κ α)}
  {callback : Timer τ (Job κ α) → Operation ε σ Unit} {flight left : List (Timer τ (Job κ α))}
  {t : Timer τ (Job κ α)} {rest : List (Timer τ (Job κ α))} {s r r' : σ} {e : ε} {n : Nat}

/-- The state in which the callback of a timer is called. -/
def calling (at' : Focus σ (Debouncer τ κ α)) (t : Timer τ (Job κ α)) (r : σ) : σ :=
  at'.put r
    (Debouncer.release { at'.get r with scheduler := (at'.get r).scheduler.markFired t.id } t)

/-- A run of what was due in `s` has come to the timers `left` of its batch. -/
structure Underway (direct : Bool) (at' : Focus σ (Debouncer τ κ α))
    (flight : List (Timer τ (Job κ α))) (s : σ) (left : List (Timer τ (Job κ α))) (r : σ) :
    Prop where
  leads : Leads direct flight (at'.get s) (left ++ flight) (at'.get r)
  passed : ∃ passed, (at'.get s).scheduler.dueTimers = passed ++ left ∧
    ∀ t ∈ passed, (at'.get r).scheduler.isActive t.id = false

namespace Underway

theorem start : Underway direct at' flight s (at'.get s).scheduler.takeDue.1
    (at'.put s { at'.get s with scheduler := (at'.get s).scheduler.takeDue.2 }) := by
  refine ⟨?_, [], rfl, fun t mem => by cases mem⟩
  rw [at'.get_put]
  exact Leads.refl.begin

theorem skip (underway : Underway direct at' flight s (t :: rest) r)
    (inactive : (at'.get r).scheduler.isActive t.id = false) :
    Underway direct at' flight s rest r := by
  obtain ⟨passed, split, spent⟩ := underway.passed
  refine ⟨underway.leads.drop, passed ++ [t], by simpa using split, fun t' mem => ?_⟩
  obtain mem | mem := List.mem_append.1 mem
  · exact spent t' mem
  · exact List.mem_singleton.1 mem ▸ inactive

/-- The timer whose turn it is is called. -/
theorem call (underway : Underway direct at' flight s (t :: rest) r)
    (active : (at'.get r).scheduler.isActive t.id = true) :
    Underway direct at' flight s rest (calling at' t r) := by
  have leads := underway.leads.call active
  obtain ⟨passed, split, spent⟩ := underway.passed
  refine ⟨?_, passed ++ [t], by simpa using split, fun t' mem => ?_⟩
  · rw [calling, at'.get_put]
    exact leads
  · rw [calling, at'.get_put, release_scheduler]
    refine Bool.eq_false_iff.2 fun still => ?_
    obtain ⟨other, active'⟩ := Scheduler.isActive_markFired.1 still
    obtain mem | mem := List.mem_append.1 mem
    · exact Bool.eq_false_iff.1 (spent t' mem) active'
    · exact other (congrArg Timer.id (List.mem_singleton.1 mem))

/-- What the timers that are passed have come to is not undone. -/
theorem after {x : Operation ε σ β} (uses : Uses direct at' x)
    (underway : Underway direct at' flight s left r) :
    Underway direct at' flight s left (leaves x r) := by
  have used := uses (left ++ flight) r
  obtain ⟨passed, split, spent⟩ := underway.passed
  exact ⟨underway.leads.trans used, passed, split,
    fun t mem => used.scheduler.inactive (spent t mem)⟩

theorem fires (uses : ∀ t, Uses direct at' (callback t))
    (underway : Underway direct at' flight s (t :: rest) r)
    (active : (at'.get r).scheduler.isActive t.id = true)
    (fired : callback t (calling at' t r) = .ok () r') :
    Underway direct at' flight s rest r' :=
  leaves_ok fired ▸ (underway.call active).after (uses t)

end Underway

omit [Instant τ] in
/-- What a run does for a timer that is called, with the scheduler as a part of the debouncer. -/
theorem release_then {x : Operation ε σ Unit} :
    (do at'.change (Debouncer.release · t); x : Operation ε σ Unit)
      (at'.put r { at'.get r with scheduler := (at'.get r).scheduler.markFired t.id }) =
    x (calling at' t r) := by
  show x (at'.put _ (Debouncer.release (at'.get _) t)) = _
  rw [at'.get_put, at'.put_put, calling]

theorem runDue_ok (uses : ∀ t, Uses direct at' (callback t))
    (run : Debouncer.runDue at' callback s = .ok n r') : Underway direct at' flight s [] r' := by
  simp only [Debouncer.runDue, Scheduler.runDue, bind_ok, update_ok, exists_both_eq] at run
  exact Scheduler.runBatch_preserves (fun t rest r underway inactive => underway.skip inactive)
    (fun t rest r r' underway active fired =>
      underway.fires uses active (release_then.symm.trans fired))
    .start run

theorem runDue_error (flight : List (Timer τ (Job κ α)))
    (uses : ∀ t, Uses direct at' (callback t))
    (failed : Debouncer.runDue at' callback s = .error e r') :
    ∃ t rest r, Underway direct at' flight s (t :: rest) r ∧
      (at'.get r).scheduler.isActive t.id = true ∧ callback t (calling at' t r) = .error e r' := by
  simp only [Debouncer.runDue, Scheduler.runDue, bind_error, update_error, update_ok,
    exists_both_eq, false_or] at failed
  obtain ⟨t, rest, r, underway, active, failed⟩ := Scheduler.runBatch_error
    (I := Underway direct at' flight s) (fun t rest r underway inactive => underway.skip inactive)
    (fun t rest r r' underway active fired =>
      underway.fires uses active (release_then.symm.trans fired))
    .start failed
  exact ⟨t, rest, r, underway, active, release_then.symm.trans failed⟩

theorem Uses.runDue (uses : ∀ t, Uses direct at' (callback t)) :
    Uses direct at' (Debouncer.runDue at' callback) := by
  intro flight s
  cases run : Debouncer.runDue at' callback s with
  | ok n s' =>
    rw [leaves_ok run]
    exact (runDue_ok uses run).leads
  | error e s' =>
    -- what is left of the batch is in flight up to the failure and dropped with it
    obtain ⟨t, rest, r, underway, active, failed⟩ := runDue_error flight uses run
    have left := (underway.call active).after (uses t)
    rw [leaves_error run]
    rw [leaves_error failed] at left
    exact left.leads.dropAll

/-- How a debouncer is left when the callback of `t` fails, with `passed` before and `rest` behind
it in the batch of its run. The timers behind it never fire in any use of the timers that follows.
As long as timers of contexts are cancelled by way of their contexts, a context is marked as pending
exactly when it has one pending timer or a stranded one. -/
structure CutShort (direct : Bool) (flight passed : List (Timer τ (Job κ α)))
    (t : Timer τ (Job κ α)) (rest : List (Timer τ (Job κ α))) (d : Debouncer τ κ α) : Prop where
  called : t.id ∈ d.scheduler.fired
  before : ∀ t' ∈ passed, t'.id ∈ d.scheduler.fired ∨ t'.id ∈ d.scheduler.cancelled
  behind : ∀ t' ∈ rest, t'.id ∈ d.scheduler.cancelled ∨ d.scheduler.Stranded t'.id
  silent : ∀ t' ∈ rest, ∀ flight' d', Leads direct flight d flight' d' →
    t'.id ∉ d'.scheduler.fired
  pending : direct = false → ∀ c, d.isPending c = true ↔
    (∃ t', d.outstanding c = [t']) ∨ ∃ id, d.handles.get? c = some id ∧ d.scheduler.Stranded id
  marks : direct = false → ∀ t' ∈ rest, d.scheduler.Stranded t'.id →
    ∀ c, t'.task.context = some c → d.handles.get? c = some t'.id

/-- A failing callback ends the run of its batch: the timers before its own have fired or have been
cancelled, and every timer behind it has been cancelled or is stranded. -/
theorem failing_callback_strands_rest {start : τ}
    (reached : Leads direct [] { scheduler := { now := start } } flight (at'.get s))
    (callbacks : ∀ t, Uses direct at' (callback t))
    (failed : Debouncer.runDue at' callback s = .error e r') :
    ∃ passed t rest r, (at'.get s).scheduler.dueTimers = passed ++ t :: rest ∧
      callback t r = .error e r' ∧ CutShort direct flight passed t rest (at'.get r') := by
  obtain ⟨t, rest, r, underway, active, failed⟩ := runDue_error flight callbacks failed
  have after := (underway.call active).after (callbacks t)
  rw [leaves_error failed] at after
  have called : t.id ∈ (at'.get r').scheduler.fired := by
    have later := (callbacks t flight (calling at' t r)).scheduler.grows.1 t.id
    rw [leaves_error failed] at later
    refine later ?_
    rw [calling, at'.get_put, release_scheduler]
    exact List.mem_cons_self
  obtain ⟨passed, split, -⟩ := underway.passed
  obtain ⟨passed', split', spent⟩ := after.passed
  obtain rfl : passed ++ [t] = passed' := by
    have same : passed ++ [t] ++ rest = passed' ++ rest := by
      rw [← split', split, List.append_assoc, List.singleton_append]
    exact List.append_cancel_right same
  -- the timers behind the one that has failed were still in flight then
  have whole := reached.trans after.leads
  have new : Scheduler.Numbered ({ now := start } : Scheduler τ (Job κ α)) ([] ++ []) :=
    .start start
  obtain ⟨lost, numbered⟩ := whole.scheduler.numbered new
  rw [List.append_assoc] at numbered
  have marked (indirect : direct = false) : ∃ lost, (at'.get r').Sound (rest ++ flight ++ lost) ∧
      (at'.get r').Tight (rest ++ flight ++ lost) := by
    subst indirect
    have sound : Sound ({ scheduler := { now := start } } : Debouncer τ κ α) ([] ++ []) :=
      .start start
    exact whole.marked sound (.start start)
  refine ⟨passed, t, rest, _, split, failed, called, fun t' mem => ?_, fun t' mem => ?_,
    fun t' mem flight' d later => ?_, fun indirect c => ?_,
    fun indirect t' mem stranded c own => ?_⟩
  · exact Scheduler.isActive_eq_false.1 (spent t' (List.mem_append_left _ mem))
  · exact numbered.cancelled_or_stranded mem
  · exact numbered.never_fires mem later.scheduler
  · obtain ⟨lost, sound, tight⟩ := marked indirect
    exact tight.isPending_iff_or_stranded sound
  · obtain ⟨lost, sound, tight⟩ := marked indirect
    exact tight.owner t' (by simp [mem]) stranded.active c own

end Runs

/-- Three contexts are triggered and all of them are due. -/
def threeDue : Debouncer Int String Nat :=
  let d : Debouncer Int String Nat := { scheduler := { now := 0 } }
  let d := (d.trigger "x" 3 0).2
  let d := (d.trigger "y" 5 1).2
  let d := (d.trigger "z" 5 2).2
  { d with scheduler := { d.scheduler with now := 10 } }

/-- The callback of the second context fails. -/
def failsAtOne (t : Timer Int (Job String Nat)) : Operation Unit (Debouncer Int String Nat) Unit :=
  if t.task.task = 1 then throw () else pure ()

theorem failing_callback_strands_third : ∃ passed t rest d r,
    Debouncer.runDue (.self _) failsAtOne threeDue = .error () d ∧
      threeDue.scheduler.dueTimers = passed ++ t :: rest ∧ failsAtOne t r = .error () d ∧
      CutShort false [] passed t rest d ∧ d.scheduler.Stranded 2 ∧ d.isPending "z" = true ∧
      d.outstanding "z" = [] := by
  have reached : Leads false [] { scheduler := { now := (0 : Int) } } [] threeDue :=
    (((Leads.refl.trigger "x" 3 0).trigger "y" 5 1).trigger "z" 5 2).wait 10
  have callbacks (t : Timer Int (Job String Nat)) : Uses false (.self _) (failsAtOne t) :=
    .of_keeps (.ite (.throw _) (.pure _))
  have evaluated : failsWith (fun _ d => d.scheduler.issued = 3 ∧ d.scheduler.isActive 2 = true ∧
      d.scheduler.pending.isEmpty = true ∧ d.isPending "z" = true)
      (Debouncer.runDue (.self _) failsAtOne) threeDue = true := by cbv
  obtain ⟨⟨⟩, d, failed, seen⟩ := error_of_failsWith evaluated
  obtain ⟨issued, active, pending, marked⟩ := of_decide_eq_true seen
  have none : d.scheduler.pending = [] := List.isEmpty_iff.1 pending
  obtain ⟨passed, t, rest, r, split, raised, short⟩ :=
    failing_callback_strands_rest reached callbacks failed
  refine ⟨passed, t, rest, d, r, failed, split, raised, short, ⟨?_, active, ?_⟩, marked, ?_⟩
  · rw [issued]; decide
  · rw [none]; exact fun t' mem => by cases mem
  · rw [Debouncer.outstanding, none]; rfl

end Debouncer

/-! ## Timers whose tasks use timers -/

namespace TimerBench

open Debouncer

variable [Instant τ]

/-- Whatever an action does and whatever becomes of it, it uses the timers as their users may. -/
theorem performWithin_uses (depth : Nat) (action : TimerAction) :
    Uses true timersPart (performWithin (τ := τ) depth action) := by
  have checks (delayMs : Int) : Uses true timersPart (checkDelay (τ := τ) delayMs) :=
    .of_keeps ((Keeps.read _).bind fun _ => .ite (.throw _) (.pure _))
  have notes {f : TimerBench τ → TimerBench τ} (keeps : ∀ b, (f b).timers = b.timers) :
      Uses true timersPart (modify f : Operation TimerFailure (TimerBench τ) Unit) :=
    .of_keeps (.modify keeps)
  have answers (answer : TimerAnswer) : Uses true timersPart
      (pure answer : Operation TimerFailure (TimerBench τ) TimerAnswer) := .of_keeps (.pure _)
  induction depth generalizing action with
  | zero => exact .of_keeps (.throw _)
  | succ depth ih =>
    cases action with
    | schedule name delay task =>
      refine .bind (checks delay) fun _ => .bind (.update fun _ _ => ?_) fun _ =>
        .bind (notes fun _ => rfl) fun _ => answers _
      exact Leads.refl.schedule delay (NamedTask.mk name task)
    | trigger name context delay task =>
      refine .bind (.change fun _ _ => Leads.refl.cancel context) fun _ =>
        .bind (checks delay) fun _ => .bind (.update fun _ _ => ?_) fun _ =>
          .bind (notes fun _ => rfl) fun _ => answers _
      exact Leads.refl.trigger context delay (NamedTask.mk name task)
    | cancel name =>
      refine .bind (.of_keeps .get) fun b => ?_
      cases b.handles.get? name with
      | none => exact .of_keeps (.throw _)
      | some id =>
        exact .bind (.change fun _ _ => Leads.refl.cancelTimer id (.inl rfl)) fun _ => answers _
    | cancelContext context =>
      exact .bind (.change fun _ _ => Leads.refl.cancel context) fun _ => answers _
    | cancelAll => exact .bind (.change fun _ _ => Leads.refl.cancelAll) fun _ => answers _
    | isPending context => exact .bind (.of_keeps (.read _)) fun _ => answers _
    | advance ms => exact .bind (.change fun _ _ => Leads.refl.wait _) fun _ => answers _
    | runDue =>
      refine .bind (.runDue fun t => ?_) fun _ => answers _
      exact .bind (notes fun _ => rfl) fun _ =>
        .forM (fun a => (ih a).discard) t.task.task.actions
    | fail text => exact .of_keeps (.throw _)

/-- What is left when actions are performed one after another, those that fail included. -/
def performAll (actions : List TimerAction) (b : TimerBench τ) : TimerBench τ :=
  actions.foldl (fun b a => leaves (perform a) b) b

theorem performAll_leads (actions : List TimerAction) (b : TimerBench τ) :
    Leads true [] b.timers [] (performAll actions b).timers := by
  induction actions generalizing b with
  | nil => exact .refl
  | cons a rest ih =>
    have first : Uses true timersPart (perform (τ := τ) a) :=
      .bind (.of_keeps .get) fun b => performWithin_uses _ a
    exact (first [] b).trans (ih _)

/-- Three contexts are triggered, and the task of the second one fails. -/
def failing : List TimerAction :=
  [.trigger "first" (.word "x") 3 [], .trigger "failing" (.word "y") 5 [.fail "boom"],
    .trigger "behind" (.word "z") 5 [], .advance 10]

/-- The task of the second timer that is due fails. The third has neither fired nor been cancelled
nor is it pending, whatever follows it does not fire, and its context goes on being marked as
pending. -/
theorem failing_task_loses_timer : ∃ (b b' : TimerBench Int) (t : Timer Int (Job Handle NamedTask)),
    Run perform { timers := { scheduler := { now := (0 : Int) } } } failing b ∧
    perform .runDue b = .error (.raised "boom") b' ∧ t ∈ b.timers.scheduler.dueTimers ∧
    t.id ∉ b'.timers.scheduler.fired ∧ t.id ∉ b'.timers.scheduler.cancelled ∧
    (∀ t' ∈ b'.timers.scheduler.pending, t'.id ≠ t.id) ∧
    (∀ actions, t.id ∉ (performAll actions b').timers.scheduler.fired) ∧
    b'.timers.isPending (.word "z") = true ∧ b'.timers.outstanding (.word "z") = [] := by
  have evaluated : succeedsWith (fun _ b => failsWith (fun e b' =>
      (e matches .raised "boom") && decide ((2, "behind") ∈ b.timers.scheduler.dueTimers.map
          fun t => (t.id, t.task.task.name)) &&
        decide (b'.timers.scheduler.issued = 3 ∧ b'.timers.scheduler.fired = [1, 0] ∧
          b'.timers.scheduler.cancelled = [] ∧ b'.timers.scheduler.pending.isEmpty = true ∧
          b'.timers.isPending (.word "z") = true)) (perform .runDue) b)
      (failing.forM fun a => discard (perform a))
      ({ timers := { scheduler := { now := 0 } } } : TimerBench Int) = true := by cbv
  obtain ⟨⟨⟩, b, run, ran⟩ := ok_of_succeedsWith evaluated
  obtain ⟨e, b', failed, seen⟩ := error_of_failsWith ran
  simp only [Bool.and_eq_true, decide_eq_true_eq] at seen
  obtain ⟨⟨raised, due⟩, issued, fired, cancelled, pending, marked⟩ := seen
  obtain ⟨t, mem, named⟩ := List.mem_map.1 due
  have number : t.id = 2 := congrArg Prod.fst named
  have none : b'.timers.scheduler.pending = [] := List.isEmpty_iff.1 pending
  have absent : ∀ t' ∈ b'.timers.scheduler.pending ++ [], t'.id ≠ t.id := by
    rw [none]
    exact fun t' mem => by cases mem
  refine ⟨b, b', t, .of_forM run, ?_, mem, ?_, ?_, ?_, fun actions => ?_, marked, ?_⟩
  · split at raised
    · exact failed
    · cases raised
  · rw [number, fired]; decide
  · rw [cancelled]; exact List.not_mem_nil
  · rw [none]; exact fun t' mem => by cases mem
  · refine ((performAll_leads actions b').scheduler.never_fires ?_ ?_ absent).2.1
    · rw [number, issued]; decide
    · rw [number, fired]; decide
  · rw [Debouncer.outstanding, none]; rfl

end TimerBench

end MessageLens
