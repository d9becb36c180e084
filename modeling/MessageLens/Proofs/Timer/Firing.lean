import MessageLens.Proofs.Operation
import MessageLens.Timer.Scheduler

/-!
# Firing a batch

A batch is in order of due time, and of scheduling where due times agree. It is fired timer by
timer: what holds of the timers that are left, and is kept when one of them is passed over or
fired, holds of none of them in the end.
-/

namespace MessageLens
set_option autoImplicit false

open Operation

variable {σ τ α ε : Type}

/-- Points in time are compared as a total order. -/
class Instant.IsTotal (τ : Type) [Instant τ] : Prop where
  total : ∀ s t : τ, Instant.notAfter s t = true ∨ Instant.notAfter t s = true
  trans : ∀ s t u : τ, Instant.notAfter s t = true → Instant.notAfter t u = true →
    Instant.notAfter s u = true

instance : Instant.IsTotal Int where
  total s t := by
    simp only [Instant.notAfter, decide_eq_true_eq]
    omega
  trans s t u first second := by
    simp only [Instant.notAfter, decide_eq_true_eq] at first second ⊢
    omega

/-- A timer is due before another, or together with it and has been scheduled before it. -/
def Timer.Precedes [Instant τ] (t t' : Timer τ α) : Prop :=
  Instant.notAfter t.due t'.due = true ∧
    (Instant.notAfter t'.due t.due = true → t.id < t'.id)

namespace Scheduler

/-! ## The order of a batch -/

/-- Of two members of a list one stands before the other. -/
theorem pair_sublist {β : Type} {l : List β} {a b : β} (first : a ∈ l) (second : b ∈ l)
    (differ : a ≠ b) : List.Sublist [a, b] l ∨ List.Sublist [b, a] l := by
  induction l with
  | nil => cases first
  | cons c rest ih =>
    obtain rfl | here := List.mem_cons.1 first
    · obtain rfl | there := List.mem_cons.1 second
      · exact absurd rfl differ
      · exact .inl ((List.singleton_sublist.2 there).cons_cons a)
    · obtain rfl | there := List.mem_cons.1 second
      · exact .inr ((List.singleton_sublist.2 here).cons_cons b)
      · exact (ih here there).imp (List.Sublist.cons c) (List.Sublist.cons c)

/-- Two members of a list without repetitions do not stand before each other. -/
theorem not_both_sublist {β : Type} {l : List β} {a b : β} (nodup : l.Nodup)
    (first : List.Sublist [a, b] l) (second : List.Sublist [b, a] l) : False := by
  induction l with
  | nil => cases first
  | cons c rest ih =>
    obtain ⟨fresh, nodup⟩ := List.nodup_cons.1 nodup
    cases first with
    | cons _ first =>
      cases second with
      | cons _ second => exact ih nodup first second
      | cons_cons _ second => exact fresh (first.subset (by simp))
    | cons_cons _ first =>
      cases second with
      | cons _ second => exact fresh (second.subset (by simp))
      | cons_cons _ second => exact fresh (second.subset (by simp))

variable [Instant τ] {s : Scheduler τ α} {t : Timer τ α}

theorem mem_dueTimers : t ∈ s.dueTimers ↔ t ∈ s.pending ∧ s.isDue t = true := by
  rw [dueTimers, List.mem_mergeSort, List.mem_filter]

/-- The timers that are due are fired in order if the pending ones are in order of scheduling. -/
theorem dueTimers_ordered [Instant.IsTotal τ] (ordered : s.pending.Pairwise (·.id < ·.id)) :
    s.dueTimers.Pairwise Timer.Precedes := by
  have trans : ∀ a b c : Timer τ α, Instant.notAfter a.due b.due = true →
      Instant.notAfter b.due c.due = true → Instant.notAfter a.due c.due = true :=
    fun a b c => Instant.IsTotal.trans a.due b.due c.due
  have total : ∀ a b : Timer τ α,
      (Instant.notAfter a.due b.due || Instant.notAfter b.due a.due) = true := by
    intro a b
    rw [Bool.or_eq_true]
    exact Instant.IsTotal.total a.due b.due
  have due : (s.pending.filter s.isDue).Pairwise (·.id < ·.id) := ordered.filter _
  have distinct : s.dueTimers.Nodup := by
    have perm := List.mergeSort_perm (s.pending.filter s.isDue)
      fun a b => Instant.notAfter a.due b.due
    refine perm.nodup_iff.2 (due.imp ?_)
    rintro a b less rfl
    exact Nat.lt_irrefl _ less
  rw [List.pairwise_iff_forall_sublist]
  intro a b before
  have sorted := List.pairwise_mergeSort trans total (s.pending.filter s.isDue)
  refine ⟨List.pairwise_iff_forall_sublist.1 sorted before, fun together => ?_⟩
  have members := before.subset
  have first : a ∈ s.pending.filter s.isDue := List.mem_mergeSort.1 (members (by simp))
  have second : b ∈ s.pending.filter s.isDue := List.mem_mergeSort.1 (members (by simp))
  have differ : a ≠ b := by
    rintro rfl
    exact not_both_sublist distinct before before
  obtain scheduled | scheduled := pair_sublist first second differ
  · exact List.pairwise_iff_forall_sublist.1 due scheduled
  · -- timers that are due together keep the order in which they were pending
    have stable := List.pair_sublist_mergeSort trans total together scheduled
    exact (not_both_sublist distinct before stable).elim

/-! ## Firing -/

omit [Instant τ] in
theorem runBatch_preserves {at' : Focus σ (Scheduler τ α)} {fire : Timer τ α → Operation ε σ Unit}
    {I : List (Timer τ α) → σ → Prop} {batch : List (Timer τ α)} {s s' : σ} {n : Nat}
    (skip : ∀ t rest s, I (t :: rest) s → (at'.get s).isActive t.id = false → I rest s)
    (fires : ∀ t rest s s', I (t :: rest) s → (at'.get s).isActive t.id = true →
      fire t (at'.put s ((at'.get s).markFired t.id)) = .ok () s' → I rest s')
    (start : I batch s) (run : runBatch at' fire batch s = .ok n s') : I [] s' := by
  induction batch generalizing s n with
  | nil =>
    obtain ⟨-, rfl⟩ := pure_ok.1 run
    exact start
  | cons t rest ih =>
    simp only [runBatch, bind_ok, read_ok, exists_both_eq, ite_ok, change_ok,
      exists_unit_eq] at run
    obtain ⟨active, _, s₁, fired, m, s₂, later, answer⟩ | ⟨inactive, later⟩ := run
    · obtain ⟨-, rfl⟩ := pure_ok.1 answer
      exact ih (fires t rest s s₁ start active fired) later
    · exact ih (skip t rest s start (Bool.eq_false_iff.2 inactive)) later

omit [Instant τ] in
/-- A batch fails at a timer that it calls, with the timers behind that one left. -/
theorem runBatch_error {at' : Focus σ (Scheduler τ α)} {fire : Timer τ α → Operation ε σ Unit}
    {I : List (Timer τ α) → σ → Prop} {batch : List (Timer τ α)} {s s' : σ} {e : ε}
    (skip : ∀ t rest s, I (t :: rest) s → (at'.get s).isActive t.id = false → I rest s)
    (fires : ∀ t rest s s', I (t :: rest) s → (at'.get s).isActive t.id = true →
      fire t (at'.put s ((at'.get s).markFired t.id)) = .ok () s' → I rest s')
    (start : I batch s) (run : runBatch at' fire batch s = .error e s') :
    ∃ t rest s₁, I (t :: rest) s₁ ∧ (at'.get s₁).isActive t.id = true ∧
      fire t (at'.put s₁ ((at'.get s₁).markFired t.id)) = .error e s' := by
  induction batch generalizing s with
  | nil => exact (pure_error.1 run).elim
  | cons t rest ih =>
    simp only [runBatch, bind_error, read_error, read_ok, exists_both_eq, ite_error, change_error,
      change_ok, exists_unit_eq, pure_error, and_false, exists_false, or_false, false_or] at run
    obtain ⟨active, failed | ⟨_, s₁, fired, later⟩⟩ | ⟨inactive, later⟩ := run
    · exact ⟨t, rest, s, start, active, failed⟩
    · exact ih (fires t rest s s₁ start active fired) later
    · exact ih (skip t rest s start (Bool.eq_false_iff.2 inactive)) later

end Scheduler

end MessageLens
