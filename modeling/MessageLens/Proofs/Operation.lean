import MessageLens.Focus

/-!
# Operations and the state they run on

An operation that succeeds has succeeded in every part: the lemmas that end in `ok` take a
successful operation apart, and later modules see the parts through them. One that fails has failed
in one part, and the lemmas that end in `error` find it. An operation keeps a view
of the state when the view is the same afterwards, whether the operation succeeds or fails, and it
respects a relation on states when it does not tell related states apart.
-/

namespace MessageLens.Operation
set_option autoImplicit false

variable {ε σ α β γ : Type} {s s' : σ}

/-! ## Success, part by part -/

@[simp] theorem bind_ok {x : Operation ε σ α} {k : α → Operation ε σ β} {b : β} :
    (x >>= k) s = .ok b s' ↔ ∃ a t, x s = .ok a t ∧ k a t = .ok b s' := by
  show EStateM.bind x k s = _ ↔ _
  unfold EStateM.bind
  constructor
  · intro h
    cases hx : x s with
    | ok a t => rw [hx] at h; exact ⟨a, t, rfl, h⟩
    | error e t => rw [hx] at h; cases h
  · rintro ⟨a, t, hx, hk⟩
    rw [hx]; exact hk

/-- What follows an operation that succeeds goes on from where it has led to. -/
theorem bind_of_ok {x : Operation ε σ α} {a : α} (run : x s = .ok a s')
    (k : α → Operation ε σ β) : (x >>= k) s = k a s' := by
  show EStateM.bind x k s = _
  rw [EStateM.bind, run]

@[simp] theorem pure_ok {a b : α} :
    (pure a : Operation ε σ α) s = .ok b s' ↔ a = b ∧ s = s' := by
  show EStateM.Result.ok a s = _ ↔ _
  rw [EStateM.Result.ok.injEq]

@[simp] theorem get_ok {t : σ} : (get : Operation ε σ σ) s = .ok t s' ↔ s = t ∧ s = s' := by
  show EStateM.Result.ok s s = _ ↔ _
  rw [EStateM.Result.ok.injEq]

@[simp] theorem modify_ok {f : σ → σ} {u : Unit} :
    (modify f : Operation ε σ Unit) s = .ok u s' ↔ f s = s' := by
  show EStateM.Result.ok () (f s) = _ ↔ _
  rw [EStateM.Result.ok.injEq]
  exact and_iff_right rfl

@[simp] theorem throw_ok {e : ε} {a : α} : (throw e : Operation ε σ α) s = .ok a s' ↔ False := by
  show EStateM.Result.error e s = _ ↔ _
  exact iff_of_false (fun h => by cases h) id

@[simp] theorem map_ok {x : Operation ε σ α} {f : α → β} {b : β} :
    (f <$> x) s = .ok b s' ↔ ∃ a, x s = .ok a s' ∧ f a = b := by
  show EStateM.map f x s = _ ↔ _
  unfold EStateM.map
  constructor
  · intro h
    cases hx : x s with
    | ok a t => rw [hx] at h; cases h; exact ⟨a, rfl, rfl⟩
    | error e t => rw [hx] at h; cases h
  · rintro ⟨a, hx, rfl⟩
    rw [hx]

@[simp] theorem discard_ok {x : Operation ε σ α} {u : Unit} :
    (discard x : Operation ε σ Unit) s = .ok u s' ↔ ∃ a, x s = .ok a s' := by
  show (Function.const α () <$> x) s = _ ↔ _
  simp

@[simp] theorem ite_ok {p : Prop} [Decidable p] {x y : Operation ε σ α} {a : α} :
    (if p then x else y) s = .ok a s' ↔ p ∧ x s = .ok a s' ∨ ¬ p ∧ y s = .ok a s' := by
  by_cases h : p <;> simp [h]

@[simp] theorem read_ok {f : Focus σ β} {b : β} :
    (f.read : Operation ε σ β) s = .ok b s' ↔ f.get s = b ∧ s = s' := by
  show EStateM.Result.ok (f.get s) s = _ ↔ _
  rw [EStateM.Result.ok.injEq]

@[simp] theorem change_ok {f : Focus σ β} {g : β → β} {u : Unit} :
    (f.change g : Operation ε σ Unit) s = .ok u s' ↔ f.put s (g (f.get s)) = s' := by
  show EStateM.Result.ok () (f.put s (g (f.get s))) = _ ↔ _
  rw [EStateM.Result.ok.injEq]
  exact and_iff_right rfl

@[simp] theorem update_ok {f : Focus σ β} {g : β → γ × β} {c : γ} :
    (f.update g : Operation ε σ γ) s = .ok c s' ↔
      (g (f.get s)).1 = c ∧ f.put s (g (f.get s)).2 = s' := by
  show EStateM.Result.ok (g (f.get s)).1 (f.put s (g (f.get s)).2) = _ ↔ _
  rw [EStateM.Result.ok.injEq]

@[simp] theorem forM_nil_ok {f : α → Operation ε σ Unit} {u : Unit} :
    ([] : List α).forM f s = .ok u s' ↔ s = s' := by
  show EStateM.Result.ok () s = _ ↔ _
  rw [EStateM.Result.ok.injEq]
  exact and_iff_right rfl

@[simp] theorem forM_cons_ok {f : α → Operation ε σ Unit} {a : α} {as : List α} {u : Unit} :
    (a :: as).forM f s = .ok u s' ↔ ∃ t, f a s = .ok () t ∧ as.forM f t = .ok u s' := by
  show (f a >>= fun _ => as.forM f) s = _ ↔ _
  rw [bind_ok]
  exact ⟨fun ⟨_, t, h⟩ => ⟨t, h⟩, fun ⟨t, h⟩ => ⟨(), t, h⟩⟩

theorem forM_append_ok {f : α → Operation ε σ Unit} {as bs : List α} {u : Unit} :
    (as ++ bs).forM f s = .ok u s' ↔ ∃ t, as.forM f s = .ok () t ∧ bs.forM f t = .ok u s' := by
  induction as generalizing s with
  | nil => exact ⟨fun h => ⟨s, rfl, h⟩, fun ⟨_, start, h⟩ => forM_nil_ok.1 start ▸ h⟩
  | cons a as ih =>
    rw [List.cons_append, forM_cons_ok]
    constructor
    · rintro ⟨t, first, later⟩
      obtain ⟨r, middle, last⟩ := ih.1 later
      exact ⟨r, forM_cons_ok.2 ⟨t, first, middle⟩, last⟩
    · rintro ⟨r, begun, last⟩
      obtain ⟨t, first, middle⟩ := forM_cons_ok.1 begun
      exact ⟨t, first, ih.2 ⟨r, middle, last⟩⟩

/-- A part that only reads leaves its answer and its state to what follows. -/
@[simp] theorem exists_both_eq {p : α → β → Prop} {a : α} {b : β} :
    (∃ x y, (a = x ∧ b = y) ∧ p x y) ↔ p a b := by
  constructor
  · rintro ⟨_, _, ⟨rfl, rfl⟩, h⟩
    exact h
  · exact fun h => ⟨a, b, ⟨rfl, rfl⟩, h⟩

/-- A part that only changes the state leaves the changed state to what follows. -/
@[simp] theorem exists_unit_eq {p : Unit → σ → Prop} :
    (∃ u t, s = t ∧ p u t) ↔ p () s := by
  constructor
  · rintro ⟨_, _, rfl, h⟩
    exact h
  · exact fun h => ⟨(), s, rfl, h⟩

/-- Whether an operation succeeds with an answer and a state of some kind. -/
def succeedsWith (p : α → σ → Bool) (x : Operation ε σ α) (s : σ) : Bool :=
  match x s with
  | .ok a s' => p a s'
  | .error _ _ => false

theorem ok_of_succeedsWith {p : α → σ → Bool} {x : Operation ε σ α}
    (h : succeedsWith p x s = true) : ∃ a s', x s = .ok a s' ∧ p a s' = true := by
  rw [succeedsWith] at h
  cases run : x s with
  | ok a s' => rw [run] at h; exact ⟨a, s', rfl, h⟩
  | error e s' => rw [run] at h; cases h

/-! ## Failure, part by part -/

@[simp] theorem bind_error {x : Operation ε σ α} {k : α → Operation ε σ β} {e : ε} :
    (x >>= k) s = .error e s' ↔
      x s = .error e s' ∨ ∃ a t, x s = .ok a t ∧ k a t = .error e s' := by
  show EStateM.bind x k s = _ ↔ _
  unfold EStateM.bind
  cases run : x s with
  | ok a t =>
    constructor
    · intro later
      exact .inr ⟨a, t, rfl, later⟩
    · rintro (here | ⟨_, _, same, later⟩)
      · cases here
      · cases same
        exact later
  | error e t =>
    constructor
    · intro here
      cases here
      exact .inl rfl
    · rintro (here | ⟨_, _, same, -⟩)
      · cases here
        rfl
      · cases same

@[simp] theorem pure_error {a : α} {e : ε} :
    (pure a : Operation ε σ α) s = .error e s' ↔ False :=
  iff_of_false (fun h => by cases h) id

@[simp] theorem get_error {e : ε} : (get : Operation ε σ σ) s = .error e s' ↔ False :=
  iff_of_false (fun h => by cases h) id

@[simp] theorem modify_error {f : σ → σ} {e : ε} :
    (modify f : Operation ε σ Unit) s = .error e s' ↔ False :=
  iff_of_false (fun h => by cases h) id

@[simp] theorem throw_error {e e' : ε} :
    (throw e : Operation ε σ α) s = .error e' s' ↔ e = e' ∧ s = s' := by
  show EStateM.Result.error e s = _ ↔ _
  rw [EStateM.Result.error.injEq]

@[simp] theorem ite_error {p : Prop} [Decidable p] {x y : Operation ε σ α} {e : ε} :
    (if p then x else y) s = .error e s' ↔ p ∧ x s = .error e s' ∨ ¬ p ∧ y s = .error e s' := by
  by_cases h : p <;> simp [h]

@[simp] theorem read_error {f : Focus σ β} {e : ε} :
    (f.read : Operation ε σ β) s = .error e s' ↔ False :=
  iff_of_false (fun h => by cases h) id

@[simp] theorem change_error {f : Focus σ β} {g : β → β} {e : ε} :
    (f.change g : Operation ε σ Unit) s = .error e s' ↔ False :=
  iff_of_false (fun h => by cases h) id

@[simp] theorem update_error {f : Focus σ β} {g : β → γ × β} {e : ε} :
    (f.update g : Operation ε σ γ) s = .error e s' ↔ False :=
  iff_of_false (fun h => by cases h) id

@[simp] theorem discard_error {x : Operation ε σ α} {e : ε} :
    (discard x : Operation ε σ Unit) s = .error e s' ↔ x s = .error e s' := by
  show EStateM.map (Function.const α ()) x s = _ ↔ _
  unfold EStateM.map
  cases x s <;> simp

@[simp] theorem forM_nil_error {f : α → Operation ε σ Unit} {e : ε} :
    ([] : List α).forM f s = .error e s' ↔ False :=
  iff_of_false (fun h => by cases h) id

@[simp] theorem forM_cons_error {f : α → Operation ε σ Unit} {a : α} {as : List α} {e : ε} :
    (a :: as).forM f s = .error e s' ↔
      f a s = .error e s' ∨ ∃ t, f a s = .ok () t ∧ as.forM f t = .error e s' := by
  show (f a >>= fun _ => as.forM f) s = _ ↔ _
  rw [bind_error]
  exact or_congr_right ⟨fun ⟨_, t, h⟩ => ⟨t, h⟩, fun ⟨t, h⟩ => ⟨(), t, h⟩⟩

/-- Whether an operation fails with a reason and a state of some kind. -/
def failsWith (p : ε → σ → Bool) (x : Operation ε σ α) (s : σ) : Bool :=
  match x s with
  | .ok _ _ => false
  | .error e s' => p e s'

theorem error_of_failsWith {p : ε → σ → Bool} {x : Operation ε σ α}
    (h : failsWith p x s = true) : ∃ e s', x s = .error e s' ∧ p e s' = true := by
  rw [failsWith] at h
  cases run : x s with
  | ok a s' => rw [run] at h; cases h
  | error e s' => rw [run] at h; exact ⟨e, s', rfl, h⟩

/-- The operation never fails for that reason. -/
def Avoids (e : ε) (x : Operation ε σ α) : Prop := ∀ s s', x s ≠ .error e s'

section Avoids

variable {e : ε}

theorem Avoids.pure (a : α) : Avoids e (pure a : Operation ε σ α) :=
  fun _ _ run => pure_error.1 run

theorem Avoids.get : Avoids e (get : Operation ε σ σ) := fun _ _ run => get_error.1 run

theorem Avoids.modify (f : σ → σ) : Avoids e (modify f : Operation ε σ Unit) :=
  fun _ _ run => modify_error.1 run

theorem Avoids.read (f : Focus σ β) : Avoids e (f.read : Operation ε σ β) :=
  fun _ _ run => read_error.1 run

theorem Avoids.change (f : Focus σ β) (g : β → β) :
    Avoids e (f.change g : Operation ε σ Unit) := fun _ _ run => change_error.1 run

theorem Avoids.update (f : Focus σ β) (g : β → γ × β) :
    Avoids e (f.update g : Operation ε σ γ) := fun _ _ run => update_error.1 run

theorem Avoids.throw {e' : ε} (other : e' ≠ e) : Avoids e (throw e' : Operation ε σ α) :=
  fun _ _ run => other (throw_error.1 run).1

theorem Avoids.bind {x : Operation ε σ α} {k : α → Operation ε σ β} (hx : Avoids e x)
    (hk : ∀ a, Avoids e (k a)) : Avoids e (x >>= k) := by
  intro s s' run
  obtain first | ⟨a, t, -, later⟩ := bind_error.1 run
  · exact hx s s' first
  · exact hk a t s' later

/-- What follows fails if what comes first does not. -/
theorem Avoids.later {x : Operation ε σ α} {k : α → Operation ε σ β} (hx : Avoids e x)
    (run : (x >>= k) s = .error e s') : ∃ a t, x s = .ok a t ∧ k a t = .error e s' :=
  (bind_error.1 run).resolve_left (hx s s')

/-- What comes first fails if what follows does not. -/
theorem Avoids.first {x : Operation ε σ α} {k : α → Operation ε σ β} (hk : ∀ a, Avoids e (k a))
    (run : (x >>= k) s = .error e s') : x s = .error e s' :=
  (bind_error.1 run).resolve_right fun ⟨a, t, _, later⟩ => hk a t s' later

theorem Avoids.ite {p : Prop} [Decidable p] {x y : Operation ε σ α} (hx : Avoids e x)
    (hy : Avoids e y) : Avoids e (if p then x else y) := by
  by_cases h : p
  · rw [if_pos h]; exact hx
  · rw [if_neg h]; exact hy

theorem Avoids.forM {f : α → Operation ε σ Unit} (h : ∀ a, Avoids e (f a)) (as : List α) :
    Avoids e (as.forM f) := by
  induction as with
  | nil => exact Avoids.pure ()
  | cons a as ih => exact (h a).bind fun _ => ih

end Avoids

/-! ## Views that an operation keeps -/

/-- The state that an operation leaves behind. -/
def leaves (x : Operation ε σ α) (s : σ) : σ :=
  match x s with
  | .ok _ s' => s'
  | .error _ s' => s'

theorem leaves_ok {x : Operation ε σ α} {a : α} (run : x s = .ok a s') : leaves x s = s' := by
  rw [leaves, run]

theorem leaves_error {x : Operation ε σ α} {e : ε} (run : x s = .error e s') :
    leaves x s = s' := by
  rw [leaves, run]

theorem leaves_bind (x : Operation ε σ α) (k : α → Operation ε σ β) (s : σ) :
    leaves (x >>= k) s = match x s with
      | .ok a t => leaves (k a) t
      | .error _ t => t := by
  show (match EStateM.bind x k s with | .ok _ s' => s' | .error _ s' => s') = _
  unfold EStateM.bind
  cases x s <;> rfl

theorem leaves_bind_of_ok {x : Operation ε σ α} {a : α} (run : x s = .ok a s')
    (k : α → Operation ε σ β) : leaves (x >>= k) s = leaves (k a) s' := by
  rw [leaves_bind, run]

theorem leaves_ite {p : Prop} [Decidable p] (x y : Operation ε σ α) (s : σ) :
    leaves (if p then x else y) s = if p then leaves x s else leaves y s := by
  by_cases h : p
  · rw [if_pos h, if_pos h]
  · rw [if_neg h, if_neg h]

/-- An answer is given without changing the state. -/
theorem leaves_answer (x : Operation ε σ α) (f : α → β) (s : σ) :
    leaves (x >>= fun a => pure (f a)) s = leaves x s := by
  rw [leaves_bind, leaves]
  cases x s <;> rfl

theorem leaves_map (x : Operation ε σ α) (f : α → β) (s : σ) : leaves (f <$> x) s = leaves x s := by
  show (match EStateM.map f x s with | .ok _ s' => s' | .error _ s' => s') = _
  unfold EStateM.map leaves
  cases x s <;> rfl

/-- What handles a failure goes on from the state that the failure has left. -/
theorem leaves_tryCatch (x : Operation ε σ α) (handler : ε → Operation ε σ α) (s : σ) :
    leaves (tryCatch x handler) s = match x s with
      | .ok _ t => t
      | .error e t => leaves (handler e) t := by
  show (match EStateM.tryCatch x handler s with | .ok _ s' => s' | .error _ s' => s') = _
  unfold EStateM.tryCatch
  cases x s <;> rfl

/-- Whatever becomes of the operation, the view of the state stays the same. -/
def Keeps (view : σ → γ) (x : Operation ε σ α) : Prop := ∀ s, view (leaves x s) = view s

variable {view : σ → γ}

theorem Keeps.ok {x : Operation ε σ α} (h : Keeps view x) {a : α} (run : x s = .ok a s') :
    view s' = view s := by
  have left := h s
  rw [leaves, run] at left
  exact left

theorem Keeps.error {x : Operation ε σ α} (h : Keeps view x) {e : ε} (run : x s = .error e s') :
    view s' = view s := by
  have left := h s
  rw [leaves, run] at left
  exact left

theorem Keeps.pure (a : α) : Keeps view (pure a : Operation ε σ α) := fun _ => rfl

theorem Keeps.get : Keeps view (get : Operation ε σ σ) := fun _ => rfl

theorem Keeps.throw (e : ε) : Keeps view (throw e : Operation ε σ α) := fun _ => rfl

theorem Keeps.read (f : Focus σ β) : Keeps view (f.read : Operation ε σ β) := fun _ => rfl

theorem Keeps.modify {f : σ → σ} (h : ∀ s, view (f s) = view s) :
    Keeps view (modify f : Operation ε σ Unit) := h

theorem Keeps.change {f : Focus σ β} (h : ∀ s b, view (f.put s b) = view s) (g : β → β) :
    Keeps view (f.change g : Operation ε σ Unit) := fun s => h s (g (f.get s))

theorem Keeps.update {f : Focus σ β} (h : ∀ s b, view (f.put s b) = view s) (g : β → α × β) :
    Keeps view (f.update g : Operation ε σ α) := fun s => h s (g (f.get s)).2

theorem Keeps.bind {x : Operation ε σ α} {k : α → Operation ε σ β} (hx : Keeps view x)
    (hk : ∀ a, Keeps view (k a)) : Keeps view (x >>= k) := by
  intro s
  have first := hx s
  rw [leaves] at first
  rw [leaves_bind]
  cases run : x s with
  | ok a t =>
    rw [run] at first
    exact (hk a t).trans first
  | error e t =>
    rw [run] at first
    exact first

/-- What follows an operation leaves a view alone. -/
theorem Keeps.after {k : α → Operation ε σ β} (hk : ∀ a, Keeps view (k a))
    (x : Operation ε σ α) (s : σ) : view (leaves (x >>= k) s) = view (leaves x s) := by
  rw [leaves_bind, leaves]
  cases x s with
  | ok a t => exact hk a t
  | error e t => rfl

theorem Keeps.map {x : Operation ε σ α} (hx : Keeps view x) (f : α → β) :
    Keeps view (f <$> x) := by
  intro s
  have left := hx s
  show view (match EStateM.map f x s with | .ok _ s' => s' | .error _ s' => s') = view s
  unfold EStateM.map
  cases run : x s <;> rw [leaves, run] at left <;> exact left

theorem Keeps.discard {x : Operation ε σ α} (hx : Keeps view x) : Keeps view (discard x) :=
  hx.map _

theorem Keeps.ite {p : Prop} [Decidable p] {x y : Operation ε σ α} (hx : Keeps view x)
    (hy : Keeps view y) : Keeps view (if p then x else y) := by
  by_cases h : p
  · rw [if_pos h]; exact hx
  · rw [if_neg h]; exact hy

theorem Keeps.forM_of_mem {f : α → Operation ε σ Unit} {as : List α}
    (h : ∀ a ∈ as, Keeps view (f a)) : Keeps view (as.forM f) := by
  induction as with
  | nil => exact Keeps.pure ()
  | cons a as ih =>
    rw [List.forall_mem_cons] at h
    exact h.1.bind fun _ => ih h.2

theorem Keeps.forM {f : α → Operation ε σ Unit} (h : ∀ a, Keeps view (f a)) (as : List α) :
    Keeps view (as.forM f) := Keeps.forM_of_mem fun a _ => h a

/-- A view of a view is kept with it. -/
theorem Keeps.comp {x : Operation ε σ α} (h : Keeps view x) (f : γ → β) :
    Keeps (fun s => f (view s)) x := fun s => congrArg f (h s)

/-! ## Properties that an operation preserves -/

/-- What holds before the operation holds after it, if it succeeds. -/
def Preserves (P : σ → Prop) (x : Operation ε σ α) : Prop :=
  ∀ ⦃s a s'⦄, P s → x s = .ok a s' → P s'

variable {P : σ → Prop}

theorem Keeps.preserves {x : Operation ε σ α} (keeps : Keeps view x)
    (same : ∀ ⦃s s'⦄, view s' = view s → P s → P s') : Preserves P x :=
  fun _ _ _ before run => same (keeps.ok run) before

theorem Preserves.bind {x : Operation ε σ α} {k : α → Operation ε σ β} (hx : Preserves P x)
    (hk : ∀ a, Preserves P (k a)) : Preserves P (x >>= k) := by
  intro s b s' before run
  obtain ⟨a, t, first, later⟩ := bind_ok.1 run
  exact hk a (hx before first) later

theorem Preserves.ite {p : Prop} [Decidable p] {x y : Operation ε σ α} (hx : Preserves P x)
    (hy : Preserves P y) : Preserves P (if p then x else y) := by
  by_cases h : p
  · rw [if_pos h]; exact hx
  · rw [if_neg h]; exact hy

theorem Preserves.pure (a : α) : Preserves P (pure a : Operation ε σ α) := by
  intro s b s' before run
  obtain ⟨-, rfl⟩ := pure_ok.1 run
  exact before

theorem Preserves.read (f : Focus σ β) : Preserves P (f.read : Operation ε σ β) := by
  intro s b s' before run
  obtain ⟨-, rfl⟩ := read_ok.1 run
  exact before

theorem Preserves.forM {f : α → Operation ε σ Unit} (h : ∀ a, Preserves P (f a)) (as : List α) :
    Preserves P (as.forM f) := by
  induction as with
  | nil => exact Preserves.pure ()
  | cons a as ih => exact (h a).bind fun _ => ih

/-! ## What holds whatever becomes of an operation -/

/-- What holds before the operation holds after it, whether it succeeds or fails. -/
def Maintains (P : σ → Prop) (x : Operation ε σ α) : Prop := ∀ s, P s → P (leaves x s)

namespace Maintains

theorem pure (a : α) : Maintains P (pure a : Operation ε σ α) := fun _ before => before

theorem throw (e : ε) : Maintains P (throw e : Operation ε σ α) := fun _ before => before

theorem modify {f : σ → σ} (h : ∀ s, P s → P (f s)) :
    Maintains P (modify f : Operation ε σ Unit) := h

theorem change {f : Focus σ β} {g : β → β} (h : ∀ s, P s → P (f.put s (g (f.get s)))) :
    Maintains P (f.change g : Operation ε σ Unit) := h

theorem bind {x : Operation ε σ α} {k : α → Operation ε σ β} (hx : Maintains P x)
    (hk : ∀ a, Maintains P (k a)) : Maintains P (x >>= k) := by
  intro s before
  have first := hx s before
  rw [leaves] at first
  rw [leaves_bind]
  cases run : x s with
  | ok a t =>
    rw [run] at first
    exact hk a t first
  | error e t =>
    rw [run] at first
    exact first

/-- What follows a look at the state may use what holds of it. -/
theorem get_bind {k : σ → Operation ε σ β} (hk : ∀ s, P s → P (leaves (k s) s)) :
    Maintains P (get >>= k) := hk

theorem read_bind {f : Focus σ γ} {k : γ → Operation ε σ β}
    (hk : ∀ s, P s → P (leaves (k (f.get s)) s)) : Maintains P (f.read >>= k) := hk

theorem ite {p : Prop} [Decidable p] {x y : Operation ε σ α} (hx : Maintains P x)
    (hy : Maintains P y) : Maintains P (if p then x else y) := by
  by_cases h : p
  · rw [if_pos h]; exact hx
  · rw [if_neg h]; exact hy

theorem forM {f : α → Operation ε σ Unit} (h : ∀ a, Maintains P (f a)) (as : List α) :
    Maintains P (as.forM f) := by
  induction as with
  | nil => exact Maintains.pure ()
  | cons a as ih => exact (h a).bind fun _ => ih

end Maintains

/-! ## Relations that an operation respects -/

/-- Whatever succeeds in a state succeeds with the same answer in the related states, and leads to
related states again. -/
def Respects (R : σ → σ → Prop) (x : Operation ε σ α) : Prop :=
  ∀ ⦃s t⦄, R s t → ∀ ⦃a s'⦄, x s = .ok a s' → ∃ t', x t = .ok a t' ∧ R s' t'

variable {R : σ → σ → Prop}

theorem Respects.pure (a : α) : Respects R (pure a : Operation ε σ α) := by
  intro s t related b s' run
  obtain ⟨rfl, rfl⟩ := pure_ok.1 run
  exact ⟨t, rfl, related⟩

theorem Respects.throw (e : ε) : Respects R (throw e : Operation ε σ α) :=
  fun _ _ _ _ _ run => (throw_ok.1 run).elim

theorem Respects.modify {f : σ → σ} (h : ∀ s t, R s t → R (f s) (f t)) :
    Respects R (modify f : Operation ε σ Unit) := by
  intro s t related u s' run
  obtain rfl := modify_ok.1 run
  exact ⟨f t, rfl, h s t related⟩

theorem Respects.read {f : Focus σ β} (h : ∀ s t, R s t → f.get s = f.get t) :
    Respects R (f.read : Operation ε σ β) := by
  intro s t related b s' run
  obtain ⟨rfl, rfl⟩ := read_ok.1 run
  exact ⟨t, read_ok.2 ⟨(h s t related).symm, rfl⟩, related⟩

theorem Respects.change {f : Focus σ β} {g : β → β}
    (h : ∀ s t, R s t → R (f.put s (g (f.get s))) (f.put t (g (f.get t)))) :
    Respects R (f.change g : Operation ε σ Unit) := by
  intro s t related u s' run
  obtain rfl := change_ok.1 run
  exact ⟨_, rfl, h s t related⟩

theorem Respects.bind {x : Operation ε σ α} {k : α → Operation ε σ β} (hx : Respects R x)
    (hk : ∀ a, Respects R (k a)) : Respects R (x >>= k) := by
  intro s t related b s' run
  obtain ⟨a, s₁, first, later⟩ := bind_ok.1 run
  obtain ⟨t₁, first', related₁⟩ := hx related first
  obtain ⟨t', later', related'⟩ := hk a related₁ later
  exact ⟨t', bind_ok.2 ⟨a, t₁, first', later'⟩, related'⟩

/-- Reading the whole state respects a relation if what follows does not look at the difference. -/
theorem Respects.get_bind {k : σ → Operation ε σ β} (same : ∀ s t, R s t → k s = k t)
    (hk : ∀ s, Respects R (k s)) : Respects R (get >>= k) := by
  intro s t related b s' run
  show ∃ t', k t t = .ok b t' ∧ R s' t'
  rw [← same s t related]
  exact hk s related run

theorem Respects.ite {p : Prop} [Decidable p] {x y : Operation ε σ α} (hx : Respects R x)
    (hy : Respects R y) : Respects R (if p then x else y) := by
  by_cases h : p
  · rw [if_pos h]; exact hx
  · rw [if_neg h]; exact hy

theorem Respects.forM {f : α → Operation ε σ Unit} (h : ∀ a, Respects R (f a)) (as : List α) :
    Respects R (as.forM f) := by
  induction as with
  | nil => exact Respects.pure ()
  | cons a as ih => exact (h a).bind fun _ => ih

/-! ## Runs -/

/-- What has happened in a run that has gone on has happened before, or since. -/
theorem append_split {δ : Type} {l more before after : List δ} {x : δ}
    (split : l ++ more = before ++ x :: after) :
    (∃ rest, l = before ++ x :: rest ∧ after = rest ++ more) ∨
      ∃ first, before = l ++ first ∧ more = first ++ x :: after := by
  obtain ⟨first, early, late⟩ | ⟨rest, early, late⟩ := List.append_eq_append_iff.1 split
  · exact .inr ⟨first, early, late⟩
  · cases rest with
    | nil => exact .inr ⟨[], by rw [early, List.append_nil, List.append_nil], late.symm⟩
    | cons y rest =>
      obtain ⟨rfl, same⟩ := List.cons.inj late
      exact .inl ⟨rest, early, same⟩

/-- What has happened in a run that has gone on by one step is the last step, or has happened
before. -/
theorem snoc_split {δ : Type} {l before after : List δ} {last x : δ}
    (split : l ++ [last] = before ++ x :: after) :
    (before = l ∧ x = last ∧ after = []) ∨
      ∃ after', l = before ++ x :: after' ∧ after = after' ++ [last] := by
  rcases append_split split with earlier | ⟨first, early, late⟩
  · exact .inr earlier
  · cases first with
    | nil =>
      obtain ⟨rfl, rfl⟩ := List.cons.inj late
      exact .inl ⟨by rw [early, List.append_nil], rfl, rfl⟩
    | cons y first =>
      have none := (List.cons.inj late).2
      simp at none

/-- `Run perform s₀ steps s`: the steps lead from `s₀` to `s`, and none of them fails. -/
inductive Run {ι : Type} (perform : ι → Operation ε σ α) (s₀ : σ) : List ι → σ → Prop where
  | start : Run perform s₀ [] s₀
  | next {steps : List ι} {s s' : σ} {step : ι} {a : α} :
      Run perform s₀ steps s → perform step s = .ok a s' → Run perform s₀ (steps ++ [step]) s'

namespace Run

variable {ι : Type} {perform : ι → Operation ε σ α} {s₀ s₁ : σ} {steps : List ι}

theorem cons {step : ι} {a : α} (first : perform step s₀ = .ok a s₁)
    (rest : Run perform s₁ steps s) : Run perform s₀ (step :: steps) s := by
  induction rest with
  | start => exact start.next first
  | next _ last ih => exact ih.next last

/-- Performing steps in turn, without looking at the answers, is a run. -/
theorem of_forM {u : Unit} (all : steps.forM (fun step => discard (perform step)) s₀ = .ok u s) :
    Run perform s₀ steps s := by
  induction steps generalizing s₀ with
  | nil =>
    obtain rfl := forM_nil_ok.1 all
    exact start
  | cons step steps ih =>
    obtain ⟨t, first, rest⟩ := forM_cons_ok.1 all
    obtain ⟨a, performed⟩ := discard_ok.1 first
    exact cons performed (ih rest)

theorem forM (run : Run perform s₀ steps s) :
    steps.forM (fun step => discard (perform step)) s₀ = .ok () s := by
  induction run with
  | start => rfl
  | next _ performed ih =>
    exact forM_append_ok.2 ⟨_, ih, forM_cons_ok.2 ⟨_, discard_ok.2 ⟨_, performed⟩, rfl⟩⟩

/-- Steps lead to one state only. -/
theorem unique (first : Run perform s₀ steps s) (second : Run perform s₀ steps s₁) : s = s₁ := by
  have same := first.forM.symm.trans second.forM
  cases same
  rfl

end Run

end MessageLens.Operation
