/-!
# Parts of a state

An operation that is written for one component of a program runs on the state of the whole program
by way of the component's place in it.
-/

namespace MessageLens
set_option autoImplicit false

variable {σ α β ε : Type}

/-- The place of a component of type `α` in states of type `σ`. -/
structure Focus (σ α : Type) where
  get : σ → α
  put : σ → α → σ
  get_put : ∀ s a, get (put s a) = a := by intros; rfl
  put_get : ∀ s, put s (get s) = s := by intros; rfl
  put_put : ∀ s a b, put (put s a) b = put s b := by intros; rfl

/-- An operation that may fail; the state it has reached is kept when it does. -/
abbrev Operation (ε σ α : Type) := EStateM ε σ α

namespace Focus

/-- The whole state as a component of itself. -/
def self (σ : Type) : Focus σ σ where
  get s := s
  put _ s := s

/-- The component. -/
def read (f : Focus σ α) : Operation ε σ α := fun s => .ok (f.get s) s

/-- Changes the component. -/
def change (f : Focus σ α) (g : α → α) : Operation ε σ Unit := fun s =>
  .ok () (f.put s (g (f.get s)))

/-- Changes the component and returns what goes with the change. -/
def update (f : Focus σ α) (g : α → β × α) : Operation ε σ β := fun s =>
  let (b, a) := g (f.get s)
  .ok b (f.put s a)

end Focus

end MessageLens
