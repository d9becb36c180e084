import MessageLens.Proofs.Operation
import MessageLens.Session.Step

/-!
# Where runs start

A session is created on an editor that may have open buffers already. It knows no project, nothing
is attached or watched, no timer is set, and nothing has been drawn in its namespace. From there a
run goes on step by step, with what a step has done when it fails.
-/

namespace MessageLens
set_option autoImplicit false

open Operation

variable {τ : Type}

/-- The editor has given that handle to a buffer, which may have been closed since. -/
def Host.Issued (h : Host) (id : Handle) : Prop := ∃ n : Nat, n ≤ h.opened ∧ id = .number n

namespace Session

/-- A session before its first step, on an editor that may have open buffers already. -/
structure IsNew (s : Session τ) : Prop where
  project : s.project = {}
  attached : s.attached = []
  watcher : s.watcher = {}
  timers : s.timers = { scheduler := { now := s.timers.scheduler.now } }
  opened : ∀ id b, s.host.buffers.get? id = some b → s.host.Issued id
  blank : ∀ id b, s.host.buffers.get? id = some b → b.drawn s.layer = []

/-- A session that has done nothing yet, on an editor in which its namespace may be in use. -/
structure Unused (s : Session τ) : Prop where
  attached : s.attached = []
  timers : s.timers = { scheduler := { now := s.timers.scheduler.now } }
  opened : ∀ id b, s.host.buffers.get? id = some b → s.host.Issued id

theorem IsNew.unused {s : Session τ} (new : IsNew s) : Unused s :=
  ⟨new.attached, new.timers, new.opened⟩

/-- A session that is created on a disk when its clock stands at zero. -/
def onDisk (disk : Disk) : Session Int where
  timers := { scheduler := { now := 0 } }
  workspace := { disk := disk }

theorem onDisk_isNew (disk : Disk) : IsNew (onDisk disk) where
  project := rfl
  attached := rfl
  watcher := rfl
  timers := rfl
  opened _ _ isOpen := nomatch isOpen
  blank _ _ isOpen := nomatch isOpen

/-- A disk with a project in a directory of its own that has no messages yet. -/
def nestedProject : Disk :=
  ⟨[(["p"], .directory 0), (["p", "project.inlang"], .directory 0),
    (["p", "project.inlang", "settings.json"], .file settings.toUTF8.toList 0)]⟩
where
  settings := "\x7b\"baseLocale\": \"en\", \"locales\": [\"en\"], \"pathPattern\": \"en.json\"\x7d"

/-- Writes the settings file of that project. -/
def writeSettings (content : Bytes) (modified : Option Int) : SessionStep :=
  .change (.write ⟨.root, ["p", "project.inlang", "settings.json"]⟩ content modified)

/-! ## Step by step -/

variable [Instant τ]

theorem runSteps_cons (s : Session τ) (step : SessionStep) (rest : List SessionStep) :
    runSteps s (step :: rest) = runSteps (leaves (perform step) s) rest := by
  rw [runSteps, leaves]
  cases perform step s <;> rfl

theorem runSteps_append (s : Session τ) (steps more : List SessionStep) :
    runSteps s (steps ++ more) = runSteps (runSteps s steps) more := by
  induction steps generalizing s with
  | nil => rfl
  | cons step rest ih => rw [List.cons_append, runSteps_cons, runSteps_cons, ih]

/-! ## What steps bring about and end -/

variable {starts ends : Session τ → SessionStep → Prop} {s : Session τ} {step : SessionStep}
  {steps : List SessionStep}

/-- No step of a run ends it. -/
def Lasts (ends : Session τ → SessionStep → Prop) (s : Session τ) (steps : List SessionStep) :
    Prop :=
  ∀ first step rest, steps = first ++ step :: rest → ¬ ends (runSteps s first) step

/-- A step of a run has brought it about, and no later one has ended it. -/
def Began (starts ends : Session τ → SessionStep → Prop) (s : Session τ)
    (steps : List SessionStep) : Prop :=
  ∃ before step after, steps = before ++ step :: after ∧ starts (runSteps s before) step ∧
    Lasts ends (leaves (perform step) (runSteps s before)) after

theorem lasts_nil : Lasts ends s [] := fun first step rest split => by simp at split

theorem lasts_cons : Lasts ends s (step :: steps) ↔
    ¬ ends s step ∧ Lasts ends (leaves (perform step) s) steps := by
  constructor
  · intro lasts
    refine ⟨lasts [] step steps rfl, ?_⟩
    rintro first next rest rfl
    have later := lasts (step :: first) next rest rfl
    rwa [runSteps_cons] at later
  · rintro ⟨now, later⟩ first next rest split
    cases first with
    | nil =>
      obtain ⟨rfl, -⟩ := List.cons.inj split
      exact now
    | cons head first =>
      obtain ⟨rfl, rfl⟩ := List.cons.inj split
      rw [runSteps_cons]
      exact later first next rest rfl

/-- What does not depend on the state lasts while no step of its kind is taken. -/
theorem lasts_iff {kind : SessionStep → Prop} :
    Lasts (fun _ => kind) s steps ↔ ∀ step ∈ steps, ¬ kind step := by
  constructor
  · intro lasts step mem
    obtain ⟨first, rest, split⟩ := List.append_of_mem mem
    exact lasts first step rest split
  · rintro none first step rest rfl
    exact none step (List.mem_append_right _ List.mem_cons_self)

theorem not_began_nil : ¬ Began starts ends s [] := by
  rintro ⟨before, step, after, split, -⟩
  simp at split

theorem began_cons : Began starts ends s (step :: steps) ↔
    starts s step ∧ Lasts ends (leaves (perform step) s) steps ∨
      Began starts ends (leaves (perform step) s) steps := by
  constructor
  · rintro ⟨before, first, after, split, started, lasts⟩
    cases before with
    | nil =>
      obtain ⟨rfl, rfl⟩ := List.cons.inj split
      exact .inl ⟨started, lasts⟩
    | cons head before =>
      obtain ⟨rfl, rfl⟩ := List.cons.inj split
      rw [runSteps_cons] at started lasts
      exact .inr ⟨before, first, after, rfl, started, lasts⟩
  · rintro (⟨started, lasts⟩ | ⟨before, first, after, rfl, started, lasts⟩)
    · exact ⟨[], step, steps, rfl, started, lasts⟩
    · refine ⟨step :: before, first, after, rfl, ?_⟩
      rw [runSteps_cons]
      exact ⟨started, lasts⟩

/-- What holds after a step if the step brings it about, or if it held before and the step does not
end it, holds after a run if some step has brought it about, or it held before, and no step since
has ended it. -/
theorem runSteps_iff_began {P I : Session τ → Prop}
    (keeps : ∀ s step, I s → I (leaves (perform step) s))
    (turns : ∀ s step, I s →
      (P (leaves (perform step) s) ↔ starts s step ∨ P s ∧ ¬ ends s step)) (start : I s)
    (steps : List SessionStep) :
    P (runSteps s steps) ↔ Began starts ends s steps ∨ P s ∧ Lasts ends s steps := by
  induction steps generalizing s with
  | nil =>
    exact ⟨fun now => .inr ⟨now, lasts_nil⟩,
      fun either => (either.resolve_left not_began_nil).1⟩
  | cons step rest ih =>
    rw [runSteps_cons, ih (keeps s step start), turns s step start, began_cons, lasts_cons]
    constructor
    · rintro (began | ⟨started | ⟨held, stays⟩, lasts⟩)
      · exact .inl (.inr began)
      · exact .inl (.inl ⟨started, lasts⟩)
      · exact .inr ⟨held, stays, lasts⟩
    · rintro ((⟨started, lasts⟩ | began) | ⟨held, stays, lasts⟩)
      · exact .inr ⟨.inl started, lasts⟩
      · exact .inl began
      · exact .inr ⟨.inr ⟨held, stays⟩, lasts⟩

end Session

end MessageLens
