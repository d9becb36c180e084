import Mathlib.Data.List.Induction
import MessageLens.Proofs.Operation
import MessageLens.Proofs.Watch.Watcher
import MessageLens.Watch.Action

/-!
# Histories of watches

To say what becomes of changes, a watcher is recorded together with the files it watches and the
history of what has been done: which callbacks have been registered, what has been done to the
files, and what each poll has come to. A program uses the watcher by its calls alone and does to the
files what it likes, and callbacks are programs too: they register callbacks, clear the watcher that
runs them, and poll it while the poll that they belong to is not through.
-/

namespace MessageLens
set_option autoImplicit false

open Operation

variable {κ ρ β γ : Type}

/-- A callback as it has been registered. The number tells registrations of one callback apart. -/
structure Registration (κ : Type) where
  number : Nat
  callback : κ
  deriving DecidableEq, Repr

/-- What is done with a watcher and with the files that it watches. -/
inductive WatchEvent (κ : Type) where
  | registered (p : Path) (c : Registration κ) (files : Workspace)
  | cleared
  | changed (files files' : Workspace)
  /-- A poll begins. -/
  | began
  /-- The poll of that number looks at a path. -/
  | reached (poll : Nat) (p : Path) (files : Workspace)
  /-- It takes the path for changed. -/
  | reported (poll : Nat) (p : Path) (files : Workspace)
  /-- It calls a callback with the path. -/
  | called (poll : Nat) (p : Path) (c : Registration κ)
  deriving DecidableEq

namespace WatchEvent

/-! ## What a history says is watched -/

/-- The watched paths after an event. -/
def watchedAfter (ps : List Path) : WatchEvent κ → List Path
  | registered p _ _ => if p ∈ ps then ps else ps ++ [p]
  | cleared => []
  | _ => ps

/-- The paths that are watched, in the order of their first registrations. -/
def watchedIn (h : List (WatchEvent κ)) : List Path := h.foldl watchedAfter []

/-- The registrations for a path after an event. -/
def registrationsAfter (p : Path) (cs : List (Registration κ)) :
    WatchEvent κ → List (Registration κ)
  | registered q c _ => if q = p then cs ++ [c] else cs
  | cleared => []
  | _ => cs

/-- The registrations that have been made for a path since the watcher was cleared. -/
def registrationsOf (p : Path) (h : List (WatchEvent κ)) : List (Registration κ) :=
  h.foldl (registrationsAfter p) []

/-- The files as they are known for a path after an event. -/
def knownAfter (p : Path) (known : Option Workspace) : WatchEvent κ → Option Workspace
  | registered q _ files => if q = p then some (known.getD files) else known
  | reported _ q files => if q = p then known.map fun _ => files else known
  | cleared => none
  | _ => known

/-- The files as they were when a watched path was registered first, or reported last. -/
def known? (p : Path) (h : List (WatchEvent κ)) : Option Workspace := h.foldl (knownAfter p) none

/-- The stamp that a path had when it was registered first, or reported last. -/
def stampIn (p : Path) (h : List (WatchEvent κ)) : Option FileStamp :=
  (known? p h).bind fun files => (files.stamp? p).toOption.join

/-- The number of registrations, which is the number of the next one. -/
def registrationsIn (h : List (WatchEvent κ)) : Nat :=
  h.countP fun
    | registered .. => true
    | _ => false

/-- The number of polls, which is the number of the next one. -/
def pollsIn (h : List (WatchEvent κ)) : Nat :=
  h.countP fun
    | began => true
    | _ => false

/-- The paths that a poll has looked at. -/
def reachedBy (poll : Nat) (h : List (WatchEvent κ)) : List Path :=
  h.filterMap fun
    | reached poll' p _ => if poll' = poll then some p else none
    | _ => none

/-- The registrations whose callbacks a poll has called for a path. -/
def callsBy (poll : Nat) (p : Path) (h : List (WatchEvent κ)) : List (Registration κ) :=
  h.filterMap fun
    | called poll' q c => if poll' = poll ∧ q = p then some c else none
    | _ => none

section Events

variable {h more : List (WatchEvent κ)} {e : WatchEvent κ} {p : Path} {c : Registration κ}
  {poll : Nat}

theorem watchedIn_snoc : watchedIn (h ++ [e]) = watchedAfter (watchedIn h) e :=
  List.foldl_append

theorem registrationsOf_snoc :
    registrationsOf p (h ++ [e]) = registrationsAfter p (registrationsOf p h) e :=
  List.foldl_append

theorem known?_snoc : known? p (h ++ [e]) = knownAfter p (known? p h) e := List.foldl_append

/-- Clearing the watcher forgets what has been registered. -/
theorem registrationsOf_cleared :
    registrationsOf p (h ++ cleared :: more) = registrationsOf p more :=
  List.foldl_append

@[simp] theorem registrationsIn_append :
    registrationsIn (h ++ more) = registrationsIn h + registrationsIn more := List.countP_append

@[simp] theorem pollsIn_append : pollsIn (h ++ more) = pollsIn h + pollsIn more :=
  List.countP_append

@[simp] theorem reachedBy_append :
    reachedBy poll (h ++ more) = reachedBy poll h ++ reachedBy poll more := List.filterMap_append

@[simp] theorem callsBy_append :
    callsBy poll p (h ++ more) = callsBy poll p h ++ callsBy poll p more := List.filterMap_append

theorem mem_callsBy : c ∈ callsBy poll p h ↔ .called poll p c ∈ h := by
  rw [callsBy, List.mem_filterMap]
  constructor
  · rintro ⟨e, mem, same⟩
    cases e with
    | called poll' q c' =>
      simp only [Option.ite_none_right_eq_some, Option.some.injEq] at same
      obtain ⟨⟨rfl, rfl⟩, rfl⟩ := same
      exact mem
    | _ => cases same
  · intro mem
    exact ⟨_, mem, if_pos ⟨rfl, rfl⟩⟩

theorem mem_reachedBy : p ∈ reachedBy poll h ↔ ∃ files, .reached poll p files ∈ h := by
  rw [reachedBy, List.mem_filterMap]
  constructor
  · rintro ⟨e, mem, same⟩
    cases e with
    | reached poll' q files =>
      simp only [Option.ite_none_right_eq_some, Option.some.injEq] at same
      obtain ⟨rfl, rfl⟩ := same
      exact ⟨files, mem⟩
    | _ => cases same
  · rintro ⟨files, mem⟩
    exact ⟨_, mem, if_pos rfl⟩

theorem watchedIn_nodup (h : List (WatchEvent κ)) : (watchedIn h).Nodup := by
  induction h using List.reverseRecOn with
  | nil => exact List.nodup_nil
  | append_singleton h e ih =>
    rw [watchedIn_snoc]
    cases e with
    | registered p c files =>
      by_cases watched : p ∈ watchedIn h
      · rwa [watchedAfter, if_pos watched]
      · rw [watchedAfter, if_neg watched]
        refine List.nodup_append.2 ⟨ih, by simp, fun q mem r single same => ?_⟩
        rw [List.mem_singleton.1 single] at same
        exact watched (same ▸ mem)
    | cleared => exact List.nodup_nil
    | _ => exact ih

theorem isSome_known? : (known? p h).isSome = true ↔ p ∈ watchedIn h := by
  induction h using List.reverseRecOn with
  | nil => exact iff_of_false Bool.false_ne_true List.not_mem_nil
  | append_singleton h e ih =>
    rw [known?_snoc, watchedIn_snoc]
    cases e with
    | registered q c files =>
      simp only [knownAfter, watchedAfter]
      by_cases here : q = p
      · subst here
        rw [if_pos rfl]
        by_cases watched : q ∈ watchedIn h <;> simp [watched]
      · rw [if_neg here, ih]
        by_cases watched : q ∈ watchedIn h <;> simp [watched, Ne.symm here]
    | reported poll q files =>
      simp only [knownAfter, watchedAfter]
      by_cases here : q = p
      · rw [if_pos here, Option.isSome_map, ih]
      · rw [if_neg here, ih]
    | cleared => exact iff_of_false Bool.false_ne_true List.not_mem_nil
    | _ => exact ih

theorem registrationsOf_unwatched (free : p ∉ watchedIn h) : registrationsOf p h = [] := by
  induction h using List.reverseRecOn with
  | nil => rfl
  | append_singleton h e ih =>
    rw [watchedIn_snoc] at free
    rw [registrationsOf_snoc]
    cases e with
    | registered q c files =>
      simp only [watchedAfter] at free
      have other : q ≠ p := by
        rintro rfl
        by_cases watched : q ∈ watchedIn h <;> simp [watched] at free
      have before : p ∉ watchedIn h := by
        intro watched
        by_cases known : q ∈ watchedIn h <;> simp [known, watched] at free
      exact (if_neg other).trans (ih before)
    | cleared => rfl
    | _ => exact ih free

theorem mem_of_registrationsOf (mem : c ∈ registrationsOf p h) :
    ∃ files, .registered p c files ∈ h := by
  induction h using List.reverseRecOn with
  | nil => cases mem
  | append_singleton h e ih =>
    have older (before : c ∈ registrationsOf p h) : ∃ files, .registered p c files ∈ h ++ [e] :=
      (ih before).imp fun _ known => List.mem_append_left _ known
    rw [registrationsOf_snoc] at mem
    cases e with
    | registered q c' files =>
      simp only [registrationsAfter] at mem
      by_cases here : q = p
      · rw [if_pos here] at mem
        rcases List.mem_append.1 mem with before | new
        · exact older before
        · rw [List.mem_singleton.1 new, here]
          exact ⟨files, List.mem_append_right _ List.mem_cons_self⟩
      · rw [if_neg here] at mem
        exact older mem
    | cleared => cases mem
    | _ => exact older mem

end Events

end WatchEvent

namespace Watcher

open WatchEvent

/-- A watcher and the files that it watches, with the history of what has been done with them, in a
program with other data. -/
structure Recorded (κ ρ : Type) where
  watcher : Watcher (Registration κ) := {}
  files : Workspace
  history : List (WatchEvent κ) := []
  rest : ρ

namespace Recorded

/-- The place of the watcher. -/
def watches : Focus (Recorded κ ρ) (Watcher (Registration κ)) where
  get := watcher
  put r w := { r with watcher := w }

/-- Adds an event to the history. -/
def note (e : WatchEvent κ) : Operation WatchFailure (Recorded κ ρ) Unit :=
  modify fun r => { r with history := r.history ++ [e] }

/-- The present stamp of a path. -/
def look (p : Path) : Operation WatchFailure (Recorded κ ρ) (Option FileStamp) := do
  match (← get).files.stamp? p with
  | .ok stamp => return stamp
  | .error e => throw (.file e)

/-- Nothing has been done with the watcher yet. -/
structure IsNew (r : Recorded κ ρ) : Prop where
  watches : r.watcher.watches = []
  history : r.history = []

/-- Registers a callback for a path. -/
def watch (p : Path) (callback : κ) : Operation WatchFailure (Recorded κ ρ) Unit := do
  let r ← get
  let c := ⟨registrationsIn r.history, callback⟩
  WatchOwner.watch
    { watcher := watches, stamp := look, report := fun _ => return (), call := fun _ _ => return () }
    p c
  note (.registered p c r.files)

/-- Forgets all watches. -/
def clear : Operation WatchFailure (Recorded κ ρ) Unit := do
  watches.change (·.clear)
  note .cleared

/-- Does to the files what a program likes: writes, touches, deletes, creates, or tries to. -/
def change (files : Recorded κ ρ → Workspace) : Operation WatchFailure (Recorded κ ρ) Unit :=
  modify fun r => { r with
    files := files r
    history := r.history ++ [.changed r.files (files r)] }

/-- The files after a path has been written, if it can be. -/
def written (p : Path) (content : List UInt8) (r : Recorded κ ρ) : Workspace :=
  (r.files.apply (.write p content none)).toOption.getD r.files

/-- Notes that the path that has been looked at last is reported. -/
def noteReport : Operation WatchFailure (Recorded κ ρ) Unit :=
  modify fun r => { r with
    history := r.history ++
      match r.history.getLast? with
      | some (.reached poll p files) => [.reported poll p files]
      | _ => [] }

/-- What the poll of a number does, given what the callbacks do. -/
def owner (poll : Nat) (callback : κ → Path → Operation WatchFailure (Recorded κ ρ) Unit) :
    WatchOwner WatchFailure (Recorded κ ρ) (Registration κ) where
  watcher := watches
  stamp p := do
    note (.reached poll p (← get).files)
    look p
  report _ := noteReport
  call c p := do
    note (.called poll p c)
    callback c.callback p

/-- Polls, given what the callbacks do; the paths that have changed. -/
def poll (callback : κ → Path → Operation WatchFailure (Recorded κ ρ) Unit) :
    Operation WatchFailure (Recorded κ ρ) (List Path) := do
  let poll := pollsIn (← get).history
  note .began
  (owner poll callback).poll

/-- What a user of the watcher may do, in and outside of callbacks: anything that has nothing to do
with the watcher and the files, and registering callbacks and changing files in any order. One who
is free may also clear the watcher and poll it, in callbacks too. Everything may depend on the whole
state. -/
inductive Program (free : Prop) :
    {β : Type} → Operation WatchFailure (Recorded κ ρ) β → Prop where
  | elsewhere {β : Type} {x : Operation WatchFailure (Recorded κ ρ) β}
      (keeps : Keeps (fun r => (r.watcher, r.files, r.history)) x) : Program free x
  | bind {β γ : Type} {x : Operation WatchFailure (Recorded κ ρ) β}
      {k : β → Operation WatchFailure (Recorded κ ρ) γ} (first : Program free x)
      (later : ∀ b, Program free (k b)) : Program free (x >>= k)
  | watch (p : Path) (callback : κ) : Program free (watch p callback)
  | change (files : Recorded κ ρ → Workspace) : Program free (change files)
  | clear (may : free) : Program free clear
  | poll (may : free) {callback : κ → Path → Operation WatchFailure (Recorded κ ρ) Unit}
      (callbacks : ∀ c p, Program free (callback c p)) : Program free (poll callback)

end Recorded
end Watcher
end MessageLens
