import MessageLens.Proofs.Operation
import MessageLens.Watch.Watcher

/-!
# What is watched

A watcher has one watch per path, and the stamps it holds are those of the disk that it has looked
at last. What is registered stays registered until the watcher is cleared, and what has been
registered anew in the course of a poll is not taken for what the poll has begun with.
-/

namespace MessageLens
set_option autoImplicit false

open Operation

variable {κ : Type} {w : Watcher κ} {ws : Workspace} {p q : Path} {callback c : κ}

namespace Watcher

/-- A callback is registered for a path. -/
def Watches (w : Watcher κ) (p : Path) (callback : κ) : Prop :=
  ∃ x ∈ w.watches, x.path = p ∧ callback ∈ x.callbacks

/-- The watches are those of different paths, with numbers from `since` on, and they hold the stamps
of the disk. -/
structure InStep (ws : Workspace) (since : Nat) (w : Watcher κ) : Prop where
  paths : (w.watches.map (·.path)).Nodup
  since : ∀ x ∈ w.watches, since ≤ x.registration
  begun : ∀ x ∈ w.watches, x.registration < w.begun
  stamps : ∀ x ∈ w.watches, ws.stamp? x.path = .ok x.stamp

theorem InStep.clear (w : Watcher κ) (ws : Workspace) (since : Nat) : InStep ws since w.clear where
  paths := List.nodup_nil
  since _ mem := absurd mem List.not_mem_nil
  begun _ mem := absurd mem List.not_mem_nil
  stamps _ mem := absurd mem List.not_mem_nil

theorem InStep.mono {since since' : Nat} (step : InStep ws since w) (le : since' ≤ since) :
    InStep ws since' w :=
  ⟨step.paths, fun x mem => Nat.le_trans le (step.since x mem), step.begun, step.stamps⟩

theorem find?_eq_none : w.find? p = none ↔ ∀ x ∈ w.watches, x.path ≠ p := by
  simp [find?, List.find?_eq_none]

/-- The watch that is found for a path is the one of that path. -/
theorem find?_of_mem {x : Watch κ} (paths : (w.watches.map (·.path)).Nodup)
    (mem : x ∈ w.watches) : w.find? x.path = some x := by
  rw [find?]
  generalize w.watches = watches at paths mem
  induction watches with
  | nil => cases mem
  | cons y rest ih =>
    rw [List.map_cons, List.nodup_cons] at paths
    obtain rfl | later := List.mem_cons.1 mem
    · rw [List.find?_cons_of_pos (by simp)]
    · have differ : y.path ≠ x.path := fun same =>
        paths.1 (same ▸ List.mem_map_of_mem later)
      rw [List.find?_cons_of_neg (by simpa using differ)]
      exact ih paths.2 later

theorem mem_addCallback {x : Watch κ} : x ∈ (w.addCallback p callback).watches ↔
    ∃ y ∈ w.watches,
      (if y.path = p then { y with callbacks := y.callbacks ++ [callback] } else y) = x := by
  rw [addCallback, List.mem_map]

theorem mem_begin {x : Watch κ} {stamp : Option FileStamp} :
    x ∈ (w.begin p stamp callback).watches ↔
      x ∈ w.watches ∨ x = ⟨p, stamp, [callback], w.begun⟩ := by
  rw [begin, List.mem_append, List.mem_singleton]

theorem paths_addCallback :
    (w.addCallback p callback).watches.map (·.path) = w.watches.map (·.path) := by
  rw [addCallback, List.map_map]
  congr 1
  funext x
  show (if x.path = p then _ else x : Watch κ).path = x.path
  split <;> rfl

theorem paths_record {stamp : Option FileStamp} :
    (w.record p stamp).watches.map (·.path) = w.watches.map (·.path) := by
  rw [record, List.map_map]
  congr 1
  funext x
  show (if x.path = p then _ else x : Watch κ).path = x.path
  split <;> rfl

/-- Watches of different paths are joined by one of yet another path. -/
theorem nodup_paths_begin {stamp : Option FileStamp} (paths : (w.watches.map (·.path)).Nodup)
    (free : w.find? p = none) : ((w.begin p stamp callback).watches.map (·.path)).Nodup := by
  rw [find?_eq_none] at free
  rw [Watcher.begin, List.map_append, List.nodup_append]
  refine ⟨paths, by simp, fun q mem r single same => ?_⟩
  obtain ⟨x, before, rfl⟩ := List.mem_map.1 mem
  rw [List.mem_singleton.1 single] at same
  exact free x before same

/-- Registering a callback for a watched path adds it to the watch. -/
theorem InStep.addCallback {since : Nat} (step : InStep ws since w) :
    InStep ws since (w.addCallback p callback) := by
  refine ⟨?_, fun x mem => ?_, fun x mem => ?_, fun x mem => ?_⟩
  · rw [paths_addCallback]
    exact step.paths
  all_goals
    obtain ⟨y, before, rfl⟩ := mem_addCallback.1 mem
  · split
    · exact step.since y before
    · exact step.since y before
  · split
    · exact step.begun y before
    · exact step.begun y before
  · split
    · exact step.stamps y before
    · exact step.stamps y before

/-- Registering a callback for another path begins a watch with the present stamp. -/
theorem InStep.begin {since : Nat} {stamp : Option FileStamp} (step : InStep ws since w)
    (free : w.find? p = none) (present : ws.stamp? p = .ok stamp) (le : since ≤ w.begun) :
    InStep ws since (w.begin p stamp callback) := by
  refine ⟨nodup_paths_begin step.paths free, fun x mem => ?_, fun x mem => ?_, fun x mem => ?_⟩
  · obtain before | rfl := mem_begin.1 mem
    · exact step.since x before
    · exact le
  · obtain before | rfl := mem_begin.1 mem
    · exact Nat.lt_succ_of_lt (step.begun x before)
    · exact Nat.lt_succ_self _
  · obtain before | rfl := mem_begin.1 mem
    · exact step.stamps x before
    · exact present

theorem Watches.addCallback (watched : w.Watches q c) :
    (w.addCallback p callback).Watches q c := by
  obtain ⟨x, mem, rfl, registered⟩ := watched
  refine ⟨_, mem_addCallback.2 ⟨x, mem, rfl⟩, ?_⟩
  split
  · exact ⟨rfl, List.mem_append_left _ registered⟩
  · exact ⟨rfl, registered⟩

theorem Watches.begin {stamp : Option FileStamp} (watched : w.Watches q c) :
    (w.begin p stamp callback).Watches q c := by
  obtain ⟨x, mem, found⟩ := watched
  exact ⟨x, mem_begin.2 (.inl mem), found⟩

theorem Watches.record {stamp : Option FileStamp} (watched : w.Watches q c) :
    (w.record p stamp).Watches q c := by
  obtain ⟨x, mem, here, registered⟩ := watched
  refine ⟨_, List.mem_map_of_mem mem, ?_⟩
  split
  · exact ⟨here, registered⟩
  · exact ⟨here, registered⟩

theorem Watches.of_addCallback (watched : (w.addCallback p callback).Watches q c) :
    w.Watches q c ∨ q = p ∧ c = callback := by
  obtain ⟨x, mem, here, registered⟩ := watched
  obtain ⟨y, before, rfl⟩ := mem_addCallback.1 mem
  by_cases own : y.path = p
  · rw [if_pos own] at here registered
    obtain old | new := List.mem_append.1 registered
    · exact .inl ⟨y, before, here, old⟩
    · exact .inr ⟨here.symm.trans own, List.mem_singleton.1 new⟩
  · rw [if_neg own] at here registered
    exact .inl ⟨y, before, here, registered⟩

theorem Watches.of_begin {stamp : Option FileStamp}
    (watched : (w.begin p stamp callback).Watches q c) :
    w.Watches q c ∨ q = p ∧ c = callback := by
  obtain ⟨x, mem, here, registered⟩ := watched
  obtain before | rfl := mem_begin.1 mem
  · exact .inl ⟨x, before, here, registered⟩
  · exact .inr ⟨here.symm, List.mem_singleton.1 registered⟩

theorem Watches.of_record {stamp : Option FileStamp} (watched : (w.record p stamp).Watches q c) :
    w.Watches q c := by
  obtain ⟨x, mem, here, registered⟩ := watched
  obtain ⟨y, before, rfl⟩ := List.mem_map.1 mem
  split at here
  · rename_i own
    rw [if_pos own] at registered
    exact ⟨y, before, here, registered⟩
  · rename_i other
    rw [if_neg other] at registered
    exact ⟨y, before, here, registered⟩

/-- Every watch is there for a callback. -/
def Manned (w : Watcher κ) : Prop := ∀ x ∈ w.watches, ∃ c, c ∈ x.callbacks

theorem Manned.addCallback (manned : w.Manned) : (w.addCallback p callback).Manned := by
  intro x mem
  obtain ⟨y, before, rfl⟩ := mem_addCallback.1 mem
  obtain ⟨c, registered⟩ := manned y before
  split
  · exact ⟨c, List.mem_append_left _ registered⟩
  · exact ⟨c, registered⟩

theorem Manned.begin {stamp : Option FileStamp} (manned : w.Manned) :
    (w.begin p stamp callback).Manned := by
  intro x mem
  obtain before | rfl := mem_begin.1 mem
  · exact manned x before
  · exact ⟨callback, List.mem_singleton_self _⟩

theorem mem_paths : p ∈ w.paths ↔ ∃ x ∈ w.watches, x.path = p := by
  rw [paths, List.mem_mergeSort, List.mem_map]

theorem watches_addCallback {x : Watch κ} (found : w.find? p = some x) :
    (w.addCallback p callback).Watches p callback := by
  have mem := List.mem_of_find?_eq_some found
  have here : x.path = p := by simpa using List.find?_some found
  refine ⟨_, mem_addCallback.2 ⟨x, mem, rfl⟩, ?_⟩
  rw [if_pos here]
  exact ⟨here, List.mem_append_right _ (List.mem_singleton_self _)⟩

theorem watches_begin {stamp : Option FileStamp} : (w.begin p stamp callback).Watches p callback :=
  ⟨_, mem_begin.2 (.inr rfl), rfl, List.mem_singleton_self _⟩

/-- Recording the stamp of a watched path changes that watch alone. -/
theorem record_append {before after : List (Watch κ)} {x : Watch κ} {begun : Nat}
    (paths : ((before ++ x :: after).map (·.path)).Nodup) (stamp : Option FileStamp) :
    record ⟨before ++ x :: after, begun⟩ x.path stamp =
      ⟨before ++ { x with stamp := stamp } :: after, begun⟩ := by
  rw [List.map_append, List.map_cons, List.nodup_append, List.nodup_cons] at paths
  have others : ∀ ys : List (Watch κ), x.path ∉ ys.map (·.path) →
      ys.map (fun y => if y.path = x.path then { y with stamp := stamp } else y) = ys := by
    intro ys free
    refine (List.map_congr_left fun y mem => ?_).trans (List.map_id ys)
    rw [if_neg fun same : y.path = x.path => free (same ▸ List.mem_map_of_mem mem)]
    rfl
  have first : x.path ∉ before.map (·.path) := fun mem =>
    paths.2.2 x.path mem x.path List.mem_cons_self rfl
  rw [record, List.map_append, List.map_cons, if_pos rfl, others before first,
    others after paths.2.1.1]

/-! ## Watches without their numbers -/

/-- What is watched, apart from when the watches have been begun: the paths in order, each with the
stamp that its watch holds and the callbacks. -/
def layout (w : Watcher κ) : List (Path × Option FileStamp × List κ) :=
  w.watches.map fun x => (x.path, x.stamp, x.callbacks)

theorem layout_addCallback (w : Watcher κ) (p : Path) (callback : κ) :
    (w.addCallback p callback).layout =
      w.layout.map fun e => if e.1 = p then (e.1, e.2.1, e.2.2 ++ [callback]) else e := by
  rw [layout, layout, addCallback, List.map_map, List.map_map]
  apply List.map_congr_left
  intro x _
  by_cases own : x.path = p
  · simp [own]
  · simp [own]

theorem layout_begin (w : Watcher κ) (p : Path) (stamp : Option FileStamp) (callback : κ) :
    (w.begin p stamp callback).layout = w.layout ++ [(p, stamp, [callback])] := by
  rw [layout, layout, begin, List.map_append]
  rfl

theorem isSome_find? (w : Watcher κ) (p : Path) :
    (w.find? p).isSome = w.layout.any fun e => e.1 == p := by
  rw [Bool.eq_iff_iff, find?, List.find?_isSome, layout, List.any_map, List.any_eq_true]
  rfl

end Watcher

/-! ## Polling -/

/-- A watch with the stamp that its path has now. -/
def Watch.restamp (ws : Workspace) (x : Watch κ) : Watch κ :=
  match ws.stamp? x.path with
  | .ok stamp => { x with stamp := stamp }
  | .error _ => x

@[simp] theorem Watch.restamp_path (ws : Workspace) (x : Watch κ) :
    (x.restamp ws).path = x.path := by
  rw [restamp]
  split <;> rfl

@[simp] theorem Watch.restamp_callbacks (ws : Workspace) (x : Watch κ) :
    (x.restamp ws).callbacks = x.callbacks := by
  rw [restamp]
  split <;> rfl

@[simp] theorem Watch.restamp_registration (ws : Workspace) (x : Watch κ) :
    (x.restamp ws).registration = x.registration := by
  rw [restamp]
  split <;> rfl

theorem Watch.restamp_of_ok {x : Watch κ} {stamp : Option FileStamp}
    (present : ws.stamp? x.path = .ok stamp) : x.restamp ws = { x with stamp := stamp } := by
  rw [restamp, present]

theorem Watch.map_restamp_path (ws : Workspace) (xs : List (Watch κ)) :
    (xs.map (·.restamp ws)).map (·.path) = xs.map (·.path) := by
  rw [List.map_map]
  apply List.map_congr_left
  intro x _
  exact x.restamp_path ws

/-- A poll that leaves all watches in place brings them in step with the disk. -/
theorem Watcher.InStep.restamp {looked : Workspace} {since : Nat}
    (step : w.InStep looked since)
    (present : ∀ x ∈ w.watches, ws.stamp? x.path = .ok (x.restamp ws).stamp) :
    InStep ws since ⟨w.watches.map (·.restamp ws), w.begun⟩ := by
  refine ⟨?_, fun x mem => ?_, fun x mem => ?_, fun x mem => ?_⟩
  · rw [Watch.map_restamp_path]
    exact step.paths
  all_goals
    obtain ⟨y, before, rfl⟩ := List.mem_map.1 mem
  · exact (y.restamp_registration ws).symm ▸ step.since y before
  · exact (y.restamp_registration ws).symm ▸ step.begun y before
  · exact (y.restamp_path ws).symm ▸ present y before

theorem Watcher.Watches.restamp (watched : w.Watches p c) :
    Watches ⟨w.watches.map (·.restamp ws), w.begun⟩ p c := by
  obtain ⟨x, mem, here, registered⟩ := watched
  exact ⟨x.restamp ws, List.mem_map_of_mem mem, (x.restamp_path ws).trans here,
    (x.restamp_callbacks ws).symm ▸ registered⟩

theorem Watcher.Watches.of_restamp
    (watched : Watches ⟨w.watches.map (·.restamp ws), w.begun⟩ p c) : w.Watches p c := by
  obtain ⟨x, mem, here, registered⟩ := watched
  obtain ⟨y, before, rfl⟩ := List.mem_map.1 mem
  rw [Watch.restamp_path] at here
  rw [Watch.restamp_callbacks] at registered
  exact ⟨y, before, here, registered⟩

namespace WatchOwner

variable {σ ε : Type} {owner : WatchOwner ε σ κ} {s s' : σ}

/-- A watch that has been begun before all that are registered now is over. -/
theorem live?_of_older {x : Watch κ} (older : ∀ y ∈ w.watches, x.registration < y.registration) :
    live? w x = none := by
  rw [live?]
  cases found : w.find? x.path with
  | none => rfl
  | some y =>
    have later := older y (List.mem_of_find?_eq_some found)
    rw [Option.filter_some, if_neg (by simpa using Nat.ne_of_gt later)]

theorem live?_of_mem {x : Watch κ} (paths : (w.watches.map (·.path)).Nodup)
    (mem : x ∈ w.watches) : live? w x = some x := by
  rw [live?, Watcher.find?_of_mem paths mem, Option.filter_some, if_pos (by simp)]

/-- When all the watches that are left are over, the rest of a poll does nothing. -/
theorem pollEach_stale {rest : List (Watch κ)} {ps : List Path}
    (reads : ∀ p stamp t, owner.stamp p s = .ok stamp t → t = s)
    (stale : ∀ x ∈ rest, live? (owner.watcher.get s) x = none)
    (run : owner.pollEach rest s = .ok ps s') : s' = s := by
  induction rest generalizing ps with
  | nil => exact (pure_ok.1 run).2.symm
  | cons x rest ih =>
    obtain ⟨stamp, t, looked, compared⟩ := bind_ok.1 run
    obtain rfl := reads x.path stamp t looked
    have others := fun y mem => stale y (List.mem_cons_of_mem x mem)
    obtain ⟨-, later⟩ | ⟨-, later⟩ := ite_ok.1 compared
    · exact ih others later
    · simp only [bind_ok, read_ok, exists_both_eq, stale x List.mem_cons_self] at later
      exact ih others later

end WatchOwner

end MessageLens
