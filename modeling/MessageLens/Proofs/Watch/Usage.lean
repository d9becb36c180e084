import MessageLens.Proofs.Watch.Deliveries

/-!
# Users who handle failures

Users of a watcher may also handle failures, in callbacks too, and go on. Whatever they do and
however it ends, the history grows, the watches are those of different paths, and a watch stays with
all its callbacks until the watcher is cleared. Its stamp changes only when a poll reports the path,
and is the one that the path had then.
-/

namespace MessageLens
set_option autoImplicit false

open Operation

variable {κ ρ β : Type}

namespace WatchEvent

/-- The number of the poll that an event is part of. -/
def poll? : WatchEvent κ → Option Nat
  | reached n _ _ | reported n _ _ | called n _ _ => some n
  | registered .. | cleared | changed .. | began => none

/-- No poll has reported the path. -/
def Unreported (p : Path) (h : List (WatchEvent κ)) : Prop := ∀ n files, .reported n p files ∉ h

theorem unreported_iff {p : Path} {h : List (WatchEvent κ)} : Unreported p h ↔
    p ∉ h.filterMap fun
      | reported _ q _ => some q
      | _ => none := by
  rw [List.mem_filterMap]
  constructor
  · rintro unreported ⟨e, mem, same⟩
    cases e with
    | reported n q files =>
      obtain rfl := Option.some.inj same
      exact unreported n files mem
    | _ => cases same
  · intro free n files mem
    exact free ⟨_, mem, rfl⟩

instance (p : Path) (h : List (WatchEvent κ)) : Decidable (Unreported p h) :=
  decidable_of_iff _ unreported_iff.symm

end WatchEvent

namespace Watcher.Recorded

open WatchEvent

variable {r r' r'' r₀ : Recorded κ ρ} {p : Path} {stamp : Option FileStamp} {n m : Nat}
  {e : WatchEvent κ} {more : List (WatchEvent κ)} {x y z : Watch (Registration κ)}

/-! ## What is always so -/

/-- The watches are those of different paths that can be looked at, their callbacks have been
registered before, each once, and only polls that have begun have done anything. -/
structure Sound (r : Recorded κ ρ) : Prop where
  paths : (r.watcher.watches.map (·.path)).Nodup
  accepted : ∀ x ∈ r.watcher.watches, IsAccepted x.path
  callbacks : ∀ x ∈ r.watcher.watches,
    x.callbacks.Nodup ∧ ∀ c ∈ x.callbacks, c.number < registrationsIn r.history
  numbers : ∀ e ∈ r.history, ∀ n, e.poll? = some n → n < pollsIn r.history

/-- A registration is counted. -/
theorem registrationsIn_registered (h : List (WatchEvent κ)) (c : Registration κ)
    (files : Workspace) :
    registrationsIn (h ++ [.registered p c files]) = registrationsIn h + 1 := by
  rw [registrationsIn_append]
  rfl

namespace Sound

theorem of_isNew (new : r.IsNew) : Sound r := by
  obtain ⟨watches, history⟩ := new
  refine ⟨?_, ?_, ?_, ?_⟩
  · rw [watches]
    exact List.nodup_nil
  · rw [watches]
    exact nofun
  · rw [watches]
    exact nofun
  · rw [history]
    exact nofun

theorem of_same (sound : Sound r)
    (same : (r'.watcher, r'.files, r'.history) = (r.watcher, r.files, r.history)) : Sound r' := by
  obtain ⟨watcher, both⟩ := Prod.mk.inj same
  obtain ⟨-, history⟩ := Prod.mk.inj both
  obtain ⟨paths, accepted, callbacks, numbers⟩ := sound
  exact ⟨watcher ▸ paths, watcher ▸ accepted, by rwa [watcher, history], history ▸ numbers⟩

theorem numbers_snoc (sound : Sound r) (own : ∀ n, e.poll? = some n → n < pollsIn r.history) :
    ∀ e' ∈ r.history ++ [e], ∀ n, e'.poll? = some n → n < pollsIn (r.history ++ [e]) := by
  intro e' mem n number
  rw [pollsIn_append]
  rcases List.mem_append.1 mem with before | last
  · have less := sound.numbers e' before n number
    omega
  · rw [List.mem_singleton.1 last] at number
    have less := own n number
    omega

/-- Something is done that leaves the watches alone. -/
theorem note (sound : Sound r) (own : ∀ n, e.poll? = some n → n < pollsIn r.history)
    (files : Workspace) : Sound { r with files := files, history := r.history ++ [e] } := by
  refine ⟨sound.paths, sound.accepted, fun x mem => ?_, sound.numbers_snoc own⟩
  refine ⟨(sound.callbacks x mem).1, fun c registered => ?_⟩
  have less := (sound.callbacks x mem).2 c registered
  rw [registrationsIn_append]
  omega

theorem clear (sound : Sound r) :
    Sound { r with watcher := r.watcher.clear, history := r.history ++ [.cleared] } :=
  ⟨List.nodup_nil, nofun, nofun, sound.numbers_snoc nofun⟩

/-- A callback is registered for a watched path. -/
theorem join (sound : Sound r) {c : Registration κ}
    (number : c.number = registrationsIn r.history) :
    Sound { r with
      watcher := r.watcher.addCallback p c
      history := r.history ++ [.registered p c r.files] } := by
  refine ⟨?_, fun x mem => ?_, fun x mem => ?_, sound.numbers_snoc nofun⟩
  · rw [paths_addCallback]
    exact sound.paths
  all_goals
    obtain ⟨y, before, rfl⟩ := mem_addCallback.1 mem
  · split <;> exact sound.accepted y before
  · rw [registrationsIn_registered]
    obtain ⟨once, older⟩ := sound.callbacks y before
    split
    · refine ⟨List.nodup_append.2 ⟨once, by simp, fun c' old c'' new same => ?_⟩,
        fun c' registered => ?_⟩
      · have less := older c' old
        rw [same, List.mem_singleton.1 new, number] at less
        exact Nat.lt_irrefl _ less
      · rcases List.mem_append.1 registered with old | new
        · exact Nat.lt_succ_of_lt (older c' old)
        · rw [List.mem_singleton.1 new, number]
          exact Nat.lt_succ_self _
    · exact ⟨once, fun c' old => Nat.lt_succ_of_lt (older c' old)⟩

/-- A callback is registered for another path. -/
theorem begin (sound : Sound r) {c : Registration κ} (free : r.watcher.find? p = none)
    (present : r.files.stamp? p = .ok stamp) (number : c.number = registrationsIn r.history) :
    Sound { r with
      watcher := r.watcher.begin p stamp c
      history := r.history ++ [.registered p c r.files] } := by
  refine ⟨nodup_paths_begin sound.paths free, fun x mem => ?_, fun x mem => ?_,
    sound.numbers_snoc nofun⟩
  · rcases mem_begin.1 mem with before | rfl
    · exact sound.accepted x before
    · exact isAccepted_of_stamp? present
  · rw [registrationsIn_registered]
    rcases mem_begin.1 mem with before | rfl
    · obtain ⟨once, older⟩ := sound.callbacks x before
      exact ⟨once, fun c' old => Nat.lt_succ_of_lt (older c' old)⟩
    · refine ⟨by simp, fun c' new => ?_⟩
      rw [List.mem_singleton.1 new, number]
      exact Nat.lt_succ_self _

/-- A poll that has begun reports a path. -/
theorem record (sound : Sound r) (begun : n < pollsIn r.history) (p : Path)
    (stamp : Option FileStamp) : Sound { r with
      watcher := r.watcher.record p stamp
      history := r.history ++ [.reported n p r.files] } := by
  have older := sound.note (e := .reported n p r.files) (fun m same => Option.some.inj same ▸ begun)
    r.files
  refine ⟨?_, fun x mem => ?_, fun x mem => ?_, older.numbers⟩
  · rw [paths_record]
    exact sound.paths
  all_goals
    obtain ⟨y, before, rfl⟩ := List.mem_map.1 mem
  · split <;> exact sound.accepted y before
  · split <;> exact older.callbacks y before

end Sound

/-! ## What leads from one state to another -/

/-- What has been done from one state to a later one. -/
def since (r r' : Recorded κ ρ) : List (WatchEvent κ) := r'.history.drop r.history.length

theorem since_eq (split : r'.history = r.history ++ more) : since r r' = more := by
  rw [since, split, List.drop_left]

/-- A watch that is still there when some things have been done. -/
structure Carried (h : List (WatchEvent κ)) (x y : Watch (Registration κ)) : Prop where
  path : y.path = x.path
  registration : y.registration = x.registration
  callbacks : x.callbacks <+: y.callbacks
  stamp : Unreported x.path h → y.stamp = x.stamp

theorem Carried.refl (h : List (WatchEvent κ)) (x : Watch (Registration κ)) : Carried h x x :=
  ⟨rfl, rfl, List.prefix_rfl, fun _ => rfl⟩

theorem Carried.trans {h h' : List (WatchEvent κ)} (first : Carried h x y)
    (later : Carried h' y z) : Carried (h ++ h') x z where
  path := later.path.trans first.path
  registration := later.registration.trans first.registration
  callbacks := first.callbacks.trans later.callbacks
  stamp unreported := by
    rw [later.stamp fun n files mem => ?_, first.stamp fun n files mem => ?_]
    · exact unreported n files (List.mem_append_left _ mem)
    · rw [first.path] at mem
      exact unreported n files (List.mem_append_right _ mem)

/-- The history goes on, with the events of polls from a number on. Unless the watcher is cleared,
the watches stay, and their stamps are the ones that have been there when the paths were reported
last. -/
structure Leads (n : Nat) (r r' : Recorded κ ρ) : Prop where
  sound : Sound r'
  history : r'.history = r.history ++ since r r'
  numbers : ∀ e ∈ since r r', ∀ m, e.poll? = some m → n ≤ m
  carries : .cleared ∉ since r r' → ∀ x ∈ r.watcher.watches,
    ∃ y ∈ r'.watcher.watches, Carried (since r r') x y
  told : .cleared ∉ since r r' → ∀ before m p files after,
    since r r' = before ++ .reported m p files :: after → Unreported p after →
    ∃ y ∈ r'.watcher.watches, y.path = p ∧ files.stamp? p = .ok y.stamp

namespace Leads

theorem pollsIn_le (leads : Leads n r r') : pollsIn r.history ≤ pollsIn r'.history := by
  rw [leads.history, pollsIn_append]
  omega

theorem mono (leads : Leads m r r') (le : n ≤ m) : Leads n r r' :=
  { leads with numbers := fun e mem k number => Nat.le_trans le (leads.numbers e mem k number) }

theorem of_same (sound : Sound r)
    (same : (r'.watcher, r'.files, r'.history) = (r.watcher, r.files, r.history)) :
    Leads n r r' := by
  obtain ⟨watcher, both⟩ := Prod.mk.inj same
  obtain ⟨-, history⟩ := Prod.mk.inj both
  have nothing : since r r' = [] := since_eq (by rw [history, List.append_nil])
  refine ⟨sound.of_same same, by rw [nothing, history, List.append_nil], ?_, fun _ x mem => ?_,
    fun _ before m p files after split => ?_⟩
  · rw [nothing]
    exact nofun
  · exact ⟨x, watcher ▸ mem, .refl _ x⟩
  · rw [nothing] at split
    simp at split

theorem refl (sound : Sound r) : Leads n r r := .of_same sound rfl

theorem since_trans (first : Leads n r r') (later : Leads m r' r'') :
    since r r'' = since r r' ++ since r' r'' := by
  refine since_eq ?_
  rw [← List.append_assoc, ← first.history, ← later.history]

theorem trans (first : Leads n r r') (later : Leads n r' r'') : Leads n r r'' := by
  have both := first.since_trans later
  refine ⟨later.sound, ?_, fun e mem => ?_, fun uncleared x mem => ?_,
    fun uncleared before m p files after split unreported => ?_⟩
  · rw [both, ← List.append_assoc, ← first.history, ← later.history]
  · rw [both] at mem
    rcases List.mem_append.1 mem with early | late
    · exact first.numbers e early
    · exact later.numbers e late
  all_goals
    rw [both, List.mem_append, not_or] at uncleared
  · obtain ⟨y, there, carried⟩ := first.carries uncleared.1 x mem
    obtain ⟨z, still, carried'⟩ := later.carries uncleared.2 y there
    exact ⟨z, still, both ▸ carried.trans carried'⟩
  · rw [both] at split
    -- the last report of the path is in the first part, and then the later one is silent about it
    rcases append_split split with ⟨rest, early, rfl⟩ | ⟨_, -, late⟩
    · have quiet : Unreported p (since r' r'') := fun k files mem =>
        unreported k files (List.mem_append_right _ mem)
      have silent : Unreported p rest := fun k files mem =>
        unreported k files (List.mem_append_left _ mem)
      obtain ⟨y, there, rfl, recorded⟩ := first.told uncleared.1 before m p files rest early silent
      obtain ⟨z, still, carried⟩ := later.carries uncleared.2 y there
      exact ⟨z, still, carried.path, by rw [carried.stamp quiet, recorded]⟩
    · exact later.told uncleared.2 _ m p files after late unreported

/-- One thing is done. -/
theorem step (last : r'.history = r.history ++ [e]) (sound : Sound r')
    (number : ∀ m, e.poll? = some m → n ≤ m)
    (carries : e ≠ .cleared → ∀ x ∈ r.watcher.watches, ∃ y ∈ r'.watcher.watches, Carried [e] x y)
    (told : ∀ m p files, e = .reported m p files →
      ∃ y ∈ r'.watcher.watches, y.path = p ∧ files.stamp? p = .ok y.stamp) : Leads n r r' := by
  have single : since r r' = [e] := since_eq last
  refine ⟨sound, by rw [single, last], fun e' mem => ?_, fun uncleared => ?_,
    fun _ before m p files after split _ => ?_⟩
  · rw [single] at mem
    exact List.mem_singleton.1 mem ▸ number
  · rw [single] at uncleared ⊢
    exact carries fun same => uncleared (List.mem_singleton.2 same.symm)
  · rw [single] at split
    have mem : .reported m p files ∈ [e] := split ▸ List.mem_append_right _ List.mem_cons_self
    exact told m p files (List.mem_singleton.1 mem).symm

end Leads

/-! ## What operations lead to -/

/-- Whatever becomes of the operation, it leads on. -/
def Orderly (x : Operation WatchFailure (Recorded κ ρ) β) : Prop :=
  ∀ r, Sound r → Leads (pollsIn r.history) r (leaves x r)

namespace Leads

/-- A callback is registered for a watched path. -/
theorem join (sound : Sound r) {c : Registration κ}
    (number : c.number = registrationsIn r.history) :
    Leads n r { r with
      watcher := r.watcher.addCallback p c
      history := r.history ++ [.registered p c r.files] } := by
  refine .step rfl (sound.join number) nofun (fun _ x mem => ?_) nofun
  refine ⟨_, mem_addCallback.2 ⟨x, mem, rfl⟩, ?_⟩
  split
  · exact ⟨rfl, rfl, List.prefix_append _ _, fun _ => rfl⟩
  · exact .refl _ x

/-- A callback is registered for another path. -/
theorem begin (sound : Sound r) {c : Registration κ} (free : r.watcher.find? p = none)
    (present : r.files.stamp? p = .ok stamp) (number : c.number = registrationsIn r.history) :
    Leads n r { r with
      watcher := r.watcher.begin p stamp c
      history := r.history ++ [.registered p c r.files] } :=
  .step rfl (sound.begin free present number) nofun
    (fun _ x mem => ⟨x, mem_begin.2 (.inl mem), .refl _ x⟩) nofun

theorem clear (sound : Sound r) : Leads n r { r with
    watcher := r.watcher.clear, history := r.history ++ [.cleared] } :=
  .step rfl sound.clear nofun (fun differ => absurd rfl differ) nofun

/-- Something is done that neither registers nor reports nor clears anything. -/
theorem note (sound : Sound r) (own : ∀ m, e.poll? = some m → n ≤ m ∧ m < pollsIn r.history)
    (silent : ∀ m p files, e ≠ .reported m p files) (files : Workspace) :
    Leads n r { r with files := files, history := r.history ++ [e] } :=
  .step rfl (sound.note (fun m number => (own m number).2) files) (fun m number => (own m number).1)
    (fun _ x mem => ⟨x, mem, .refl _ x⟩) fun m p files same => absurd same (silent m p files)

/-- A poll that has begun looks at a path. -/
theorem look (sound : Sound r) (begun : n < pollsIn r.history) (p : Path) :
    Leads n r { r with history := r.history ++ [.reached n p r.files] } :=
  .note sound (fun _ same => Option.some.inj same ▸ ⟨Nat.le_refl n, begun⟩)
    (fun _ _ _ same => by cases same) r.files

/-- It calls a callback. -/
theorem call (sound : Sound r) (begun : n < pollsIn r.history) (p : Path) (c : Registration κ) :
    Leads n r { r with history := r.history ++ [.called n p c] } :=
  .note sound (fun _ same => Option.some.inj same ▸ ⟨Nat.le_refl n, begun⟩)
    (fun _ _ _ same => by cases same) r.files

/-- It reports a path that is watched. -/
theorem record (sound : Sound r) (begun : n < pollsIn r.history)
    (mem : x ∈ r.watcher.watches) (present : r.files.stamp? x.path = .ok stamp) :
    Leads n r { r with
      watcher := r.watcher.record x.path stamp
      history := r.history ++ [.reported n x.path r.files] } := by
  refine .step rfl (sound.record begun x.path stamp)
    (fun _ same => Nat.le_of_eq (Option.some.inj same)) (fun _ y there => ?_)
    fun m p files same => ?_
  · refine ⟨_, List.mem_map_of_mem there, ?_⟩
    split
    · rename_i own
      exact ⟨rfl, rfl, List.prefix_rfl, fun silent =>
        absurd (own ▸ List.mem_singleton_self _) (silent n r.files)⟩
    · exact .refl _ y
  · cases same
    exact ⟨_, List.mem_map_of_mem mem, by rw [if_pos rfl], by rw [if_pos rfl]; exact present⟩

end Leads

namespace Orderly

theorem elsewhere {x : Operation WatchFailure (Recorded κ ρ) β}
    (keeps : Keeps (fun r => (r.watcher, r.files, r.history)) x) : Orderly x :=
  fun r sound => .of_same sound (keeps r)

theorem bind {γ : Type} {x : Operation WatchFailure (Recorded κ ρ) β}
    {k : β → Operation WatchFailure (Recorded κ ρ) γ} (first : Orderly x)
    (later : ∀ b, Orderly (k b)) : Orderly (x >>= k) := by
  intro r sound
  have leads := first r sound
  rw [leaves_bind]
  cases run : x r with
  | ok b t =>
    rw [leaves_ok run] at leads
    exact leads.trans ((later b t leads.sound).mono leads.pollsIn_le)
  | error f t =>
    rw [leaves_error run] at leads
    exact leads

theorem handle {x : Operation WatchFailure (Recorded κ ρ) β}
    {handler : WatchFailure → Operation WatchFailure (Recorded κ ρ) β} (first : Orderly x)
    (later : ∀ f, Orderly (handler f)) : Orderly (tryCatch x handler) := by
  intro r sound
  have leads := first r sound
  rw [leaves_tryCatch]
  cases run : x r with
  | ok b t =>
    rw [leaves_ok run] at leads
    exact leads
  | error f t =>
    rw [leaves_error run] at leads
    exact leads.trans ((later f t leads.sound).mono leads.pollsIn_le)

theorem watch (p : Path) (callback : κ) :
    Orderly (watch p callback : Operation WatchFailure (Recorded κ ρ) Unit) := by
  intro r sound
  cases run : Recorded.watch p callback r with
  | ok u r' =>
    rw [leaves_ok run]
    obtain ⟨c, w, number, rfl, ⟨-, rfl⟩ | ⟨free, stamp, present, rfl⟩⟩ := watch_registers run
    · exact .join sound number
    · exact .begin sound free present number
  | error f r' =>
    rw [leaves_error run, watch_error run]
    exact .refl sound

theorem change (files : Recorded κ ρ → Workspace) : Orderly (change files) :=
  fun r sound =>
    .note sound (fun _ same => by cases same) (fun _ _ _ same => by cases same) (files r)

theorem clear : Orderly (clear : Operation WatchFailure (Recorded κ ρ) Unit) :=
  fun _ sound => .clear sound

end Orderly

/-! ## Polls, whatever their callbacks do -/

section Poll

variable {callback : κ → Path → Operation WatchFailure (Recorded κ ρ) Unit}
  {rest : List (Watch (Registration κ))}

/-- A poll that has begun calls a callback. -/
theorem call_leads (orderly : ∀ c p, Orderly (callback c p)) (sound : Sound r)
    (begun : n < pollsIn r.history) (p : Path) (c : Registration κ) :
    Leads n r (leaves ((owner n callback).call c p) r) := by
  have called := Leads.call sound begun p c
  exact called.trans ((orderly c.callback p _ called.sound).mono
    (Nat.le_of_lt (Nat.lt_of_lt_of_le begun called.pollsIn_le)))

/-- It calls one callback after the other. -/
theorem calls_lead (orderly : ∀ c p, Orderly (callback c p)) (sound : Sound r)
    (begun : n < pollsIn r.history) (p : Path) (cs : List (Registration κ)) :
    Leads n r (leaves (cs.forM fun c => (owner n callback).call c p) r) := by
  induction cs generalizing r with
  | nil => exact .refl sound
  | cons c cs ih =>
    have leads := call_leads orderly sound begun p c
    show Leads n r (leaves ((owner n callback).call c p >>= fun _ => cs.forM _) r)
    rw [leaves_bind]
    cases run : (owner n callback).call c p r with
    | ok u t =>
      rw [leaves_ok run] at leads
      exact leads.trans (ih leads.sound (Nat.lt_of_lt_of_le begun leads.pollsIn_le))
    | error f t =>
      rw [leaves_error run] at leads
      exact leads

/-- The watch that a poll finds for one that it has begun with is there, for the same path. -/
theorem live_mem (live : WatchOwner.live? r.watcher x = some y) :
    y ∈ r.watcher.watches ∧ y.path = x.path := by
  have found := (Option.filter_eq_some_iff.1 live).1
  exact ⟨List.mem_of_find?_eq_some found, by simpa using List.find?_some found⟩

/-- A poll that has begun comes to a path and reports it. -/
theorem Leads.reporting (sound : Sound r) (begun : n < pollsIn r.history)
    (present : r.files.stamp? x.path = .ok stamp)
    (live : WatchOwner.live? r.watcher x = some y) :
    Leads n r (reporting n x.path stamp r) := by
  obtain ⟨mem, here⟩ := live_mem live
  have looked := Leads.look sound begun x.path
  rw [← here] at looked present ⊢
  exact looked.trans (.record looked.sound (Nat.lt_of_lt_of_le begun looked.pollsIn_le) mem present)

/-- A poll that has begun goes through watches. -/
theorem pollEach_leads (orderly : ∀ c p, Orderly (callback c p)) (sound : Sound r)
    (begun : n < pollsIn r.history) (accepted : ∀ x ∈ rest, IsAccepted x.path) :
    Leads n r (leaves ((owner n callback).pollEach rest) r) := by
  induction rest generalizing r with
  | nil => exact .refl sound
  | cons x rest ih =>
    rw [List.forall_mem_cons] at accepted
    have looked := Leads.look sound begun x.path
    have passed := looked.trans
      (ih looked.sound (Nat.lt_of_lt_of_le begun looked.pollsIn_le) accepted.2)
    -- only accepted paths are watched, so that the poll cannot fail when it looks at one
    obtain ⟨stamp, present⟩ := stamp?_ok r.files accepted.1
    by_cases same : stamp = x.stamp
    · subst same
      rwa [leaves, pollEach_same present]
    cases live : WatchOwner.live? r.watcher x with
    | none => rwa [leaves, pollEach_over present same live]
    | some now =>
      have told := Leads.reporting sound begun present live
      have calls := told.trans (calls_lead orderly told.sound
        (Nat.lt_of_lt_of_le begun told.pollsIn_le) x.path now.callbacks)
      rw [leaves, pollEach_live present same live]
      show Leads n r (leaves (_ >>= _) (Recorded.reporting n x.path stamp r))
      rw [leaves_bind]
      cases run : (now.callbacks.forM fun c => (owner n callback).call c x.path)
          (Recorded.reporting n x.path stamp r) with
      | ok u t =>
        rw [leaves_ok run] at calls
        show Leads n r
          (leaves ((owner n callback).pollEach rest >>= fun ps => pure (x.path :: ps)) t)
        rw [leaves_answer]
        exact calls.trans (ih calls.sound (Nat.lt_of_lt_of_le begun calls.pollsIn_le) accepted.2)
      | error f t =>
        rw [leaves_error run] at calls
        exact calls

/-- A poll begins. -/
theorem Leads.began (sound : Sound r) :
    Leads (pollsIn r.history) r { r with history := r.history ++ [.began] } :=
  .note sound (fun _ same => by cases same) (fun _ _ _ same => by cases same) r.files

theorem pollsIn_began (h : List (WatchEvent κ)) : pollsIn h < pollsIn (h ++ [.began]) := by
  rw [pollsIn_append]
  exact Nat.lt_succ_self _

theorem Orderly.poll (orderly : ∀ c p, Orderly (callback c p)) : Orderly (poll callback) := by
  intro r sound
  have began := Leads.began sound
  rw [leaves, poll_eq]
  exact began.trans
    (pollEach_leads orderly began.sound (pollsIn_began _) sound.accepted)

end Poll

/-! ## What users do -/

theorem Program.orderly {free : Prop} {x : Operation WatchFailure (Recorded κ ρ) β}
    (program : Program free x) : Orderly x := by
  induction program with
  | elsewhere keeps => exact .elsewhere keeps
  | bind _ _ first later => exact .bind first later
  | watch p callback => exact .watch p callback
  | change files => exact .change files
  | clear _ => exact .clear
  | poll _ _ callbacks => exact .poll callbacks

/-- What a user of the watcher may do who may also handle failures, in and outside of callbacks. -/
inductive Usage : {β : Type} → Operation WatchFailure (Recorded κ ρ) β → Prop where
  | program {β : Type} {x : Operation WatchFailure (Recorded κ ρ) β} (program : Program True x) :
      Usage x
  | bind {β γ : Type} {x : Operation WatchFailure (Recorded κ ρ) β}
      {k : β → Operation WatchFailure (Recorded κ ρ) γ} (first : Usage x)
      (later : ∀ b, Usage (k b)) : Usage (x >>= k)
  | handle {β : Type} {x : Operation WatchFailure (Recorded κ ρ) β}
      {handler : WatchFailure → Operation WatchFailure (Recorded κ ρ) β} (first : Usage x)
      (later : ∀ f, Usage (handler f)) : Usage (tryCatch x handler)
  | poll {callback : κ → Path → Operation WatchFailure (Recorded κ ρ) Unit}
      (callbacks : ∀ c p, Usage (callback c p)) : Usage (poll callback)

theorem Usage.orderly {x : Operation WatchFailure (Recorded κ ρ) β} (usage : Usage x) :
    Orderly x := by
  induction usage with
  | program program => exact program.orderly
  | bind _ _ first later => exact .bind first later
  | handle _ _ first later => exact .handle first later
  | poll _ callbacks => exact .poll callbacks

/-- The states that users come to, whether what they do succeeds or fails. It may fail anywhere, so
that these are also the states in the midst of it. -/
inductive Visited (r₀ : Recorded κ ρ) : Recorded κ ρ → Prop where
  | start : Visited r₀ r₀
  | next {r : Recorded κ ρ} {β : Type} {x : Operation WatchFailure (Recorded κ ρ) β}
    (visited : Visited r₀ r) (usage : Usage x) : Visited r₀ (leaves x r)

theorem Visited.leads (sound : Sound r₀) (visited : Visited r₀ r) :
    Leads (pollsIn r₀.history) r₀ r := by
  induction visited with
  | start => exact .refl sound
  | next _ usage ih => exact ih.trans ((usage.orderly _ ih.sound).mono ih.pollsIn_le)

/-- No poll has done anything between two states if none has begun. -/
theorem Leads.unreported (leads : Leads (pollsIn r.history) r r') (none : .began ∉ since r r')
    (p : Path) : Unreported p (since r r') := by
  intro n files mem
  have late := leads.numbers _ mem n rfl
  have early := leads.sound.numbers _ (leads.history ▸ List.mem_append_right _ mem) n rfl
  rw [leads.history, pollsIn_append] at early
  have idle : pollsIn (since r r') = 0 := by
    refine List.countP_eq_zero.2 fun e known began => ?_
    cases e with
    | began => exact none known
    | _ => cases began
  omega

end Watcher.Recorded
end MessageLens
