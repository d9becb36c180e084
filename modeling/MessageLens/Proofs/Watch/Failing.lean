import MessageLens.Proofs.Watch.Reports
import MessageLens.Proofs.Watch.Usage

/-!
# Polls that fail

A poll ends where a callback fails. What it has recorded by then are the stamps of the paths that it
has reported, one before the callbacks of each are called, and so the paths that are left are found
changed by the next poll, and the ones that have been reported are not. All of this is so as long as
the watcher is not cleared, whatever the callbacks do besides, and even if they poll themselves.
-/

namespace MessageLens
set_option autoImplicit false

open Operation

variable {κ ρ : Type}

namespace WatchEvent

variable {h more : List (WatchEvent κ)} {p : Path} {n : Nat}
  {xs : List (Watch (Registration κ))} {ps : List Path} {es : List (WatchEvent κ)}

/-- What a poll has done itself, without what its callbacks have done. -/
def ownOf (n : Nat) (h : List (WatchEvent κ)) : List (WatchEvent κ) :=
  h.filter fun e => e.poll? == some n

@[simp] theorem ownOf_append : ownOf n (h ++ more) = ownOf n h ++ ownOf n more :=
  List.filter_append ..

theorem ownOf_later (later : ∀ e ∈ h, ∀ m, e.poll? = some m → n < m) : ownOf n h = [] := by
  refine List.filter_eq_nil_iff.2 fun e mem own => ?_
  have less := later e mem n (eq_of_beq own)
  omega

theorem ownOf_earlier (earlier : ∀ e ∈ h, ∀ m, e.poll? = some m → m < n) : ownOf n h = [] := by
  refine List.filter_eq_nil_iff.2 fun e mem own => ?_
  have less := earlier e mem n (eq_of_beq own)
  omega

theorem filterMap_ownOf {γ : Type} (f : WatchEvent κ → Option γ)
    (other : ∀ e, e.poll? ≠ some n → f e = none) : (ownOf n h).filterMap f = h.filterMap f := by
  induction h with
  | nil => rfl
  | cons e h ih =>
    unfold ownOf at ih ⊢
    by_cases own : e.poll? = some n
    · rw [List.filter_cons_of_pos (by simpa using own), List.filterMap_cons, List.filterMap_cons,
        ih]
    · rw [List.filter_cons_of_neg (by simpa using own), List.filterMap_cons_none (other e own), ih]

theorem reachedBy_ownOf : reachedBy n (ownOf n h) = reachedBy n h := by
  refine filterMap_ownOf _ fun e other => ?_
  cases e with
  | reached m p files => exact if_neg fun same => other (congrArg some same)
  | _ => rfl

theorem callsBy_ownOf : callsBy n p (ownOf n h) = callsBy n p h := by
  refine filterMap_ownOf _ fun e other => ?_
  cases e with
  | called m q c => exact if_neg fun same => other (congrArg some same.1)
  | _ => rfl

theorem callsBy_map_called {q : Path} (cs : List (Registration κ)) :
    callsBy n p (cs.map (.called n q)) = if q = p then cs else [] := by
  rw [callsBy, List.filterMap_map]
  show cs.filterMap (fun c => if n = n ∧ q = p then some c else none) = _
  by_cases own : q = p
  · simp only [own, and_self, if_true]
    exact List.filterMap_some
  · simp only [own, and_false, if_false]
    exact List.filterMap_eq_nil_iff.2 fun _ _ => rfl

theorem reachedBy_map_called {q : Path} (cs : List (Registration κ)) :
    reachedBy n (cs.map (.called n q)) = [] := by
  rw [reachedBy, List.filterMap_map]
  exact List.filterMap_eq_nil_iff.2 fun c _ => rfl

/-- When a poll reports a path, it comes to that one only. -/
theorem reachedBy_turn {files : Workspace} (cs : List (Registration κ)) :
    reachedBy n (.reached n p files :: .reported n p files :: cs.map (.called n p)) = [p] := by
  have calls := reachedBy_map_called (n := n) (q := p) cs
  unfold reachedBy at calls ⊢
  simp [calls]

/-- What a poll does with watches, as they were when it began, and the paths that it reports. It
comes to one path after the other; if the stamp of the path is not the recorded one, it reports the
path and calls each registration for it, the ones of the watch first. -/
inductive Rounds (n : Nat) :
    List (Watch (Registration κ)) → List Path → List (WatchEvent κ) → Prop where
  | nil : Rounds n [] [] []
  | pass {x : Watch (Registration κ)} {xs : List (Watch (Registration κ))} {ps : List Path}
      {es : List (WatchEvent κ)} {files : Workspace} (same : files.stamp? x.path = .ok x.stamp)
      (rest : Rounds n xs ps es) : Rounds n (x :: xs) ps (.reached n x.path files :: es)
  | report {x : Watch (Registration κ)} {xs : List (Watch (Registration κ))} {ps : List Path}
      {es : List (WatchEvent κ)} {files : Workspace} {cs : List (Registration κ)}
      (differ : files.stamp? x.path ≠ .ok x.stamp) (all : x.callbacks <+: cs) (once : cs.Nodup)
      (rest : Rounds n xs ps es) : Rounds n (x :: xs) (x.path :: ps)
        (.reached n x.path files :: .reported n x.path files :: (cs.map (.called n x.path) ++ es))

namespace Rounds

theorem paths (rounds : Rounds n xs ps es) : ps.Sublist (xs.map (·.path)) := by
  induction rounds with
  | nil => exact .slnil
  | pass _ _ ih => exact ih.cons _
  | report _ _ _ _ ih => exact ih.cons_cons _

theorem reachedBy_eq (rounds : Rounds n xs ps es) : reachedBy n es = xs.map (·.path) := by
  induction rounds with
  | nil => rfl
  | pass _ _ ih => simpa [reachedBy] using ih
  | @report x _ _ es files cs _ _ _ _ ih =>
    have calls := reachedBy_map_called (n := n) (q := x.path) cs
    unfold reachedBy at ih calls ⊢
    simp [List.filterMap_append, ih, calls]

/-- A poll calls nobody for a path that it does not come to. -/
theorem callsBy_eq_nil (rounds : Rounds n xs ps es) (free : p ∉ xs.map (·.path)) :
    callsBy n p es = [] := by
  induction rounds with
  | nil => rfl
  | pass _ _ ih =>
    rw [List.map_cons, List.mem_cons, not_or] at free
    exact ih free.2
  | @report x _ _ es files cs _ _ _ _ ih =>
    rw [List.map_cons, List.mem_cons, not_or] at free
    show callsBy n p (cs.map (.called n x.path) ++ es) = []
    rw [callsBy_append, callsBy_map_called, if_neg (Ne.symm free.1), ih free.2, List.append_nil]

/-- A poll reports a path if and only if it finds a stamp that is not the recorded one, and then
calls all the registrations for it, each once. -/
theorem judged {x : Watch (Registration κ)} (rounds : Rounds n xs ps es)
    (distinct : (xs.map (·.path)).Nodup) (mem : x ∈ xs) :
    ∃ files, .reached n x.path files ∈ es ∧ (x.path ∈ ps ↔ files.stamp? x.path ≠ .ok x.stamp) ∧
      (x.path ∈ ps → x.callbacks <+: callsBy n x.path es ∧ (callsBy n x.path es).Nodup) := by
  induction rounds with
  | nil => cases mem
  | @pass y xs ps es files same rest ih =>
    rw [List.map_cons, List.nodup_cons] at distinct
    obtain rfl | later := List.mem_cons.1 mem
    · -- the paths behind are others, so that none of them accounts for a report of this one
      have silent : x.path ∉ ps := fun told => distinct.1 (rest.paths.subset told)
      exact ⟨files, List.mem_cons_self, iff_of_false silent (not_not_intro same),
        fun told => absurd told silent⟩
    · obtain ⟨files', reached, compared, calls⟩ := ih distinct.2 later
      exact ⟨files', List.mem_cons_of_mem _ reached, compared, calls⟩
  | @report y xs ps es files cs differ all once rest ih =>
    rw [List.map_cons, List.nodup_cons] at distinct
    have calls (q : Path) : callsBy n q (.reached n y.path files :: .reported n y.path files ::
        (cs.map (.called n y.path) ++ es)) = (if y.path = q then cs else []) ++ callsBy n q es := by
      rw [← callsBy_map_called (n := n) cs, ← callsBy_append]
      rfl
    obtain rfl | later := List.mem_cons.1 mem
    · rw [calls, if_pos rfl, rest.callsBy_eq_nil distinct.1, List.append_nil]
      exact ⟨files, List.mem_cons_self, iff_of_true List.mem_cons_self differ, fun _ => ⟨all, once⟩⟩
    · have other : y.path ≠ x.path := fun same =>
        distinct.1 (same ▸ List.mem_map_of_mem later)
      obtain ⟨files', reached, compared, called⟩ := ih distinct.2 later
      rw [calls, if_neg other, List.nil_append, List.mem_cons, or_iff_right (Ne.symm other)]
      exact ⟨files', by simp [reached], compared, called⟩

end Rounds

end WatchEvent

namespace Watcher.Recorded

open WatchEvent

variable {r r' r'' r₀ : Recorded κ ρ} {p : Path} {stamp : Option FileStamp} {n m : Nat}
  {x now : Watch (Registration κ)} {rest : List (Watch (Registration κ))} {ps : List Path}
  {cs : List (Registration κ)} {f : WatchFailure}
  {callback : κ → Path → Operation WatchFailure (Recorded κ ρ) Unit}

/-! ## What a poll does itself, as long as the watcher is not cleared -/

/-- A watch is still there, maybe with more callbacks. -/
def Stays (x : Watch (Registration κ)) (r : Recorded κ ρ) : Prop :=
  ∃ h, ∃ y ∈ r.watcher.watches, Carried h x y

/-- A poll finds a watch that is still there, with all its callbacks. -/
theorem Stays.live (stays : Stays x r) (sound : Sound r) :
    ∃ y, WatchOwner.live? r.watcher x = some y ∧ x.callbacks <+: y.callbacks ∧
      y.callbacks.Nodup := by
  obtain ⟨h, y, mem, carried⟩ := stays
  have found := WatchOwner.live?_of_mem sound.paths mem
  refine ⟨y, ?_, carried.callbacks, (sound.callbacks y mem).1⟩
  unfold WatchOwner.live? at found ⊢
  rwa [carried.path, carried.registration] at found

theorem Stays.accepted (stays : Stays x r) (sound : Sound r) : IsAccepted x.path := by
  obtain ⟨h, y, mem, carried⟩ := stays
  exact carried.path ▸ sound.accepted y mem

namespace Leads

theorem stays (leads : Leads n r r') (uncleared : .cleared ∉ since r r') (stays : Stays x r) :
    Stays x r' := by
  obtain ⟨h, y, mem, carried⟩ := stays
  obtain ⟨z, there, carried'⟩ := leads.carries uncleared y mem
  exact ⟨_, z, there, carried.trans carried'⟩

theorem uncleared (first : Leads n r r') (later : Leads m r' r'')
    (uncleared : .cleared ∉ since r r'') : .cleared ∉ since r r' ∧ .cleared ∉ since r' r'' := by
  rwa [first.since_trans later, List.mem_append, not_or] at uncleared

/-- What later polls do is not done by a poll that has begun before. -/
theorem ownOf_eq (leads : Leads m r r') (less : n < m) :
    ownOf n r'.history = ownOf n r.history := by
  rw [leads.history, ownOf_append, ownOf_later fun e mem k number =>
    Nat.lt_of_lt_of_le less (leads.numbers e mem k number), List.append_nil]

end Leads

/-- A callback that a poll calls adds its call to what the poll does. -/
theorem ownOf_call (orderly : ∀ c p, Orderly (callback c p)) (sound : Sound r)
    (begun : n < pollsIn r.history) (p : Path) (c : Registration κ) :
    ownOf n (leaves ((owner n callback).call c p) r).history =
      ownOf n r.history ++ [.called n p c] := by
  have called := Leads.call sound begun p c
  refine ((orderly c.callback p _ called.sound).ownOf_eq
    (Nat.lt_of_lt_of_le begun called.pollsIn_le)).trans ?_
  rw [ownOf_append]
  simp [ownOf, poll?]

/-- A poll calls all the callbacks that it goes through. -/
theorem calls_ok (orderly : ∀ c p, Orderly (callback c p)) (sound : Sound r)
    (begun : n < pollsIn r.history) {u : Unit}
    (run : (cs.forM fun c => (owner n callback).call c p) r = .ok u r') :
    ownOf n r'.history = ownOf n r.history ++ cs.map (.called n p) := by
  induction cs generalizing r with
  | nil =>
    obtain rfl := forM_nil_ok.1 run
    exact (List.append_nil _).symm
  | cons c cs ih =>
    obtain ⟨t, first, later⟩ := forM_cons_ok.1 run
    have leads := call_leads orderly sound begun p c
    have own := ownOf_call orderly sound begun p c
    rw [leaves_ok first] at leads own
    rw [ih leads.sound (Nat.lt_of_lt_of_le begun leads.pollsIn_le) later, own, List.map_cons,
      List.append_assoc]
    rfl

/-- Or it calls them up to one that fails. -/
theorem calls_error (orderly : ∀ c p, Orderly (callback c p)) (sound : Sound r)
    (begun : n < pollsIn r.history)
    (run : (cs.forM fun c => (owner n callback).call c p) r = .error f r') :
    ∃ called c t,
      ownOf n r'.history = ownOf n r.history ++ (called ++ [c]).map (.called n p) ∧
      .called n p c ∈ t.history ∧ callback c.callback p t = .error f r' := by
  induction cs generalizing r with
  | nil => exact (forM_nil_error.1 run).elim
  | cons c cs ih =>
    have leads := call_leads orderly sound begun p c
    have own := ownOf_call orderly sound begun p c
    rcases forM_cons_error.1 run with failed | ⟨t, first, later⟩
    · rw [leaves_error failed] at own
      rw [call_eq] at failed
      exact ⟨[], c, _, own, List.mem_append_right _ List.mem_cons_self, failed⟩
    · rw [leaves_ok first] at leads own
      obtain ⟨called, c', t', own', known, failed⟩ :=
        ih leads.sound (Nat.lt_of_lt_of_le begun leads.pollsIn_le) later
      refine ⟨c :: called, c', t', ?_, known, failed⟩
      rw [own', own, List.append_assoc]
      rfl

/-- A poll comes to a watch that is still there: it passes the path, or it reports it and calls at
least the callbacks that the watch has had. -/
theorem pollEach_cons (sound : Sound r) (stays : Stays x r) :
    (r.files.stamp? x.path = .ok x.stamp ∧
      (owner n callback).pollEach (x :: rest) r = (owner n callback).pollEach rest
        { r with history := r.history ++ [.reached n x.path r.files] }) ∨
    ∃ stamp now, r.files.stamp? x.path = .ok stamp ∧ r.files.stamp? x.path ≠ .ok x.stamp ∧
      WatchOwner.live? r.watcher x = some now ∧ x.callbacks <+: now.callbacks ∧
      now.callbacks.Nodup ∧ (owner n callback).pollEach (x :: rest) r =
        (do
          now.callbacks.forM fun c => (owner n callback).call c x.path
          return x.path :: (← (owner n callback).pollEach rest)) (reporting n x.path stamp r) := by
  obtain ⟨stamp, present⟩ := stamp?_ok r.files (stays.accepted sound)
  by_cases same : stamp = x.stamp
  · subst same
    exact .inl ⟨present, pollEach_same present⟩
  · obtain ⟨now, live, all, once⟩ := stays.live sound
    refine .inr ⟨stamp, now, present, fun kept => same ?_, live, all, once,
      pollEach_live present same live⟩
    exact Except.ok.inj (present.symm.trans kept)

theorem ownOf_reporting : ownOf n (reporting n p stamp r).history =
    ownOf n r.history ++ [.reached n p r.files, .reported n p r.files] := by
  simp only [reporting, ownOf_append, List.append_assoc]
  simp [ownOf, poll?]

/-- A poll in progress, which has the watches in `rest` before it. -/
structure Ahead (n : Nat) (rest : List (Watch (Registration κ))) (r : Recorded κ ρ) : Prop where
  sound : Sound r
  begun : n < pollsIn r.history
  stay : ∀ x ∈ rest, Stays x r

/-- The poll is still in progress when it has come to one of them, if the watcher is not cleared
before the poll ends. -/
theorem Ahead.next (ahead : Ahead n (x :: rest) r) (orderly : ∀ c p, Orderly (callback c p))
    (leads : Leads n r r')
    (uncleared : .cleared ∉ since r (leaves ((owner n callback).pollEach rest) r')) :
    Ahead n rest r' ∧ .cleared ∉ since r' (leaves ((owner n callback).pollEach rest) r') := by
  have begun := Nat.lt_of_lt_of_le ahead.begun leads.pollsIn_le
  have others : ∀ y ∈ rest, Stays y r := fun y mem => ahead.stay y (List.mem_cons_of_mem x mem)
  have accepted : ∀ y ∈ rest, IsAccepted y.path := fun y mem => (others y mem).accepted ahead.sound
  have ended := pollEach_leads orderly leads.sound begun accepted
  obtain ⟨before, after⟩ := leads.uncleared ended uncleared
  exact ⟨⟨leads.sound, begun, fun y mem => leads.stays before (others y mem)⟩, after⟩

/-- The poll passes the first path. -/
theorem Ahead.pass (ahead : Ahead n (x :: rest) r) (orderly : ∀ c p, Orderly (callback c p))
    (uncleared : .cleared ∉ since r (leaves ((owner n callback).pollEach rest)
      { r with history := r.history ++ [.reached n x.path r.files] })) :
    Ahead n rest { r with history := r.history ++ [.reached n x.path r.files] } ∧
      .cleared ∉ since { r with history := r.history ++ [.reached n x.path r.files] }
        (leaves ((owner n callback).pollEach rest)
          { r with history := r.history ++ [.reached n x.path r.files] }) ∧
      ownOf n (r.history ++ [.reached n x.path r.files]) =
        ownOf n r.history ++ [.reached n x.path r.files] := by
  obtain ⟨ahead', uncleared'⟩ :=
    ahead.next orderly (.look ahead.sound ahead.begun x.path) uncleared
  refine ⟨ahead', uncleared', ?_⟩
  rw [ownOf_append]
  simp [ownOf, poll?]

/-- The poll reports the first path and calls the callbacks for it. -/
theorem Ahead.report (ahead : Ahead n (x :: rest) r) (orderly : ∀ c p, Orderly (callback c p))
    (present : r.files.stamp? x.path = .ok stamp)
    (live : WatchOwner.live? r.watcher x = some now) {u : Unit}
    (called : (now.callbacks.forM fun c => (owner n callback).call c x.path)
      (reporting n x.path stamp r) = .ok u r')
    (uncleared : .cleared ∉ since r (leaves ((owner n callback).pollEach rest) r')) :
    Ahead n rest r' ∧ .cleared ∉ since r' (leaves ((owner n callback).pollEach rest) r') ∧
      ownOf n r'.history = ownOf n r.history ++ .reached n x.path r.files ::
        .reported n x.path r.files :: now.callbacks.map (.called n x.path) := by
  have told := Leads.reporting ahead.sound ahead.begun present live
  have begun := Nat.lt_of_lt_of_le ahead.begun told.pollsIn_le
  have calls := calls_lead orderly told.sound begun x.path now.callbacks
  rw [leaves_ok called] at calls
  obtain ⟨ahead', uncleared'⟩ := ahead.next orderly (told.trans calls) uncleared
  refine ⟨ahead', uncleared', ?_⟩
  rw [calls_ok orderly told.sound begun called, ownOf_reporting, List.append_assoc]
  rfl

/-- A poll that succeeds goes through all its watches. -/
theorem pollEach_ok (orderly : ∀ c p, Orderly (callback c p)) (ahead : Ahead n rest r)
    (run : (owner n callback).pollEach rest r = .ok ps r') (uncleared : .cleared ∉ since r r') :
    ∃ es, ownOf n r'.history = ownOf n r.history ++ es ∧ Rounds n rest ps es := by
  induction rest generalizing r ps with
  | nil =>
    obtain ⟨rfl, rfl⟩ := pure_ok.1 run
    exact ⟨[], (List.append_nil _).symm, .nil⟩
  | cons x rest ih =>
    rcases pollEach_cons ahead.sound (ahead.stay x List.mem_cons_self) with
      ⟨same, step⟩ | ⟨stamp, now, present, differ, live, all, once, step⟩
    · rw [step] at run
      rw [← leaves_ok run] at uncleared
      obtain ⟨ahead', uncleared', passed⟩ := ahead.pass orderly uncleared
      rw [leaves_ok run] at uncleared'
      obtain ⟨es, own, rounds⟩ := ih ahead' run uncleared'
      refine ⟨_, ?_, .pass same rounds⟩
      rw [own, passed, List.append_assoc]
      rfl
    · rw [step] at run
      obtain ⟨_, t, called, run⟩ := bind_ok.1 run
      obtain ⟨ps', t', later, answered⟩ := bind_ok.1 run
      obtain ⟨rfl, rfl⟩ := pure_ok.1 answered
      rw [← leaves_ok later] at uncleared
      obtain ⟨ahead', uncleared', told⟩ := ahead.report orderly present live called uncleared
      rw [leaves_ok later] at uncleared'
      obtain ⟨es, own, rounds⟩ := ih ahead' later uncleared'
      refine ⟨_, ?_, .report differ all once rounds⟩
      rw [own, told, List.append_assoc]
      rfl

/-- A poll that fails does so in a callback for one of its watches, when it has gone through the
ones before it. -/
theorem pollEach_error (orderly : ∀ c p, Orderly (callback c p)) (ahead : Ahead n rest r)
    (run : (owner n callback).pollEach rest r = .error f r') (uncleared : .cleared ∉ since r r') :
    ∃ done x later ps es files called c t, rest = done ++ x :: later ∧ Rounds n done ps es ∧
      ownOf n r'.history = ownOf n r.history ++ es ++ .reached n x.path files ::
        .reported n x.path files :: (called ++ [c]).map (.called n x.path) ∧
      .called n x.path c ∈ t.history ∧ callback c.callback x.path t = .error f r' := by
  induction rest generalizing r with
  | nil => exact (pure_error.1 run).elim
  | cons x rest ih =>
    rcases pollEach_cons ahead.sound (ahead.stay x List.mem_cons_self) with
      ⟨same, step⟩ | ⟨stamp, now, present, differ, live, all, once, step⟩
    · rw [step] at run
      rw [← leaves_error run] at uncleared
      obtain ⟨ahead', uncleared', passed⟩ := ahead.pass orderly uncleared
      rw [leaves_error run] at uncleared'
      obtain ⟨done, y, later, ps, es, files, called, c, t, rfl, rounds, own, known, failed⟩ :=
        ih ahead' run uncleared'
      refine ⟨x :: done, y, later, ps, _, files, called, c, t, rfl, .pass same rounds, ?_, known,
        failed⟩
      rw [own, passed]
      simp only [List.append_assoc, List.cons_append, List.nil_append]
    rw [step] at run
    -- it fails in a callback for this path, or later, for one that it comes to after that
    rcases bind_error.1 run with broken | ⟨_, t, called, run⟩
    · have told := Leads.reporting ahead.sound ahead.begun present live
      obtain ⟨called, c, t, own, known, failed⟩ :=
        calls_error orderly told.sound (Nat.lt_of_lt_of_le ahead.begun told.pollsIn_le) broken
      refine ⟨[], x, rest, [], [], r.files, called, c, t, rfl, .nil, ?_, known, failed⟩
      rw [own, ownOf_reporting, List.append_nil, List.append_assoc]
      rfl
    rcases bind_error.1 run with later | ⟨_, _, -, answered⟩
    · rw [← leaves_error later] at uncleared
      obtain ⟨ahead', uncleared', told⟩ := ahead.report orderly present live called uncleared
      rw [leaves_error later] at uncleared'
      obtain ⟨done, y, rest, ps, es, files, called', c, t', rfl, rounds, own, known, failed⟩ :=
        ih ahead' later uncleared'
      refine ⟨x :: done, y, rest, _, _, files, called', c, t', rfl,
        .report differ all once rounds, ?_, known, failed⟩
      rw [own, told]
      simp only [List.append_assoc, List.cons_append]
    · exact (pure_error.1 answered).elim

theorem Ahead.start (sound : Sound r) : Ahead (pollsIn r.history) r.watcher.watches
    { r with history := r.history ++ [.began] } where
  sound := (Leads.began sound).sound
  begun := pollsIn_began r.history
  stay x mem := ⟨[], x, mem, .refl [] x⟩

/-- A poll that begins has done nothing yet. -/
theorem ownOf_began (sound : Sound r) :
    ownOf (pollsIn r.history) (r.history ++ [.began]) = [] := by
  rw [ownOf_append, ownOf_earlier fun e mem m number => sound.numbers e mem m number]
  rfl

theorem uncleared_began (orderly : ∀ c p, Orderly (callback c p)) (sound : Sound r)
    (uncleared : .cleared ∉ since r (leaves (poll callback) r)) :
    .cleared ∉ since { r with history := r.history ++ [.began] } (leaves (poll callback) r) := by
  have began := Leads.began sound
  have later := pollEach_leads orderly began.sound (pollsIn_began r.history) sound.accepted
  exact (began.uncleared later uncleared).2

/-- A poll that succeeds goes through the watches that there are when it begins. -/
theorem poll_ok (orderly : ∀ c p, Orderly (callback c p)) (sound : Sound r)
    (run : poll callback r = .ok ps r') (uncleared : .cleared ∉ since r r') :
    Rounds (pollsIn r.history) r.watcher.watches ps (ownOf (pollsIn r.history) r'.history) := by
  rw [← leaves_ok run] at uncleared
  have later := uncleared_began orderly sound uncleared
  rw [leaves_ok run] at later
  obtain ⟨es, own, rounds⟩ := pollEach_ok orderly (.start sound) run later
  rw [ownOf_began sound] at own
  exact own ▸ rounds

/-- A poll ends with the failure of a callback that it has called, when it has come to the paths
before and to that of the callback, and to no other one. -/
def BreaksOff (callback : κ → Path → Operation WatchFailure (Recorded κ ρ) Unit)
    (r : Recorded κ ρ) (f : WatchFailure) (r' : Recorded κ ρ) : Prop :=
  ∃ done x ahead c t, r.watcher.watches = done ++ x :: ahead ∧
    reachedBy (pollsIn r.history) r'.history = done.map (·.path) ++ [x.path] ∧
    .called (pollsIn r.history) x.path c ∈ t.history ∧
    callback c.callback x.path t = .error f r'

/-- There is no other way for a poll to fail. -/
theorem poll_error (orderly : ∀ c p, Orderly (callback c p)) (sound : Sound r)
    (run : poll callback r = .error f r') (uncleared : .cleared ∉ since r r') :
    BreaksOff callback r f r' := by
  rw [← leaves_error run] at uncleared
  have later := uncleared_began orderly sound uncleared
  rw [leaves_error run] at later
  obtain ⟨done, x, ahead, ps, es, files, called, c, t, split, rounds, own, known, failed⟩ :=
    pollEach_error orderly (.start sound) run later
  refine ⟨done, x, ahead, c, t, split, ?_, known, failed⟩
  rw [ownOf_began sound] at own
  rw [← reachedBy_ownOf, own, List.nil_append, reachedBy_append, rounds.reachedBy_eq,
    reachedBy_turn]

/-! ## What a failing poll leaves to the next one -/

/-- When a callback fails in a poll, after whatever users have done, and callbacks may do all of it,
the poll goes no further. The paths that have not been reported keep their stamps and callbacks, and
the ones that have been reported have the stamps that they had at the last report. The next poll, if
it succeeds, comes to each of these paths, and reports it if and only if its stamp is another one
then; all the callbacks of the paths that it reports are called, each once. If it fails, a callback
has failed again. -/
theorem failing_poll_spares_others (new : r₀.IsNew) (visited : Visited r₀ r)
    (usage : ∀ c p, Usage (callback c p)) (run : poll callback r = .error f r')
    (uncleared : .cleared ∉ since r r') :
    BreaksOff callback r f r' ∧
    (∀ x ∈ r.watcher.watches, Unreported x.path (since r r') →
      ∃ y ∈ r'.watcher.watches, y.path = x.path ∧ y.stamp = x.stamp ∧
        x.callbacks <+: y.callbacks) ∧
    (∀ before n p files after, since r r' = before ++ .reported n p files :: after →
      Unreported p after → ∃ y ∈ r'.watcher.watches, y.path = p ∧ files.stamp? p = .ok y.stamp) ∧
    ∀ (callback' : κ → Path → Operation WatchFailure (Recorded κ ρ) Unit) (r'' : Recorded κ ρ),
      (∀ c p, Usage (callback' c p)) → Visited r' r'' → .began ∉ since r' r'' →
      .cleared ∉ since r' r'' → .cleared ∉ since r'' (leaves (poll callback') r'') →
      (∀ f' s, poll callback' r'' = .error f' s → BreaksOff callback' r'' f' s) ∧
      ∀ ps s, poll callback' r'' = .ok ps s → ∀ y ∈ r'.watcher.watches,
        ∃ files, .reached (pollsIn r''.history) y.path files ∈ s.history ∧
          (y.path ∈ ps ↔ files.stamp? y.path ≠ .ok y.stamp) ∧
          (y.path ∈ ps → y.callbacks <+: callsBy (pollsIn r''.history) y.path s.history ∧
            (callsBy (pollsIn r''.history) y.path s.history).Nodup) := by
  have sound : Sound r := (visited.leads (.of_isNew new)).sound
  have orderly := fun c p => (usage c p).orderly
  have leads : Leads (pollsIn r.history) r r' :=
    leaves_error run ▸ Orderly.poll orderly r sound
  refine ⟨poll_error orderly sound run uncleared, fun x mem unreported => ?_,
    fun before n p files after => leads.told uncleared before n p files after,
    fun callback' r'' usage' visited' idle between uncleared' => ?_⟩
  · obtain ⟨y, there, carried⟩ := leads.carries uncleared x mem
    exact ⟨y, there, carried.path, carried.stamp unreported, carried.callbacks⟩
  have orderly' := fun c p => (usage' c p).orderly
  have waits := visited'.leads leads.sound
  constructor
  · intro f' s run'
    rw [leaves_error run'] at uncleared'
    exact poll_error orderly' waits.sound run' uncleared'
  · intro ps s run' y mem
    rw [leaves_ok run'] at uncleared'
    obtain ⟨z, there, carried⟩ := waits.carries between y mem
    have rounds := poll_ok orderly' waits.sound run' uncleared'
    obtain ⟨files, reached, compared, calls⟩ := rounds.judged waits.sound.paths there
    rw [callsBy_ownOf] at calls
    rw [carried.path] at reached compared calls
    -- no poll has begun since, so that the recorded stamp is the one that the failing poll has left
    rw [carried.stamp (waits.unreported idle y.path)] at compared
    exact ⟨files, (List.mem_filter.1 reached).1, compared, fun told =>
      ⟨carried.callbacks.trans (calls told).1, (calls told).2⟩⟩

/-- The callback of the first file fails. -/
def failFirst (callback : Nat) (_ : Path) : Operation WatchFailure (Recorded Nat Unit) Unit :=
  if callback = 0 then throw (.raised "boom") else pure ()

theorem failFirst_usage (callback : Nat) (p : Path) : Usage (failFirst callback p) := by
  unfold failFirst
  split
  · exact .program (.elsewhere (.throw _))
  · exact .program (.elsewhere (.pure ()))

/-- Of two files that have changed, the one behind the failing callback is reported by the next poll
with the stamp that has been recorded for it, and its callback is called. -/
theorem failing_poll_spares_others_second : ∃ r r' s f,
    twoWritten { files := {}, rest := () } = .ok () r ∧ poll failFirst r = .error f r' ∧
    (∃ y ∈ r'.watcher.watches, y.path = ⟨.root, ["c"]⟩ ∧ y.stamp = none) ∧
    poll failFirst r' = .ok [⟨.root, ["c"]⟩] s ∧
    [⟨1, 1⟩] <+: callsBy 1 ⟨.root, ["c"]⟩ s.history ∧
    (callsBy 1 ⟨.root, ["c"]⟩ s.history).Nodup := by
  have evaluated : succeedsWith (fun _ r => failsWith (fun _ r' =>
      .cleared ∉ since r r' ∧ pollsIn r'.history = 1 ∧
      (∃ x ∈ r.watcher.watches, x.path = ⟨.root, ["c"]⟩ ∧ x.stamp = none ∧
        x.callbacks = [⟨1, 1⟩] ∧ Unreported x.path (since r r')) ∧
      succeedsWith (fun ps s => ps = [⟨.root, ["c"]⟩] ∧ .cleared ∉ since r' s)
        (poll failFirst) r') (poll failFirst) r)
      twoWritten { files := {}, rest := () } = true := by decide +kernel
  obtain ⟨⟨⟩, r, run, failing⟩ := ok_of_succeedsWith evaluated
  obtain ⟨f, r', failed, seen⟩ := error_of_failsWith failing
  obtain ⟨uncleared, number, ⟨x, mem, path, stamp, callbacks, unreported⟩, next⟩ :=
    of_decide_eq_true seen
  obtain ⟨ps, s, run', seen'⟩ := ok_of_succeedsWith next
  obtain ⟨rfl, uncleared'⟩ := of_decide_eq_true seen'
  have visited : Visited { files := {}, rest := () } r :=
    leaves_ok run ▸ .next .start (.program twoWritten_program)
  have nothing : since r' r' = [] := since_eq (List.append_nil _).symm
  obtain ⟨-, kept, -, later⟩ :=
    failing_poll_spares_others ⟨rfl, rfl⟩ visited failFirst_usage failed uncleared
  obtain ⟨y, there, here, same, all⟩ := kept x mem unreported
  rw [path] at here
  rw [stamp] at same
  rw [callbacks] at all
  obtain ⟨files, -, -, calls⟩ := (later failFirst r' failFirst_usage .start (nothing ▸ nofun)
    (nothing ▸ nofun) (leaves_ok run' ▸ uncleared')).2 _ s run' y there
  rw [here, number] at calls
  obtain ⟨first, once⟩ := calls List.mem_cons_self
  exact ⟨r, r', s, f, run, failed, ⟨y, there, here, same⟩, run', all.trans first, once⟩

end Watcher.Recorded

namespace WatchBench

/-- When the callbacks of two of three changed files fail, the poll after the first failure breaks
off as well, before it comes to the third file. A callback that writes its own file before it fails
is called by the next poll again. -/
theorem next_poll_breaks_off :
    failsWith (fun _ b =>
        b.runs = [(1, ⟨.root, ["a.json"]⟩)] ∧
        b.watcher.watches.map (·.stamp.isSome) = [true, false, false] ∧
        failsWith (fun _ b' =>
            b'.runs = [(2, ⟨.root, ["b.json"]⟩), (1, ⟨.root, ["a.json"]⟩)] ∧
            b'.watcher.watches.map (·.stamp.isSome) = [true, true, false])
          (perform .poll) b)
      (List.forM [.watch ⟨.root, ["a.json"]⟩ 1 [.fail "boom"],
          .watch ⟨.root, ["b.json"]⟩ 2 [.fail "boom"], .watch ⟨.root, ["c.json"]⟩ 3 [],
          .change (.write ⟨.root, ["a.json"]⟩ [] none),
          .change (.write ⟨.root, ["b.json"]⟩ [] none),
          .change (.write ⟨.root, ["c.json"]⟩ [] none), .poll]
        fun action => discard (perform action)) {} = true ∧
    failsWith (fun _ b =>
        b.runs = [(1, ⟨.root, ["a.json"]⟩)] ∧
        failsWith (fun _ b' => b'.runs = [(1, ⟨.root, ["a.json"]⟩), (1, ⟨.root, ["a.json"]⟩)])
          (perform .poll) b)
      (List.forM [.watch ⟨.root, ["a.json"]⟩ 1
            [.change (.write ⟨.root, ["a.json"]⟩ [] none), .fail "boom"],
          .change (.write ⟨.root, ["a.json"]⟩ [] none), .poll]
        fun action => discard (perform action)) {} = true := by
  decide +kernel

end WatchBench
end MessageLens
