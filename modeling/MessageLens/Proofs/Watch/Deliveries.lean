import Mathlib.Logic.Function.Basic
import MessageLens.Proofs.File.Access
import MessageLens.Proofs.Watch.History

/-!
# Whom a poll calls

The watcher holds what its history says: the watched paths in the order of their first
registrations, each with the stamp that is known for it and the registrations made since the watcher
was cleared. A poll that reports a path has to call the registrations it finds there then, and it
does so once and in order, whatever callbacks do meanwhile: they may register more, clear the
watcher, and run polls of their own. What the polls in progress have still to call is all that a
history leaves open.
-/

namespace MessageLens
set_option autoImplicit false

open Operation

variable {κ ρ β : Type}

/-- Recording a stamp shows in the layout of that path alone. -/
theorem Watcher.layout_record (w : Watcher κ) (p : Path) (stamp : Option FileStamp) :
    (w.record p stamp).layout =
      w.layout.map fun e => if e.1 = p then (e.1, stamp, e.2.2) else e := by
  rw [layout, layout, record, List.map_map, List.map_map]
  apply List.map_congr_left
  intro x _
  by_cases own : x.path = p
  · simp [own]
  · simp [own]

namespace WatchEvent

variable {h : List (WatchEvent κ)} {e : WatchEvent κ} {p : Path} {c : Registration κ}
  {files : Workspace} {stamp : Option FileStamp} {poll : Nat}

/-! ## The layout that a history accounts for -/

/-- What a history says is watched. -/
def layoutIn (h : List (WatchEvent κ)) : List (Path × Option FileStamp × List (Registration κ)) :=
  (watchedIn h).map fun p => (p, stampIn p h, registrationsOf p h)

/-- The event says nothing new of what is watched. -/
def Neutral : WatchEvent κ → Prop
  | changed .. | began | reached .. | called .. => True
  | registered .. | cleared | reported .. => False

theorem watchedIn_neutral (neutral : Neutral e) : watchedIn (h ++ [e]) = watchedIn h := by
  rw [watchedIn_snoc]
  cases e <;> first | rfl | cases neutral

theorem known?_neutral (neutral : Neutral e) : known? p (h ++ [e]) = known? p h := by
  rw [known?_snoc]
  cases e <;> first | rfl | cases neutral

theorem registrationsOf_neutral (neutral : Neutral e) :
    registrationsOf p (h ++ [e]) = registrationsOf p h := by
  rw [registrationsOf_snoc]
  cases e <;> first | rfl | cases neutral

theorem layoutIn_neutral (neutral : Neutral e) : layoutIn (h ++ [e]) = layoutIn h := by
  unfold layoutIn stampIn
  simp only [watchedIn_neutral neutral, known?_neutral neutral, registrationsOf_neutral neutral]

/-- A registration for a watched path joins the others. -/
theorem layoutIn_joined (watched : p ∈ watchedIn h) :
    layoutIn (h ++ [.registered p c files]) =
      (layoutIn h).map fun e => if e.1 = p then (e.1, e.2.1, e.2.2 ++ [c]) else e := by
  obtain ⟨known, isKnown⟩ := Option.isSome_iff_exists.1 (isSome_known?.2 watched)
  unfold layoutIn stampIn
  rw [watchedIn_snoc, watchedAfter, if_pos watched, List.map_map]
  apply List.map_congr_left
  intro q _
  simp only [known?_snoc, registrationsOf_snoc, knownAfter, registrationsAfter, Function.comp]
  by_cases here : q = p
  · subst here
    simp [isKnown]
  · simp [here, Ne.symm here]

/-- A registration for another path begins a watch with the present stamp. -/
theorem layoutIn_began (free : p ∉ watchedIn h) (present : files.stamp? p = .ok stamp) :
    layoutIn (h ++ [.registered p c files]) = layoutIn h ++ [(p, stamp, [c])] := by
  have unknown : known? p h = none :=
    Option.not_isSome_iff_eq_none.1 fun known => free (isSome_known?.1 known)
  unfold layoutIn stampIn
  rw [watchedIn_snoc, watchedAfter, if_neg free, List.map_append]
  refine congrArg₂ (· ++ ·) (List.map_congr_left fun q mem => ?_) ?_
  · have other : p ≠ q := fun same => free (same ▸ mem)
    simp only [known?_snoc, registrationsOf_snoc, knownAfter, registrationsAfter, if_neg other]
  · simp [known?_snoc, registrationsOf_snoc, knownAfter, registrationsAfter, unknown,
      registrationsOf_unwatched free, present, Except.toOption]

theorem layoutIn_cleared : layoutIn (h ++ [.cleared]) = [] := by
  unfold layoutIn
  rw [watchedIn_snoc]
  rfl

/-- Reporting a path makes its present stamp the known one. -/
theorem layoutIn_reported (present : files.stamp? p = .ok stamp) :
    layoutIn (h ++ [.reported poll p files]) =
      (layoutIn h).map fun e => if e.1 = p then (e.1, stamp, e.2.2) else e := by
  have same : watchedIn (h ++ [.reported poll p files]) = watchedIn h := watchedIn_snoc
  unfold layoutIn stampIn
  rw [same, List.map_map]
  apply List.map_congr_left
  intro q mem
  simp only [known?_snoc, registrationsOf_snoc, knownAfter, registrationsAfter, Function.comp]
  by_cases here : q = p
  · subst here
    obtain ⟨known, isKnown⟩ := Option.isSome_iff_exists.1 (isSome_known?.2 mem)
    simp [isKnown, present, Except.toOption]
  · simp [here, Ne.symm here]

/-! ## Calls that are due -/

/-- Every registration for a path that is reported is called by the poll that reports it, once and
in order, and no other one is; `left` are the registrations that polls in progress have still to
call. -/
structure Delivers (left : Nat × Path → List (Registration κ)) (h : List (WatchEvent κ)) :
    Prop where
  calls : ∀ before poll p files after, h = before ++ .reported poll p files :: after →
    callsBy poll p after ++ left (poll, p) = registrationsOf p before
  told : ∀ before poll p c after, h = before ++ .called poll p c :: after →
    ∃ files, .reported poll p files ∈ before
  once : ∀ before poll p files after, h = before ++ .reported poll p files :: after →
    ∀ files', .reported poll p files' ∉ before
  begun : ∀ before poll p files after, h = before ++ .reported poll p files :: after →
    poll < pollsIn before
  idle : ∀ poll p, (∀ files, .reported poll p files ∉ h) → left (poll, p) = []
  seen : ∀ poll p files, .reached poll p files ∈ h → poll < pollsIn h

/-- Registrations are numbered in order. -/
def Numbered (h : List (WatchEvent κ)) : Prop :=
  ∀ before p c files after, h = before ++ .registered p c files :: after →
    c.number = registrationsIn before

theorem Numbered.snoc (numbered : Numbered h)
    (last : ∀ p c files, e = .registered p c files → c.number = registrationsIn h) :
    Numbered (h ++ [e]) := by
  intro before p c files after split
  rcases snoc_split split with ⟨rfl, same, -⟩ | ⟨after', rfl, -⟩
  · exact last p c files same.symm
  · exact numbered before p c files after' rfl

/-- Registrations are older than what is registered after them. -/
theorem Numbered.lt (numbered : Numbered h) (mem : .registered p c files ∈ h) :
    c.number < registrationsIn h := by
  obtain ⟨before, after, rfl⟩ := List.append_of_mem mem
  have number := numbered before p c files after rfl
  rw [registrationsIn_append, registrationsIn, registrationsIn, List.countP_cons_of_pos rfl]
  unfold registrationsIn at number
  omega

theorem Numbered.of_append {more : List (WatchEvent κ)} (numbered : Numbered (h ++ more)) :
    Numbered h := by
  intro before p c files after split
  refine numbered before p c files (after ++ more) ?_
  rw [split, List.append_assoc, List.cons_append]

/-- No registration for a path is counted twice. -/
theorem Numbered.registrationsOf_nodup (numbered : Numbered h) (p : Path) :
    (registrationsOf p h).Nodup := by
  induction h using List.reverseRecOn with
  | nil => exact List.nodup_nil
  | append_singleton h e ih =>
    have before := ih numbered.of_append
    rw [registrationsOf_snoc]
    cases e with
    | registered q c files =>
      simp only [registrationsAfter]
      by_cases here : q = p
      · rw [if_pos here]
        refine List.nodup_append.2 ⟨before, by simp, fun c' old c'' new same => ?_⟩
        rw [List.mem_singleton.1 new] at same
        obtain ⟨files', known⟩ := mem_of_registrationsOf (same ▸ old)
        have older := numbered.of_append.lt known
        have number := numbered h q c files [] rfl
        omega
      · rw [if_neg here]
        exact before
    | cleared => exact List.nodup_nil
    | _ => exact before

/-- The calls of a poll for a path are those that it makes after it has reported the path. -/
theorem Delivers.callsBy_eq {left : Nat × Path → List (Registration κ)} (delivers : Delivers left h)
    {before after : List (WatchEvent κ)}
    (split : h = before ++ .reported poll p files :: after) :
    callsBy poll p h = callsBy poll p after := by
  have none : callsBy poll p before = [] := by
    apply List.eq_nil_iff_forall_not_mem.2
    intro c mem
    obtain ⟨first, rest, rfl⟩ := List.append_of_mem (mem_callsBy.1 mem)
    rw [List.append_assoc] at split
    obtain ⟨files', known⟩ := delivers.told first poll p c _ split
    rw [List.cons_append, ← List.cons_append, ← List.append_assoc] at split
    exact delivers.once _ poll p files after split files' (List.mem_append_left _ known)
  rw [split, callsBy_append, none]
  rfl

namespace Delivers

variable {left : Nat × Path → List (Registration κ)}

/-- A poll calls nobody for a path that it has not reported. -/
theorem callsBy_eq_nil (delivers : Delivers left h) (none : ∀ files, .reported poll p files ∉ h) :
    callsBy poll p h = [] := by
  apply List.eq_nil_iff_forall_not_mem.2
  intro c mem
  obtain ⟨before, after, split⟩ := List.append_of_mem (mem_callsBy.1 mem)
  obtain ⟨files, known⟩ := delivers.told before poll p c after split
  exact none files (split ▸ List.mem_append_left _ known)

theorem start : Delivers (fun _ => []) ([] : List (WatchEvent κ)) where
  calls before poll p files after split := by simp at split
  told before poll p c after split := by simp at split
  once before poll p files after split := by simp at split
  begun before poll p files after split := by simp at split
  idle _ _ _ := rfl
  seen poll p files mem := by cases mem

theorem lt_of_reported (delivers : Delivers left h) (mem : .reported poll p files ∈ h) :
    poll < pollsIn h := by
  obtain ⟨before, after, split⟩ := List.append_of_mem mem
  have begun := delivers.begun before poll p files after split
  rw [split, pollsIn_append]
  omega

/-- An event that is neither a report nor a call leaves open what was open. -/
theorem note (delivers : Delivers left h) (silent : ∀ poll p files, e ≠ .reported poll p files)
    (mute : ∀ poll p c, e ≠ .called poll p c)
    (own : ∀ poll p files, e = .reached poll p files → poll < pollsIn h) :
    Delivers left (h ++ [e]) := by
  have calls (poll : Nat) (p : Path) : callsBy poll p [e] = [] := by
    apply List.eq_nil_iff_forall_not_mem.2
    intro c mem
    exact mute poll p c (List.mem_singleton.1 (mem_callsBy.1 mem)).symm
  refine ⟨fun before poll p files after split => ?_, fun before poll p c after split => ?_,
    fun before poll p files after split => ?_, fun before poll p files after split => ?_,
    fun poll p none => ?_, fun poll p files mem => ?_⟩
  · rcases snoc_split split with ⟨-, same, -⟩ | ⟨after', earlier, rfl⟩
    · exact absurd same.symm (silent poll p files)
    · rw [callsBy_append, calls, List.append_nil]
      exact delivers.calls before poll p files after' earlier
  · rcases snoc_split split with ⟨-, same, -⟩ | ⟨after', earlier, -⟩
    · exact absurd same.symm (mute poll p c)
    · exact delivers.told before poll p c after' earlier
  · rcases snoc_split split with ⟨-, same, -⟩ | ⟨after', earlier, -⟩
    · exact absurd same.symm (silent poll p files)
    · exact delivers.once before poll p files after' earlier
  · rcases snoc_split split with ⟨-, same, -⟩ | ⟨after', earlier, -⟩
    · exact absurd same.symm (silent poll p files)
    · exact delivers.begun before poll p files after' earlier
  · exact delivers.idle poll p fun files mem => none files (List.mem_append_left _ mem)
  · have begun : poll < pollsIn h := by
      rcases List.mem_append.1 mem with earlier | last
      · exact delivers.seen poll p files earlier
      · exact own poll p files (List.mem_singleton.1 last).symm
    rw [pollsIn_append]
    omega

/-- A report or a call does not hide what has been looked at. -/
theorem seen_snoc (delivers : Delivers left h) (other : ∀ poll p files, e ≠ .reached poll p files)
    {files : Workspace} (mem : .reached poll p files ∈ h ++ [e]) : poll < pollsIn (h ++ [e]) := by
  rcases List.mem_append.1 mem with earlier | last
  · have begun := delivers.seen poll p files earlier
    rw [pollsIn_append]
    omega
  · exact absurd (List.mem_singleton.1 last).symm (other poll p files)

/-- A poll that reports a path has to call the registrations for it. -/
theorem report (delivers : Delivers left h) (fresh : ∀ files, .reported poll p files ∉ h)
    (begun : poll < pollsIn h) :
    Delivers (Function.update left (poll, p) (registrationsOf p h))
      (h ++ [.reported poll p files]) := by
  refine ⟨fun before poll' q files' after split => ?_, fun before poll' q c after split => ?_,
    fun before poll' q files' after split => ?_, fun before poll' q files' after split => ?_,
    fun poll' q none => ?_, fun _ _ _ => delivers.seen_snoc fun _ _ _ same => by cases same⟩
  · rcases snoc_split split with ⟨rfl, same, rfl⟩ | ⟨after', earlier, rfl⟩
    · cases same
      rw [Function.update_self]
      rfl
    · have other : (poll', q) ≠ (poll, p) := by
        rintro same
        cases same
        exact fresh files' (earlier ▸ List.mem_append_right _ List.mem_cons_self)
      rw [Function.update_of_ne other, callsBy_append]
      show callsBy poll' q after' ++ [] ++ _ = _
      rw [List.append_nil]
      exact delivers.calls before poll' q files' after' earlier
  · rcases snoc_split split with ⟨-, same, -⟩ | ⟨after', earlier, -⟩
    · cases same
    · exact delivers.told before poll' q c after' earlier
  · rcases snoc_split split with ⟨rfl, same, -⟩ | ⟨after', earlier, -⟩
    · cases same
      exact fresh
    · exact delivers.once before poll' q files' after' earlier
  · rcases snoc_split split with ⟨rfl, same, -⟩ | ⟨after', earlier, -⟩
    · cases same
      exact begun
    · exact delivers.begun before poll' q files' after' earlier
  · have other : (poll', q) ≠ (poll, p) := by
      rintro same
      cases same
      exact none files (List.mem_append_right _ List.mem_cons_self)
    rw [Function.update_of_ne other]
    exact delivers.idle poll' q fun files mem => none files (List.mem_append_left _ mem)

/-- A poll calls the next of the registrations that it has still to call. -/
theorem call {rest : List (Registration κ)} (delivers : Delivers left h)
    (next : left (poll, p) = c :: rest) :
    Delivers (Function.update left (poll, p) rest) (h ++ [.called poll p c]) := by
  have reported : ∃ files, .reported poll p files ∈ h := by
    apply Classical.byContradiction
    intro none
    have idle := delivers.idle poll p fun files mem => none ⟨files, mem⟩
    rw [next] at idle
    cases idle
  refine ⟨fun before poll' q files after split => ?_, fun before poll' q c' after split => ?_,
    fun before poll' q files after split => ?_, fun before poll' q files after split => ?_,
    fun poll' q none => ?_, fun _ _ _ => delivers.seen_snoc fun _ _ _ same => by cases same⟩
  · rcases snoc_split split with ⟨-, same, -⟩ | ⟨after', earlier, rfl⟩
    · cases same
    · have before := delivers.calls before poll' q files after' earlier
      rw [← before, callsBy_append]
      by_cases own : (poll', q) = (poll, p)
      · cases own
        rw [Function.update_self, next]
        simp [callsBy]
      · have apart : ¬ (poll = poll' ∧ p = q) := by
          rintro ⟨rfl, rfl⟩
          exact own rfl
        rw [Function.update_of_ne own]
        simp [callsBy, apart]
  · rcases snoc_split split with ⟨rfl, same, -⟩ | ⟨after', earlier, -⟩
    · cases same
      exact reported
    · exact delivers.told before poll' q c' after' earlier
  · rcases snoc_split split with ⟨-, same, -⟩ | ⟨after', earlier, -⟩
    · cases same
    · exact delivers.once before poll' q files after' earlier
  · rcases snoc_split split with ⟨-, same, -⟩ | ⟨after', earlier, -⟩
    · cases same
    · exact delivers.begun before poll' q files after' earlier
  · have unreported : ∀ files, .reported poll' q files ∉ h := fun files mem =>
      none files (List.mem_append_left _ mem)
    have other : (poll', q) ≠ (poll, p) := by
      rintro same
      cases same
      obtain ⟨files, mem⟩ := reported
      exact unreported files mem
    rw [Function.update_of_ne other]
    exact delivers.idle poll' q unreported

end Delivers

end WatchEvent

namespace Watcher.Recorded

open WatchEvent

variable {left : Nat × Path → List (Registration κ)} {r r' r'' r₀ : Recorded κ ρ} {p : Path}
  {c : Registration κ} {stamp : Option FileStamp} {n : Nat} {e : WatchEvent κ}

/-! ## What one call keeps -/

/-- The watcher is what its history says, and the history leaves open what is `left`. -/
structure Accounted (left : Nat × Path → List (Registration κ)) (r : Recorded κ ρ) : Prop where
  layout : r.watcher.layout = layoutIn r.history
  accepted : ∀ p ∈ watchedIn r.history, IsAccepted p
  numbered : Numbered r.history
  delivers : Delivers left r.history

namespace Accounted

theorem start (new : r.IsNew) : Accounted (fun _ => []) r := by
  obtain ⟨watches, history⟩ := new
  refine ⟨?_, ?_, ?_, ?_⟩
  all_goals
    rw [history]
  · show List.map _ r.watcher.watches = _
    rw [watches]
    rfl
  · intro p mem
    cases mem
  · intro before p c files after split
    simp at split
  · exact .start

theorem congr (acc : Accounted left r)
    (same : (r'.watcher, r'.files, r'.history) = (r.watcher, r.files, r.history)) :
    Accounted left r' := by
  obtain ⟨watcher, both⟩ := Prod.mk.inj same
  obtain ⟨-, history⟩ := Prod.mk.inj both
  obtain ⟨layout, accepted, numbered, delivers⟩ := acc
  exact ⟨by rw [watcher, history, layout], history ▸ accepted, history ▸ numbered,
    history ▸ delivers⟩

theorem paths (acc : Accounted left r) : r.watcher.watches.map (·.path) = watchedIn r.history := by
  have firsts := congrArg (List.map Prod.fst) acc.layout
  rw [Watcher.layout, layoutIn, List.map_map, List.map_map] at firsts
  exact firsts.trans (List.map_id _)

/-- A watch is for a watched path and holds what is known of it. -/
theorem watch_eq (acc : Accounted left r) {x : Watch (Registration κ)}
    (mem : x ∈ r.watcher.watches) : x.path ∈ watchedIn r.history ∧
      x.stamp = stampIn x.path r.history ∧ x.callbacks = registrationsOf x.path r.history := by
  have listed : (x.path, x.stamp, x.callbacks) ∈ r.watcher.layout := List.mem_map_of_mem mem
  rw [acc.layout] at listed
  obtain ⟨q, watched, same⟩ := List.mem_map.1 listed
  obtain ⟨rfl, both⟩ := Prod.mk.inj same
  obtain ⟨stamp, callbacks⟩ := Prod.mk.inj both
  exact ⟨watched, stamp.symm, callbacks.symm⟩

/-- The callbacks of a watch that a poll still finds are the registrations for its path. -/
theorem live_callbacks (acc : Accounted left r) {x now : Watch (Registration κ)}
    (live : WatchOwner.live? r.watcher x = some now) :
    now.callbacks = registrationsOf x.path r.history := by
  have found := (Option.filter_eq_some_iff.1 live).1
  have here : now.path = x.path := by simpa using List.find?_some found
  exact here ▸ (acc.watch_eq (List.mem_of_find?_eq_some found)).2.2

theorem isSome_find? (acc : Accounted left r) :
    (r.watcher.find? p).isSome = true ↔ p ∈ watchedIn r.history := by
  rw [Watcher.isSome_find?, acc.layout, layoutIn, List.any_map, List.any_eq_true]
  constructor
  · rintro ⟨q, mem, same⟩
    exact eq_of_beq same ▸ mem
  · intro mem
    exact ⟨p, mem, beq_self_eq_true p⟩

/-- What is neither a registration nor a report nor a call leaves the account as it is. -/
theorem note (acc : Accounted left r) (neutral : Neutral e)
    (mute : ∀ poll p c, e ≠ .called poll p c)
    (own : ∀ poll p files, e = .reached poll p files → poll < pollsIn r.history)
    (files : Workspace) :
    Accounted left { r with files := files, history := r.history ++ [e] } := by
  refine ⟨?_, ?_, ?_, ?_⟩
  · rw [layoutIn_neutral neutral]
    exact acc.layout
  · rw [watchedIn_neutral neutral]
    exact acc.accepted
  · refine acc.numbered.snoc fun p c files same => ?_
    rw [same] at neutral
    cases neutral
  · refine acc.delivers.note (fun poll p files same => ?_) mute own
    rw [same] at neutral
    cases neutral

theorem look (acc : Accounted left r) (begun : n < pollsIn r.history) (p : Path) :
    Accounted left { r with history := r.history ++ [.reached n p r.files] } := by
  refine acc.note (e := .reached n p r.files) trivial (fun _ _ _ same => by cases same)
    (fun m q files same => ?_) r.files
  cases same
  exact begun

theorem began (acc : Accounted left r) :
    Accounted left { r with history := r.history ++ [.began] } :=
  acc.note (e := .began) trivial (fun _ _ _ same => by cases same)
    (fun _ _ _ same => by cases same) r.files

/-- A callback is registered for a watched path. -/
theorem join (acc : Accounted left r) (watched : p ∈ watchedIn r.history)
    (number : c.number = registrationsIn r.history) : Accounted left { r with
      watcher := r.watcher.addCallback p c
      history := r.history ++ [.registered p c r.files] } := by
  refine ⟨?_, ?_, ?_, ?_⟩
  · rw [layoutIn_joined watched, ← acc.layout]
    exact layout_addCallback r.watcher p c
  · rw [watchedIn_snoc, watchedAfter, if_pos watched]
    exact acc.accepted
  · refine acc.numbered.snoc fun p c files same => ?_
    cases same
    exact number
  · exact acc.delivers.note (fun _ _ _ same => by cases same) (fun _ _ _ same => by cases same)
      fun _ _ _ same => by cases same

/-- A callback is registered for another path. -/
theorem begin (acc : Accounted left r) (free : p ∉ watchedIn r.history)
    (present : r.files.stamp? p = .ok stamp) (number : c.number = registrationsIn r.history) :
    Accounted left { r with
      watcher := r.watcher.begin p stamp c
      history := r.history ++ [.registered p c r.files] } := by
  refine ⟨?_, ?_, ?_, ?_⟩
  · rw [layoutIn_began free present, ← acc.layout]
    exact layout_begin r.watcher p stamp c
  · intro q mem
    rw [watchedIn_snoc, watchedAfter, if_neg free] at mem
    rcases List.mem_append.1 mem with before | new
    · exact acc.accepted q before
    · rw [List.mem_singleton.1 new]
      exact isAccepted_of_stamp? present
  · refine acc.numbered.snoc fun p c files same => ?_
    cases same
    exact number
  · exact acc.delivers.note (fun _ _ _ same => by cases same) (fun _ _ _ same => by cases same)
      fun _ _ _ same => by cases same

theorem clear (acc : Accounted left r) : Accounted left { r with
    watcher := r.watcher.clear, history := r.history ++ [.cleared] } := by
  refine ⟨?_, ?_, ?_, ?_⟩
  · rw [layoutIn_cleared]
    rfl
  · intro p mem
    rw [watchedIn_snoc] at mem
    cases mem
  · exact acc.numbered.snoc fun _ _ _ same => by cases same
  · exact acc.delivers.note (fun _ _ _ same => by cases same) (fun _ _ _ same => by cases same)
      fun _ _ _ same => by cases same

/-- A poll reports a path that it has not reported before, and has to call the registrations. -/
theorem report (acc : Accounted left r) (fresh : ∀ files, .reported n p files ∉ r.history)
    (begun : n < pollsIn r.history) (present : r.files.stamp? p = .ok stamp) :
    Accounted (Function.update left (n, p) (registrationsOf p r.history)) { r with
      watcher := r.watcher.record p stamp
      history := r.history ++ [.reported n p r.files] } := by
  refine ⟨?_, ?_, ?_, ?_⟩
  · rw [layoutIn_reported present, ← acc.layout]
    exact layout_record r.watcher p stamp
  · intro q mem
    rw [watchedIn_snoc] at mem
    exact acc.accepted q mem
  · exact acc.numbered.snoc fun _ _ _ same => by cases same
  · exact acc.delivers.report fresh begun

theorem call (acc : Accounted left r) {rest : List (Registration κ)}
    (next : left (n, p) = c :: rest) :
    Accounted (Function.update left (n, p) rest) { r with
      history := r.history ++ [.called n p c] } := by
  have neutral : Neutral (.called n p c) := trivial
  refine ⟨?_, ?_, ?_, ?_⟩
  · rw [layoutIn_neutral neutral]
    exact acc.layout
  · rw [watchedIn_neutral neutral]
    exact acc.accepted
  · exact acc.numbered.snoc fun _ _ _ same => by cases same
  · exact acc.delivers.call next

end Accounted

/-! ## What operations keep -/

/-- The history goes on, and what is reported from then on is reported by polls that begin from then
on. -/
def Continues (r r' : Recorded κ ρ) : Prop :=
  ∃ more, r'.history = r.history ++ more ∧
    ∀ poll p files, .reported poll p files ∈ more → pollsIn r.history ≤ poll

namespace Continues

theorem refl : Continues r r := ⟨[], (List.append_nil _).symm, fun _ _ _ mem => by cases mem⟩

theorem trans (first : Continues r r') (later : Continues r' r'') : Continues r r'' := by
  obtain ⟨more, split, others⟩ := first
  obtain ⟨more', split', others'⟩ := later
  refine ⟨more ++ more', by rw [split', split, List.append_assoc], fun poll p files mem => ?_⟩
  rcases List.mem_append.1 mem with before | after
  · exact others poll p files before
  · have later := others' poll p files after
    rw [split, pollsIn_append] at later
    omega

theorem of_event (last : r'.history = r.history ++ [e])
    (silent : ∀ poll p files, e ≠ .reported poll p files) : Continues r r' :=
  ⟨[e], last, fun poll p files mem => absurd (List.mem_singleton.1 mem).symm (silent poll p files)⟩

theorem pollsIn_le (continues : Continues r r') : pollsIn r.history ≤ pollsIn r'.history := by
  obtain ⟨more, split, -⟩ := continues
  rw [split, pollsIn_append]
  omega

end Continues

/-- The operation keeps the account, whatever is left to call around it. -/
def KeepsAccount (x : Operation WatchFailure (Recorded κ ρ) β) : Prop :=
  ∀ ⦃left r b r'⦄, Accounted left r → x r = .ok b r' → Accounted left r' ∧ Continues r r'

theorem look_ok {r : Recorded κ ρ} (run : look p r = .ok stamp r') :
    r.files.stamp? p = .ok stamp ∧ r' = r := by
  simp only [look, bind_ok, get_ok, exists_both_eq] at run
  cases read : r.files.stamp? p with
  | ok stamp' =>
    rw [read] at run
    obtain ⟨rfl, rfl⟩ := pure_ok.1 run
    exact ⟨rfl, rfl⟩
  | error e =>
    rw [read] at run
    exact (throw_ok.1 run).elim

theorem look_error {f : WatchFailure} (run : look p r = .error f r') : r' = r := by
  simp only [look, bind_error, get_error, get_ok, exists_both_eq, false_or] at run
  cases read : r.files.stamp? p with
  | ok stamp =>
    rw [read] at run
    exact (pure_error.1 run).elim
  | error cause =>
    rw [read] at run
    exact (throw_error.1 run).2.symm

/-- Registering a callback adds it to the watch of the path, or begins one. -/
theorem watch_registers {callback : κ} {u : Unit} (run : watch p callback r = .ok u r') :
    ∃ c w, c.number = registrationsIn r.history ∧
      r' = { r with watcher := w, history := r.history ++ [.registered p c r.files] } ∧
      ((r.watcher.find? p).isSome = true ∧ w = r.watcher.addCallback p c ∨
        r.watcher.find? p = none ∧ ∃ stamp, r.files.stamp? p = .ok stamp ∧
          w = r.watcher.begin p stamp c) := by
  simp only [watch, note, WatchOwner.watch, bind_ok, get_ok, exists_both_eq, read_ok, modify_ok,
    watches] at run
  obtain ⟨_, t, registered, rfl⟩ := run
  refine ⟨⟨registrationsIn r.history, callback⟩, t.watcher, rfl, ?_⟩
  cases found : r.watcher.find? p with
  | some x =>
    simp only [found, change_ok] at registered
    subst registered
    exact ⟨rfl, .inl ⟨rfl, rfl⟩⟩
  | none =>
    simp only [found, bind_ok, change_ok] at registered
    obtain ⟨stamp, t', looked, rfl⟩ := registered
    obtain ⟨present, rfl⟩ := look_ok looked
    exact ⟨rfl, .inr ⟨rfl, stamp, present, rfl⟩⟩

/-- The watched paths of an accounted watcher are those of its history. -/
theorem watch_ok {callback : κ} {u : Unit} (acc : Accounted left r)
    (run : watch p callback r = .ok u r') :
    ∃ c w, c.number = registrationsIn r.history ∧
      r' = { r with watcher := w, history := r.history ++ [.registered p c r.files] } ∧
      (p ∈ watchedIn r.history ∧ w = r.watcher.addCallback p c ∨
        p ∉ watchedIn r.history ∧ ∃ stamp, r.files.stamp? p = .ok stamp ∧
          w = r.watcher.begin p stamp c) := by
  have watched := acc.isSome_find? (p := p)
  obtain ⟨c, w, number, same, ⟨found, joined⟩ | ⟨free, begun⟩⟩ := watch_registers run
  · exact ⟨c, w, number, same, .inl ⟨watched.1 found, joined⟩⟩
  · rw [free] at watched
    exact ⟨c, w, number, same, .inr ⟨fun mem => Bool.false_ne_true (watched.2 mem), begun⟩⟩

theorem watch_error {callback : κ} {f : WatchFailure} (run : watch p callback r = .error f r') :
    r' = r := by
  simp only [watch, note, WatchOwner.watch, bind_error, get_error, get_ok, exists_both_eq,
    read_error, read_ok, modify_error, watches, false_or, and_false, exists_false, or_false] at run
  cases found : r.watcher.find? p with
  | some x =>
    simp only [found, change_error] at run
  | none =>
    simp only [found, bind_error, change_error, and_false, exists_false, or_false] at run
    exact look_error run

theorem watch_keepsAccount (p : Path) (callback : κ) :
    KeepsAccount (watch p callback : Operation WatchFailure (Recorded κ ρ) Unit) := by
  intro left r u r' acc run
  obtain ⟨c, w, number, rfl, ⟨watched, rfl⟩ | ⟨free, stamp, present, rfl⟩⟩ := watch_ok acc run
  · exact ⟨acc.join watched number, .of_event rfl fun _ _ _ same => by cases same⟩
  · exact ⟨acc.begin free present number, .of_event rfl fun _ _ _ same => by cases same⟩

/-- An operation that fails may leave calls open for good. -/
def LeavesAccount (x : Operation WatchFailure (Recorded κ ρ) β) : Prop :=
  ∀ ⦃left r f r'⦄, Accounted left r → x r = .error f r' → ∃ left', Accounted left' r'

/-! ## Polls -/

section Poll

variable {callback : κ → Path → Operation WatchFailure (Recorded κ ρ) Unit}
  {x now : Watch (Registration κ)} {rest : List (Watch (Registration κ))} {ps : List Path}

/-- Looking at a path in a poll. -/
theorem stamp_ok (run : (owner n callback).stamp p r = .ok stamp r') :
    r.files.stamp? p = .ok stamp ∧
      r' = { r with history := r.history ++ [.reached n p r.files] } := by
  simp only [owner, note, bind_ok, get_ok, exists_both_eq, modify_ok, exists_unit_eq] at run
  exact look_ok run

/-- A poll can look at a path that has a stamp. -/
theorem stamp_of_ok (present : r.files.stamp? p = .ok stamp) :
    (owner n callback).stamp p r =
      .ok stamp { r with history := r.history ++ [.reached n p r.files] } := by
  simp only [owner, note, look, bind_ok, get_ok, exists_both_eq, modify_ok, exists_unit_eq, present]
  exact pure_ok.2 ⟨rfl, rfl⟩

/-- A callback is called. -/
theorem call_eq (c : Registration κ) (p : Path) (r : Recorded κ ρ) : (owner n callback).call c p r =
    callback c.callback p { r with history := r.history ++ [.called n p c] } := rfl

/-- A path has been looked at and reported. -/
def reporting (n : Nat) (p : Path) (stamp : Option FileStamp) (r : Recorded κ ρ) : Recorded κ ρ :=
  { r with
    watcher := r.watcher.record p stamp
    history := r.history ++ [.reached n p r.files] ++ [.reported n p r.files] }

/-- A path whose stamp is the recorded one is passed. -/
theorem pollEach_same (present : r.files.stamp? x.path = .ok x.stamp) :
    (owner n callback).pollEach (x :: rest) r = (owner n callback).pollEach rest
      { r with history := r.history ++ [.reached n x.path r.files] } := by
  rw [WatchOwner.pollEach, bind_of_ok (stamp_of_ok present), if_pos rfl]

/-- So is a path whose watch is over. -/
theorem pollEach_over (present : r.files.stamp? x.path = .ok stamp) (differ : stamp ≠ x.stamp)
    (ended : WatchOwner.live? r.watcher x = none) :
    (owner n callback).pollEach (x :: rest) r = (owner n callback).pollEach rest
      { r with history := r.history ++ [.reached n x.path r.files] } := by
  rw [WatchOwner.pollEach, bind_of_ok (stamp_of_ok present), if_neg differ,
    bind_of_ok (read_ok.2 ⟨rfl, rfl⟩)]
  simp only [owner, watches, ended]

/-- Another path is reported, and its callbacks are called before the poll goes on. -/
theorem pollEach_live (present : r.files.stamp? x.path = .ok stamp) (differ : stamp ≠ x.stamp)
    (live : WatchOwner.live? r.watcher x = some now) :
    (owner n callback).pollEach (x :: rest) r =
      (do
        now.callbacks.forM fun c => (owner n callback).call c x.path
        return x.path :: (← (owner n callback).pollEach rest)) (reporting n x.path stamp r) := by
  rw [WatchOwner.pollEach, bind_of_ok (stamp_of_ok present), if_neg differ,
    bind_of_ok (read_ok.2 ⟨rfl, rfl⟩)]
  have told : noteReport { r with
      watcher := r.watcher.record x.path stamp
      history := r.history ++ [.reached n x.path r.files] } =
        .ok () (reporting n x.path stamp r) := by
    show EStateM.Result.ok () _ = _
    simp only [List.getLast?_concat]
    rfl
  simp only [owner, watches, live]
  rw [bind_of_ok (a := ()) (change_ok.2 rfl), bind_of_ok told]

/-- A poll does what it does with the watches that there are when it begins. -/
theorem poll_eq (callback : κ → Path → Operation WatchFailure (Recorded κ ρ) Unit)
    (r : Recorded κ ρ) : poll callback r =
      (owner (pollsIn r.history) callback).pollEach r.watcher.watches
        { r with history := r.history ++ [.began] } := rfl

/-- A poll that goes through the registrations for a path calls all of them. -/
theorem calls_keepAccount (keeps : ∀ c p, KeepsAccount (callback c p))
    {cs : List (Registration κ)} {u : Unit}
    (acc : Accounted (Function.update left (n, p) cs) r)
    (run : cs.forM (fun c => (owner n callback).call c p) r = .ok u r') :
    Accounted (Function.update left (n, p) []) r' ∧ Continues r r' := by
  induction cs generalizing r with
  | nil =>
    obtain rfl := forM_nil_ok.1 run
    exact ⟨acc, .refl⟩
  | cons c rest ih =>
    obtain ⟨t, first, later⟩ := forM_cons_ok.1 run
    rw [call_eq] at first
    have called := acc.call (Function.update_self (n, p) (c :: rest) left)
    rw [Function.update_idem] at called
    obtain ⟨acc', since⟩ := keeps c.callback p called first
    obtain ⟨done, since'⟩ := ih acc' later
    have noted : Continues r { r with history := r.history ++ [.called n p c] } :=
      .of_event rfl fun _ _ _ same => by cases same
    exact ⟨done, (noted.trans since).trans since'⟩

theorem calls_leaveAccount (keeps : ∀ c p, KeepsAccount (callback c p))
    (fails : ∀ c p, LeavesAccount (callback c p)) {cs : List (Registration κ)} {f : WatchFailure}
    (acc : Accounted (Function.update left (n, p) cs) r)
    (run : cs.forM (fun c => (owner n callback).call c p) r = .error f r') :
    ∃ left', Accounted left' r' := by
  induction cs generalizing r with
  | nil => exact (forM_nil_error.1 run).elim
  | cons c rest ih =>
    have called := acc.call (Function.update_self (n, p) (c :: rest) left)
    rw [Function.update_idem] at called
    rcases forM_cons_error.1 run with first | ⟨t, first, later⟩
    · rw [call_eq] at first
      exact fails c.callback p called first
    · rw [call_eq] at first
      exact ih (keeps c.callback p called first).1 later

/-- A poll that has been begun when the state was `r₀` has yet to come to the watches in `rest`. -/
structure InPoll (left : Nat × Path → List (Registration κ)) (r₀ : Recorded κ ρ)
    (rest : List (Watch (Registration κ))) (r : Recorded κ ρ) : Prop where
  accounted : Accounted left r
  since : Continues r₀ r
  begun : pollsIn r₀.history < pollsIn r.history
  fresh : ∀ x ∈ rest, ∀ files, .reported (pollsIn r₀.history) x.path files ∉ r.history
  distinct : (rest.map (·.path)).Nodup

theorem InPoll.begin (acc : Accounted left r) :
    InPoll left r r.watcher.watches { r with history := r.history ++ [.began] } := by
  refine ⟨acc.began, .of_event rfl (fun _ _ _ same => by cases same), ?_,
    fun x mem files reported => ?_, ?_⟩
  · rw [pollsIn_append]
    exact Nat.lt_succ_self _
  · rcases List.mem_append.1 reported with before | last
    · exact Nat.lt_irrefl _ (acc.delivers.lt_of_reported before)
    · cases List.mem_singleton.1 last
  · rw [acc.paths]
    exact watchedIn_nodup _

/-- A path is looked at, and nothing has changed, or the watch is over. -/
theorem InPoll.pass (inPoll : InPoll left r₀ (x :: rest) r) :
    InPoll left r₀ rest { r with
      history := r.history ++ [.reached (pollsIn r₀.history) x.path r.files] } := by
  obtain ⟨acc, since, begun, fresh, distinct⟩ := inPoll
  refine ⟨acc.look begun _, since.trans (.of_event rfl fun _ _ _ same => by cases same), ?_, ?_,
    (List.nodup_cons.1 distinct).2⟩
  · rw [pollsIn_append]
    omega
  · intro y mem files reported
    rcases List.mem_append.1 reported with before | last
    · exact fresh y (List.mem_cons_of_mem x mem) files before
    · cases List.mem_singleton.1 last

theorem pollsIn_reporting : pollsIn (reporting n p stamp r).history = pollsIn r.history := by
  simp only [reporting, pollsIn_append]
  exact Nat.add_zero _

theorem mem_reporting {q : Path} {files : Workspace} {m : Nat} :
    .reported m q files ∈ (reporting n p stamp r).history ↔
      .reported m q files ∈ r.history ∨ m = n ∧ q = p ∧ files = r.files := by
  simp [reporting]

/-- From the report on, the poll has to call the registrations for the path. -/
theorem Accounted.reporting (acc : Accounted left r)
    (fresh : ∀ files, .reported n p files ∉ r.history) (begun : n < pollsIn r.history)
    (present : r.files.stamp? p = .ok stamp) :
    Accounted (Function.update left (n, p) (registrationsOf p r.history))
      (reporting n p stamp r) := by
  have unreported : ∀ files, .reported n p files ∉ r.history ++ [.reached n p r.files] := by
    intro files mem
    rcases List.mem_append.1 mem with before | last
    · exact fresh files before
    · cases List.mem_singleton.1 last
  have begun' : n < pollsIn (r.history ++ [.reached n p r.files]) := by
    rw [pollsIn_append]
    omega
  have same : registrationsOf p (r.history ++ [.reached n p r.files]) =
      registrationsOf p r.history := registrationsOf_neutral trivial
  exact same ▸ (acc.look begun p).report unreported begun' present

/-- A path is looked at and reported, and the registrations for it are called. -/
theorem InPoll.report (keeps : ∀ c p, KeepsAccount (callback c p))
    (inPoll : InPoll left r₀ (x :: rest) r) (present : r.files.stamp? x.path = .ok stamp) {u : Unit}
    (run : (registrationsOf x.path r.history).forM
      (fun c => (owner (pollsIn r₀.history) callback).call c x.path)
      (reporting (pollsIn r₀.history) x.path stamp r) = .ok u r') : InPoll left r₀ rest r' := by
  obtain ⟨acc, since, begun, fresh, distinct⟩ := inPoll
  have reported := acc.reporting (fresh x List.mem_cons_self) begun present
  obtain ⟨called, later⟩ := calls_keepAccount keeps reported run
  have nothing : left (pollsIn r₀.history, x.path) = [] :=
    acc.delivers.idle _ _ (fresh x List.mem_cons_self)
  rw [← nothing, Function.update_eq_self] at called
  have told : Continues r₀ (Recorded.reporting (pollsIn r₀.history) x.path stamp r) := by
    obtain ⟨more, split, others⟩ := since
    refine ⟨more ++ [.reached (pollsIn r₀.history) x.path r.files] ++
      [.reported (pollsIn r₀.history) x.path r.files], ?_, fun poll q files mem => ?_⟩
    · simp only [Recorded.reporting, split, List.append_assoc]
    · simp only [List.mem_append, List.mem_singleton, reduceCtorEq, or_false] at mem
      rcases mem with before | same
      · exact others poll q files before
      · cases same
        exact Nat.le_refl _
  have still := later.pollsIn_le
  rw [pollsIn_reporting] at still
  refine ⟨called, told.trans later, by omega, fun y mem files known => ?_,
    (List.nodup_cons.1 distinct).2⟩
  obtain ⟨more, split, others⟩ := later
  rw [split] at known
  rcases List.mem_append.1 known with before | after
  · rcases mem_reporting.1 before with older | ⟨-, same, -⟩
    · exact fresh y (List.mem_cons_of_mem x mem) files older
    · exact (List.nodup_cons.1 distinct).1 (List.mem_map.2 ⟨y, mem, same⟩)
  · have late := others _ y.path files after
    rw [pollsIn_reporting] at late
    omega

/-- A poll goes through its watches. -/
theorem pollEach_inPoll (keeps : ∀ c p, KeepsAccount (callback c p))
    (inPoll : InPoll left r₀ rest r)
    (run : (owner (pollsIn r₀.history) callback).pollEach rest r = .ok ps r') :
    InPoll left r₀ [] r' := by
  induction rest generalizing r ps with
  | nil =>
    obtain ⟨-, rfl⟩ := pure_ok.1 run
    exact inPoll
  | cons x rest ih =>
    obtain ⟨stamp, _, looked, -⟩ := bind_ok.1 run
    have present := (stamp_ok looked).1
    by_cases same : stamp = x.stamp
    · subst same
      rw [pollEach_same present] at run
      exact ih inPoll.pass run
    cases live : WatchOwner.live? r.watcher x with
    | none =>
      rw [pollEach_over present same live] at run
      exact ih inPoll.pass run
    | some now =>
      rw [pollEach_live present same live, inPoll.accounted.live_callbacks live] at run
      obtain ⟨_, t, called, run⟩ := bind_ok.1 run
      obtain ⟨ps', t', later, answered⟩ := bind_ok.1 run
      obtain ⟨-, rfl⟩ := pure_ok.1 answered
      exact ih (inPoll.report keeps present called) later

/-- A poll fails before one of its watches, or in a callback. -/
theorem pollEach_leavesAccount (keeps : ∀ c p, KeepsAccount (callback c p))
    (fails : ∀ c p, LeavesAccount (callback c p)) {f : WatchFailure}
    (inPoll : InPoll left r₀ rest r)
    (run : (owner (pollsIn r₀.history) callback).pollEach rest r = .error f r') :
    ∃ left', Accounted left' r' := by
  induction rest generalizing r with
  | nil => exact (pure_error.1 run).elim
  | cons x rest ih =>
    rcases bind_error.1 run with failed | ⟨stamp, _, looked, -⟩
    · simp only [owner, note, bind_error, get_error, get_ok, exists_both_eq, modify_error,
        modify_ok, exists_unit_eq, false_or] at failed
      obtain rfl := look_error failed
      exact ⟨left, inPoll.accounted.look inPoll.begun _⟩
    have present := (stamp_ok looked).1
    by_cases same : stamp = x.stamp
    · subst same
      rw [pollEach_same present] at run
      exact ih inPoll.pass run
    cases live : WatchOwner.live? r.watcher x with
    | none =>
      rw [pollEach_over present same live] at run
      exact ih inPoll.pass run
    | some now =>
      rw [pollEach_live present same live, inPoll.accounted.live_callbacks live] at run
      rcases bind_error.1 run with called | ⟨_, t, called, run⟩
      · have fresh := inPoll.fresh x List.mem_cons_self
        exact calls_leaveAccount keeps fails
          (inPoll.accounted.reporting fresh inPoll.begun present) called
      rcases bind_error.1 run with later | ⟨_, _, -, answered⟩
      · exact ih (inPoll.report keeps present called) later
      · exact (pure_error.1 answered).elim

end Poll

/-! ## Programs -/

theorem Program.keepsAccount {free : Prop} {x : Operation WatchFailure (Recorded κ ρ) β}
    (program : Program free x) : KeepsAccount x := by
  induction program with
  | elsewhere keeps =>
    intro left r b r' acc run
    have same := keeps.ok run
    refine ⟨acc.congr same, [], ?_, fun _ _ _ mem => by cases mem⟩
    rw [List.append_nil]
    exact congrArg (·.2.2) same
  | bind _ _ first later =>
    intro left r c r' acc run
    obtain ⟨b, r₁, run₁, run₂⟩ := bind_ok.1 run
    obtain ⟨acc₁, since₁⟩ := first acc run₁
    obtain ⟨acc₂, since₂⟩ := later b acc₁ run₂
    exact ⟨acc₂, since₁.trans since₂⟩
  | watch p callback => exact watch_keepsAccount p callback
  | change files =>
    intro left r u r' acc run
    obtain rfl := modify_ok.1 run
    exact ⟨acc.note (e := .changed r.files (files r)) trivial (fun _ _ _ same => by cases same)
        (fun _ _ _ same => by cases same) _,
      .of_event rfl fun _ _ _ same => by cases same⟩
  | clear _ =>
    intro left r u r' acc run
    simp only [Recorded.clear, note, bind_ok, change_ok, exists_unit_eq, modify_ok] at run
    obtain rfl := run
    exact ⟨acc.clear, .of_event rfl fun _ _ _ same => by cases same⟩
  | poll _ _ callbacks =>
    intro left r ps r' acc run
    rw [poll_eq] at run
    have inPoll := pollEach_inPoll callbacks (.begin acc) run
    exact ⟨inPoll.accounted, inPoll.since⟩

theorem Program.leavesAccount {free : Prop} {x : Operation WatchFailure (Recorded κ ρ) β}
    (program : Program free x) : LeavesAccount x := by
  induction program with
  | elsewhere keeps =>
    intro left r f r' acc run
    exact ⟨left, acc.congr (keeps.error run)⟩
  | bind first _ ih later =>
    intro left r f r' acc run
    rcases bind_error.1 run with failed | ⟨b, r₁, run₁, failed⟩
    · exact ih acc failed
    · exact later b (first.keepsAccount acc run₁).1 failed
  | watch p callback =>
    intro left r f r' acc run
    exact ⟨left, watch_error run ▸ acc⟩
  | change files =>
    intro left r f r' acc run
    exact (modify_error.1 run).elim
  | clear _ =>
    intro left r f r' acc run
    simp [Recorded.clear, note] at run
  | poll _ callbacks fails =>
    intro left r f r' acc run
    rw [poll_eq] at run
    exact pollEach_leavesAccount (fun c p => (callbacks c p).keepsAccount) fails (.begin acc) run

/-- The states that programs come to one after the other, whether they succeed or fail. -/
inductive Attained (r₀ : Recorded κ ρ) : Recorded κ ρ → Prop where
  | start : Attained r₀ r₀
  | next {r : Recorded κ ρ} {β : Type} {x : Operation WatchFailure (Recorded κ ρ) β}
    (attained : Attained r₀ r) (program : Program True x) : Attained r₀ (leaves x r)

theorem Attained.accounted (new : r₀.IsNew) (attained : Attained r₀ r) :
    ∃ left, Accounted left r := by
  induction attained with
  | start => exact ⟨_, .start new⟩
  | @next r _ x _ program ih =>
    obtain ⟨left, acc⟩ := ih
    cases run : x r with
    | ok b r' =>
      rw [leaves_ok run]
      exact ⟨left, (program.keepsAccount acc run).1⟩
    | error f r' =>
      rw [leaves_error run]
      exact program.leavesAccount acc run

end Watcher.Recorded
end MessageLens
