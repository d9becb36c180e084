import MessageLens.Proofs.Watch.Deliveries

/-!
# Callbacks that are called after the watcher has been cleared

Clearing a watcher forgets its watches, and a poll in progress passes over those that it has yet to
come to. But a poll that has come to a path goes through all the registrations that it has found
there, also if one of their callbacks clears the watcher. These are the only ones that are still
called: each registration that such a poll has yet to come to is called once, and no later poll
calls any.
-/

namespace MessageLens
set_option autoImplicit false

open Operation

variable {κ ρ β : Type}

namespace WatchEvent

variable {h before after : List (WatchEvent κ)} {p q : Path} {c : Registration κ}
  {files : Workspace} {poll : Nat}

/-- A poll has reported a path while the callback was registered for it, and has not called the
callback yet. -/
def Due (poll : Nat) (p : Path) (c : Registration κ) (h : List (WatchEvent κ)) : Prop :=
  ∃ before files after, h = before ++ .reported poll p files :: after ∧
    c ∈ registrationsOf p before ∧ .called poll p c ∉ after

/-- What is registered when the watcher has been cleared has been registered since. -/
theorem Numbered.not_mem_of_cleared (numbered : Numbered (before ++ .cleared :: after))
    (registered : .registered q c files ∈ before) :
    c ∉ registrationsOf p (before ++ .cleared :: after) := by
  intro mem
  rw [registrationsOf_cleared] at mem
  obtain ⟨files', known⟩ := mem_of_registrationsOf mem
  obtain ⟨first, rest, rfl⟩ := List.append_of_mem known
  have number := numbered (before ++ .cleared :: first) p c files' rest (by simp)
  have older := numbered.of_append.lt registered
  rw [registrationsIn_append] at number
  omega

namespace Delivers

variable {left : Nat × Path → List (Registration κ)}

/-- A poll calls no registration for a path twice. -/
theorem callsBy_nodup (delivers : Delivers left h) (numbered : Numbered h) (poll : Nat) (p : Path) :
    (callsBy poll p h).Nodup := by
  by_cases reported : ∃ files, .reported poll p files ∈ h
  · obtain ⟨files, mem⟩ := reported
    obtain ⟨before, after, split⟩ := List.append_of_mem mem
    have calls := delivers.calls before poll p files after split
    have nodup := (split ▸ numbered).of_append.registrationsOf_nodup p
    rw [← calls] at nodup
    rw [delivers.callsBy_eq split]
    exact nodup.sublist (List.sublist_append_left _ _)
  · rw [delivers.callsBy_eq_nil fun files mem => reported ⟨files, mem⟩]
    exact List.nodup_nil

/-- What a poll calls for a path had been registered when it reported the path. -/
theorem registered_of_called (delivers : Delivers left h)
    (split : h = before ++ .reported poll p files :: after) (called : .called poll p c ∈ after) :
    c ∈ registrationsOf p before := by
  rw [← delivers.calls before poll p files after split]
  exact List.mem_append_left _ (mem_callsBy.2 called)

/-- What a poll calls was due at any time since it reported the path. -/
theorem due_of_reported (delivers : Delivers left h) (numbered : Numbered h)
    (split : h = before ++ after) (reported : .reported poll p files ∈ before)
    (called : .called poll p c ∈ after) : Due poll p c before := by
  have nodup := delivers.callsBy_nodup numbered poll p
  rw [split, callsBy_append] at nodup
  obtain ⟨b, a, rfl⟩ := List.append_of_mem reported
  rw [List.append_assoc, List.cons_append] at split
  have known := delivers.registered_of_called split (List.mem_append_right a called)
  refine ⟨b, files, a, rfl, known, fun already => ?_⟩
  have twice := (List.nodup_append.1 nodup).2.2 c (mem_callsBy.2 ?_) c (mem_callsBy.2 called)
  · exact twice rfl
  · exact List.mem_append_right b (List.mem_cons_of_mem _ already)

/-- What is called although it has been registered before the watcher was cleared was due then. -/
theorem due_of_called (delivers : Delivers left h) (numbered : Numbered h)
    (split : h = before ++ .cleared :: after) (registered : .registered q c files ∈ before)
    (called : .called poll p c ∈ after) : Due poll p c before := by
  subst split
  obtain ⟨first, rest, rfl⟩ := List.append_of_mem called
  obtain ⟨files', reported⟩ :=
    delivers.told (before ++ .cleared :: first) poll p c rest (by simp)
  rcases List.mem_append.1 reported with earlier | later
  · exact delivers.due_of_reported numbered rfl earlier (List.mem_cons_of_mem _ called)
  · -- A path reported since then is called for what has been registered since then.
    obtain ⟨b, a, rfl⟩ := List.append_of_mem ((List.mem_cons.1 later).resolve_left nofun)
    have split : before ++ .cleared ::
          (b ++ .reported poll p files' :: a ++ .called poll p c :: rest) =
        before ++ .cleared :: b ++ .reported poll p files' :: (a ++ .called poll p c :: rest) := by
      simp
    have known := delivers.registered_of_called split (List.mem_append_right a List.mem_cons_self)
    exact absurd known (Numbered.not_mem_of_cleared (split ▸ numbered).of_append registered)

/-- What is due is called, unless the poll fails. -/
theorem called_of_due (delivers : Delivers (fun _ => []) h)
    (split : h = before ++ .cleared :: after) (due : Due poll p c before) :
    .called poll p c ∈ after := by
  obtain ⟨b, files, a, rfl, known, uncalled⟩ := due
  have calls := delivers.calls b poll p files (a ++ .cleared :: after) (by simp [split])
  rw [← calls, List.append_nil, callsBy_append] at known
  rcases List.mem_append.1 known with already | later
  · exact absurd (mem_callsBy.1 already) uncalled
  · exact (List.mem_cons.1 (mem_callsBy.1 later)).resolve_left nofun

end Delivers

end WatchEvent

namespace Watcher.Recorded

open WatchEvent

variable {r₀ r : Recorded κ ρ} {before after : List (WatchEvent κ)} {q : Path}
  {c : Registration κ} {files : Workspace}

/-- After the watcher has been cleared, a poll calls a callback that was registered before only if
the poll had reported the path and not called the callback yet; then it calls it once, unless
another callback fails, and polls that begin later do not call it at all. -/
theorem called_after_clear (new : r₀.IsNew) (attained : Attained r₀ r)
    (split : r.history = before ++ .cleared :: after)
    (registered : .registered q c files ∈ before) (poll : Nat) (p : Path) :
    (.called poll p c ∈ after → Due poll p c before ∧ poll < pollsIn before) ∧
    (callsBy poll p after).Nodup ∧
    ∀ (β : Type) (x : Operation WatchFailure (Recorded κ ρ) β) (b : β), Program True x →
      x r₀ = .ok b r → Due poll p c before → .called poll p c ∈ after := by
  obtain ⟨left, acc⟩ := attained.accounted new
  refine ⟨fun called => ?_, ?_, fun β x b program run due => ?_⟩
  · have due := acc.delivers.due_of_called acc.numbered split registered called
    refine ⟨due, ?_⟩
    obtain ⟨b, files', a, rfl, -⟩ := due
    have begun := acc.delivers.begun b poll p files' (a ++ .cleared :: after) (by simp [split])
    rw [pollsIn_append]
    omega
  · have nodup := acc.delivers.callsBy_nodup acc.numbered poll p
    rw [split, callsBy_append] at nodup
    exact (List.nodup_append.1 nodup).2.1
  · have delivers := (program.keepsAccount (.start new) run).1.delivers
    exact delivers.called_of_due split due

/-- A file that is watched by two callbacks, of which the first clears the watcher and registers a
third one. -/
def watchedFile : Path := ⟨.root, ["a"]⟩

/-- The callbacks of that file. -/
def clearFirst (callback : Nat) (_ : Path) :
    Operation WatchFailure (Recorded Nat Unit) Unit :=
  if callback = 0 then do
    clear
    watch watchedFile 2
  else pure ()

/-- The file is written, and the watcher polls, twice. -/
def clearing : Operation WatchFailure (Recorded Nat Unit) Unit := do
  watch watchedFile 0
  watch watchedFile 1
  change (written watchedFile [0])
  let _ ← poll clearFirst
  change (written watchedFile [0])
  let _ ← poll clearFirst

theorem clearFirst_program (callback : Nat) (p : Path) : Program True (clearFirst callback p) := by
  unfold clearFirst
  split
  · exact .bind (.clear trivial) fun _ => .watch _ _
  · exact .elsewhere (.pure ())

theorem clearing_program : Program True clearing := by
  refine .bind (.watch _ _) fun _ => .bind (.watch _ _) fun _ => .bind (.change _) fun _ => ?_
  refine .bind (.poll trivial clearFirst_program) fun _ => .bind (.change _) fun _ => ?_
  exact .bind (.poll trivial clearFirst_program) fun _ => .elsewhere (.pure ())

/-- The second callback is called once more, by the poll in which the first one clears the watcher,
and not by the poll after that. -/
theorem called_after_clear_second : ∃ r, clearing { files := {}, rest := () } = .ok () r ∧
    r.history = r.history.take 7 ++ .cleared :: r.history.drop 8 ∧
    .registered watchedFile ⟨1, 1⟩ {} ∈ r.history.take 7 ∧
    .called 0 watchedFile ⟨1, 1⟩ ∈ r.history.drop 8 ∧
    Due 0 watchedFile ⟨1, 1⟩ (r.history.take 7) ∧
    (callsBy 0 watchedFile (r.history.drop 8)).Nodup ∧
    .called 1 watchedFile ⟨1, 1⟩ ∉ r.history.drop 8 := by
  have evaluated : succeedsWith (fun _ r =>
      r.history = r.history.take 7 ++ .cleared :: r.history.drop 8 ∧
      .registered watchedFile ⟨1, 1⟩ {} ∈ r.history.take 7 ∧
      .called 0 watchedFile ⟨1, 1⟩ ∈ r.history.drop 8 ∧ pollsIn (r.history.take 7) = 1)
      clearing { files := {}, rest := () } = true := by decide +kernel
  obtain ⟨⟨⟩, r, run, seen⟩ := ok_of_succeedsWith evaluated
  obtain ⟨split, registered, called, polls⟩ := of_decide_eq_true seen
  have attained : Attained { files := {}, rest := () } r :=
    leaves_ok run ▸ .next .start clearing_program
  have all := called_after_clear ⟨rfl, rfl⟩ attained split registered
  refine ⟨r, run, split, registered, called, ((all 0 watchedFile).1 called).1,
    (all 0 watchedFile).2.1, fun later => ?_⟩
  have early := ((all 1 watchedFile).1 later).2
  omega

end Watcher.Recorded

namespace WatchBench

/-- On a file with two callbacks, of which the first clears the watcher, the second is called after
that, although nothing is watched any more. -/
theorem calls_cleared_callback : succeedsWith
    (fun _ b =>
      b.runs = [(2, ⟨.root, ["a.json"]⟩), (1, ⟨.root, ["a.json"]⟩)] ∧ b.watcher.paths = [])
    (List.forM [.watch ⟨.root, ["a.json"]⟩ 1 [.clear], .watch ⟨.root, ["a.json"]⟩ 2 [],
        .change (.write ⟨.root, ["a.json"]⟩ "\x7b \x7d".toUTF8.toList none), .poll]
      fun action => discard (perform action))
    { workspace := { disk := ⟨[(["a.json"], .file "\x7b\x7d".toUTF8.toList 0)]⟩ } } = true := by
  decide +kernel

end WatchBench
end MessageLens
