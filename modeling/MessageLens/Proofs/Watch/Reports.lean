import MessageLens.Proofs.Watch.Deliveries

/-!
# What a poll reports

Callbacks that write files and register more callbacks, but neither clear the watcher nor poll it,
take no watch away and change no stamp that is recorded. So a poll comes to every path that was
watched when it began, each once and in the order of their registrations. It reports the ones whose
stamps are not the known ones by then, and it calls whoever was registered by then. A change that is
made during the poll is seen by it if the poll has yet to come to the path, and by the next one
otherwise, and so by exactly one of them.
-/

namespace MessageLens
set_option autoImplicit false

open Operation

variable {κ ρ β : Type}

namespace WatchEvent

variable {h more : List (WatchEvent κ)} {e : WatchEvent κ} {since n : Nat} {p : Path}
  {ps : List Path} {files : Workspace}

/-- The event is one of a callback that neither clears the watcher nor polls it, or the call of such
a one. -/
def Calm : WatchEvent κ → Prop
  | registered .. | changed .. | called .. => True
  | cleared | began | reached .. | reported .. => False

/-- The event does not change the stamps of the paths. -/
def Spares (ps : List Path) : WatchEvent κ → Prop
  | changed files files' => ∀ p ∈ ps, files'.stamp? p = files.stamp? p
  | _ => True

instance (ps : List Path) (e : WatchEvent κ) : Decidable (Spares ps e) :=
  match e with
  | changed files files' =>
    inferInstanceAs (Decidable (∀ p ∈ ps, files'.stamp? p = files.stamp? p))
  | registered .. | cleared | began | reached .. | reported .. | called .. => isTrue trivial

/-- No change of files since the history had that length shows in the stamp of a path that was
watched at the time. -/
def Harmless (since : Nat) (h : List (WatchEvent κ)) : Prop :=
  ∀ before e after, h = before ++ e :: after → since ≤ before.length → Spares (watchedIn before) e

theorem Harmless.of_append (harmless : Harmless since (h ++ more)) : Harmless since h := by
  intro before e after split
  refine harmless before e (after ++ more) ?_
  rw [split, List.append_assoc, List.cons_append]

/-- The same, event by event. -/
theorem harmless_iff : Harmless since h ↔
    ∀ i (less : i < h.length), since ≤ i → Spares (watchedIn (h.take i)) h[i] := by
  constructor
  · intro harmless i less late
    refine harmless (h.take i) h[i] (h.drop (i + 1)) ?_ ?_
    · rw [← List.drop_eq_getElem_cons less, List.take_append_drop]
    · rw [List.length_take]
      omega
  · intro every before e after split late
    subst split
    have here := every before.length (by simp) late
    rw [List.take_left, List.getElem_append_right (Nat.le_refl _)] at here
    simpa only [Nat.sub_self, List.getElem_cons_zero] using here

instance (since : Nat) (h : List (WatchEvent κ)) : Decidable (Harmless since h) :=
  decidable_of_iff _ harmless_iff.symm

theorem Harmless.mono {later : Nat} (harmless : Harmless since h) (le : since ≤ later) :
    Harmless later h := fun before e after split long =>
  harmless before e after split (Nat.le_trans le long)

theorem reachedBy_calm {poll : Nat} (calm : ∀ e ∈ h, Calm e) : reachedBy poll h = [] := by
  apply List.filterMap_eq_nil_iff.2
  intro e mem
  cases e with
  | reached => cases calm _ mem
  | _ => rfl

/-- What a poll has made of the paths that it has come to: it has reported those whose stamps were
not the known ones. -/
structure Judged (n : Nat) (ps : List Path) (h : List (WatchEvent κ)) : Prop where
  compared : ∀ before p files after, h = before ++ .reached n p files :: after →
    ∃ known, known? p before = some known ∧ (p ∈ ps ↔ files.stamp? p ≠ known.stamp? p)
  told : ∀ before p files after, h = before ++ .reached n p files :: after → p ∈ ps →
    ∃ after', after = .reported n p files :: after'
  silent : ∀ p files, .reported n p files ∈ h → p ∈ ps

namespace Judged

theorem begin (unreached : ∀ p files, .reached n p files ∉ h)
    (unreported : ∀ p files, .reported n p files ∉ h) : Judged n [] h where
  compared before p files after split := absurd (split ▸ by simp) (unreached p files)
  told before p files after split := absurd (split ▸ by simp) (unreached p files)
  silent p files mem := absurd mem (unreported p files)

/-- What calm callbacks do is no concern of the poll that calls them. -/
theorem calm (judged : Judged n ps h) (calm : ∀ e ∈ more, Calm e) : Judged n ps (h ++ more) := by
  have earlier {before : List (WatchEvent κ)} {p : Path} {files : Workspace}
      {after : List (WatchEvent κ)} (split : h ++ more = before ++ .reached n p files :: after) :
      ∃ rest, h = before ++ .reached n p files :: rest ∧ after = rest ++ more := by
    rcases append_split split with known | ⟨first, -, late⟩
    · exact known
    · cases calm _ (late ▸ List.mem_append_right _ List.mem_cons_self)
  refine ⟨fun before p files after split => ?_, fun before p files after split mem => ?_,
    fun p files mem => ?_⟩
  · obtain ⟨rest, known, -⟩ := earlier split
    exact judged.compared before p files rest known
  · obtain ⟨rest, known, rfl⟩ := earlier split
    obtain ⟨after', rfl⟩ := judged.told before p files rest known mem
    exact ⟨after' ++ more, rfl⟩
  · rcases List.mem_append.1 mem with before | late
    · exact judged.silent p files before
    · cases calm _ late

/-- The poll comes to a path whose stamp is the known one. -/
theorem pass (judged : Judged n ps h) (unreported : p ∉ ps) {known : Workspace}
    (isKnown : known? p h = some known) (same : files.stamp? p = known.stamp? p) :
    Judged n ps (h ++ [.reached n p files]) := by
  refine ⟨fun before q files' after split => ?_, fun before q files' after split mem => ?_,
    fun q files' mem => ?_⟩
  · rcases snoc_split split with ⟨rfl, here, -⟩ | ⟨after', earlier, -⟩
    · cases here
      exact ⟨known, isKnown, iff_of_false unreported (not_not_intro same)⟩
    · exact judged.compared before q files' after' earlier
  · rcases snoc_split split with ⟨rfl, here, -⟩ | ⟨after', earlier, rfl⟩
    · cases here
      exact absurd mem unreported
    · obtain ⟨rest, rfl⟩ := judged.told before q files' after' earlier mem
      exact ⟨rest ++ [.reached n p files], rfl⟩
  · rcases List.mem_append.1 mem with before | last
    · exact judged.silent q files' before
    · cases List.mem_singleton.1 last

/-- The poll comes to a path whose stamp is not the known one, and reports it. -/
theorem report (judged : Judged n ps h) (first : p ∉ reachedBy n h) {known : Workspace}
    (isKnown : known? p h = some known) (differ : files.stamp? p ≠ known.stamp? p) :
    Judged n (ps ++ [p]) (h ++ [.reached n p files] ++ [.reported n p files]) := by
  have other {before : List (WatchEvent κ)} {q : Path} {files' : Workspace}
      {after : List (WatchEvent κ)} (split : h = before ++ .reached n q files' :: after) :
      q ≠ p := fun same => first (same ▸ mem_reachedBy.2 ⟨files', split ▸ by simp⟩)
  refine ⟨fun before q files' after split => ?_, fun before q files' after split mem => ?_,
    fun q files' mem => ?_⟩
  · rcases snoc_split split with ⟨-, here, -⟩ | ⟨after', earlier, -⟩
    · cases here
    rcases snoc_split earlier with ⟨rfl, here, -⟩ | ⟨after'', earliest, -⟩
    · cases here
      exact ⟨known, isKnown, iff_of_true (by simp) differ⟩
    · obtain ⟨known', isKnown', compared⟩ := judged.compared before q files' after'' earliest
      refine ⟨known', isKnown', ?_⟩
      simpa [other earliest] using compared
  · rcases snoc_split split with ⟨-, here, -⟩ | ⟨after', earlier, rfl⟩
    · cases here
    rcases snoc_split earlier with ⟨rfl, here, rfl⟩ | ⟨after'', earliest, rfl⟩
    · cases here
      exact ⟨[], rfl⟩
    · have before : q ∈ ps := by simpa [other earliest] using mem
      obtain ⟨rest, rfl⟩ := judged.told _ q files' after'' earliest before
      exact ⟨rest ++ [.reached n p files] ++ [.reported n p files], rfl⟩
  · rcases List.mem_append.1 mem with before | last
    · rcases List.mem_append.1 before with older | reached
      · exact List.mem_append_left _ (judged.silent q files' older)
      · cases List.mem_singleton.1 reached
    · cases List.mem_singleton.1 last
      simp

end Judged
end WatchEvent

namespace Watcher.Recorded

open WatchEvent

variable {left : Nat × Path → List (Registration κ)} {r r' r'' r₀ : Recorded κ ρ} {p : Path}
  {stamp : Option FileStamp} {n : Nat} {paths : List Path}

/-! ## What calm callbacks leave alone -/

/-- The watches, apart from those of some paths, hold the present stamps. -/
def Current (paths : List Path) (r : Recorded κ ρ) : Prop :=
  ∀ x ∈ r.watcher.watches, x.path ∈ paths ∨ r.files.stamp? x.path = .ok x.stamp

/-- A watch is still there, and its stamp is still the recorded one. -/
def Holds (x : Watch (Registration κ)) (r : Recorded κ ρ) : Prop :=
  ∃ y ∈ r.watcher.watches, y.path = x.path ∧ y.stamp = x.stamp ∧ y.registration = x.registration

/-- What is so after calm callbacks. -/
structure Grows (r r' : Recorded κ ρ) : Prop where
  history : ∃ more, r'.history = r.history ++ more ∧ ∀ e ∈ more, Calm e
  holds : ∀ x, Holds x r → Holds x r'
  current : ∀ paths, Harmless r.history.length r'.history → Current paths r → Current paths r'

namespace Grows

theorem of_same (same : (r'.watcher, r'.files, r'.history) = (r.watcher, r.files, r.history)) :
    Grows r r' := by
  obtain ⟨watcher, both⟩ := Prod.mk.inj same
  obtain ⟨files, history⟩ := Prod.mk.inj both
  refine ⟨⟨[], by rw [history, List.append_nil], nofun⟩, fun x holds => ?_,
    fun paths _ current => ?_⟩
  · unfold Holds
    rwa [watcher]
  · unfold Current
    rwa [watcher, files]

theorem trans (first : Grows r r') (later : Grows r' r'') : Grows r r'' := by
  obtain ⟨more, split, calm⟩ := first.history
  obtain ⟨more', split', calm'⟩ := later.history
  refine ⟨⟨more ++ more', by rw [split', split, List.append_assoc], fun e mem => ?_⟩,
    fun x holds => later.holds x (first.holds x holds), fun paths harmless current => ?_⟩
  · rcases List.mem_append.1 mem with before | after
    · exact calm e before
    · exact calm' e after
  · have longer : r.history.length ≤ r'.history.length := by
      rw [split, List.length_append]
      omega
    have early : Harmless r.history.length r'.history := (split' ▸ harmless).of_append
    exact later.current paths (harmless.mono longer) (first.current paths early current)

/-- A callback is called. -/
theorem called {c : Registration κ} :
    Grows r { r with history := r.history ++ [.called n p c] } := by
  refine ⟨⟨[.called n p c], rfl, fun e mem => ?_⟩, fun _ holds => holds, fun _ _ current => current⟩
  rw [List.mem_singleton.1 mem]
  trivial

/-- A callback is registered for a watched path. -/
theorem join {c : Registration κ} : Grows r { r with
    watcher := r.watcher.addCallback p c
    history := r.history ++ [.registered p c r.files] } := by
  refine ⟨⟨[.registered p c r.files], rfl, fun e mem => ?_⟩, fun x holds => ?_,
    fun paths _ current x mem => ?_⟩
  · rw [List.mem_singleton.1 mem]
    trivial
  · obtain ⟨y, mem, path, stamp, number⟩ := holds
    refine ⟨_, mem_addCallback.2 ⟨y, mem, rfl⟩, ?_⟩
    split <;> exact ⟨path, stamp, number⟩
  · obtain ⟨y, before, rfl⟩ := mem_addCallback.1 mem
    split <;> exact current y before

/-- A callback is registered for another path. -/
theorem begin {c : Registration κ} (present : r.files.stamp? p = .ok stamp) : Grows r { r with
    watcher := r.watcher.begin p stamp c
    history := r.history ++ [.registered p c r.files] } := by
  refine ⟨⟨[.registered p c r.files], rfl, fun e mem => ?_⟩, fun x holds => ?_,
    fun paths _ current x mem => ?_⟩
  · rw [List.mem_singleton.1 mem]
    trivial
  · obtain ⟨y, mem, kept⟩ := holds
    exact ⟨y, mem_begin.2 (.inl mem), kept⟩
  · rcases mem_begin.1 mem with before | rfl
    · exact current x before
    · exact .inr present

/-- Files are changed. -/
theorem change (acc : Accounted left r) (files : Workspace) : Grows r { r with
    files := files, history := r.history ++ [.changed r.files files] } := by
  refine ⟨⟨[.changed r.files files], rfl, fun e mem => ?_⟩, fun _ holds => holds,
    fun paths harmless current x mem => ?_⟩
  · rw [List.mem_singleton.1 mem]
    trivial
  · refine (current x mem).imp_right fun present => ?_
    have same := harmless r.history (.changed r.files files) [] rfl (Nat.le_refl _) x.path
      (acc.watch_eq mem).1
    exact same.trans present

end Grows

/-- A callback that neither clears the watcher nor polls it leaves the watches in place. -/
theorem Program.grows {x : Operation WatchFailure (Recorded κ ρ) β} (program : Program False x)
    {b : β} (acc : Accounted left r) (run : x r = .ok b r') : Grows r r' := by
  induction program generalizing r r' with
  | elsewhere keeps => exact .of_same (keeps.ok run)
  | bind first _ ih later =>
    obtain ⟨b, r₁, run₁, run₂⟩ := bind_ok.1 run
    exact (ih acc run₁).trans (later b (first.keepsAccount acc run₁).1 run₂)
  | watch p callback =>
    obtain ⟨c, w, -, rfl, ⟨-, rfl⟩ | ⟨-, stamp, present, rfl⟩⟩ := watch_ok acc run
    · exact .join
    · exact .begin present
  | change files =>
    obtain rfl := modify_ok.1 run
    exact .change acc (files r)
  | clear may => exact may.elim
  | poll may => exact may.elim

/-! ## Polls with calm callbacks -/

section Poll

variable {callback : κ → Path → Operation WatchFailure (Recorded κ ρ) Unit}
  {x : Watch (Registration κ)} {rest : List (Watch (Registration κ))} {ps seen : List Path}

theorem calls_grow (calm : ∀ c p, Program False (callback c p)) {cs : List (Registration κ)}
    {u : Unit} (acc : Accounted (Function.update left (n, p) cs) r)
    (run : cs.forM (fun c => (owner n callback).call c p) r = .ok u r') : Grows r r' := by
  induction cs generalizing r with
  | nil =>
    obtain rfl := forM_nil_ok.1 run
    exact .of_same rfl
  | cons c rest ih =>
    obtain ⟨t, first, later⟩ := forM_cons_ok.1 run
    rw [call_eq] at first
    have called := acc.call (Function.update_self (n, p) (c :: rest) left)
    rw [Function.update_idem] at called
    have grown := (calm c.callback p).grows called first
    exact (Grows.called.trans grown).trans
      (ih ((calm c.callback p).keepsAccount called first).1 later)

/-- A callback that fails has just been called. -/
theorem calls_fail {cs : List (Registration κ)} {f : WatchFailure}
    (run : cs.forM (fun c => (owner n callback).call c p) r = .error f r') :
    ∃ c t, .called n p c ∈ t.history ∧ callback c.callback p t = .error f r' := by
  induction cs generalizing r with
  | nil => exact (forM_nil_error.1 run).elim
  | cons c rest ih =>
    rcases forM_cons_error.1 run with failed | ⟨t, -, later⟩
    · rw [call_eq] at failed
      exact ⟨c, _, List.mem_append_right _ List.mem_cons_self, failed⟩
    · exact ih later

/-- What is known of a watched path is what its watch has recorded. -/
theorem Accounted.known (acc : Accounted left r) (mem : x ∈ r.watcher.watches) :
    ∃ known, known? x.path r.history = some known ∧ known.stamp? x.path = .ok x.stamp := by
  obtain ⟨watched, stamp, -⟩ := acc.watch_eq mem
  obtain ⟨known, isKnown⟩ := Option.isSome_iff_exists.1 (isSome_known?.2 watched)
  obtain ⟨stamp', read⟩ := stamp?_ok known (acc.accepted x.path watched)
  refine ⟨known, isKnown, ?_⟩
  rw [stamp, stampIn, isKnown, read, Option.bind_some, read]
  rfl

/-- A watch that is still there is found by a poll. -/
theorem Accounted.live (acc : Accounted left r) (holds : Holds x r) :
    ∃ now, WatchOwner.live? r.watcher x = some now := by
  obtain ⟨y, mem, path, -, number⟩ := holds
  have distinct : (r.watcher.watches.map (·.path)).Nodup := acc.paths ▸ watchedIn_nodup _
  have found := WatchOwner.live?_of_mem distinct mem
  refine ⟨y, ?_⟩
  unfold WatchOwner.live? at found ⊢
  rwa [path, number] at found

end Poll

/-! ## Polls in progress -/

section Progress

variable {callback : κ → Path → Operation WatchFailure (Recorded κ ρ) Unit}
  {x : Watch (Registration κ)} {rest : List (Watch (Registration κ))} {ps seen : List Path}

/-- A poll with calm callbacks that has been begun in a state `r₀` has seen some paths, has reported
some of them, and has the watches in `rest` before it. -/
structure Underway (left : Nat × Path → List (Registration κ)) (r₀ : Recorded κ ρ)
    (seen ps : List Path) (rest : List (Watch (Registration κ))) (r : Recorded κ ρ) : Prop where
  inPoll : InPoll left r₀ rest r
  watched : seen ++ rest.map (·.path) = watchedIn r₀.history
  reached : reachedBy (pollsIn r₀.history) r.history = seen
  found : ps.Sublist seen
  ahead : ∀ x ∈ rest, Holds x r
  judged : Judged (pollsIn r₀.history) ps r.history
  longer : r₀.history.length ≤ r.history.length
  current : Harmless r₀.history.length r.history → Current (rest.map (·.path)) r

namespace Underway

theorem begin (acc : Accounted left r) :
    Underway left r [] [] r.watcher.watches { r with history := r.history ++ [.began] } := by
  have unreached : ∀ p files, .reached (pollsIn r.history) p files ∉ r.history ++ [.began] := by
    intro p files mem
    rcases List.mem_append.1 mem with before | last
    · exact Nat.lt_irrefl _ (acc.delivers.seen _ p files before)
    · cases List.mem_singleton.1 last
  have unreported : ∀ p files, .reported (pollsIn r.history) p files ∉ r.history ++ [.began] := by
    intro p files mem
    rcases List.mem_append.1 mem with before | last
    · exact Nat.lt_irrefl _ (acc.delivers.lt_of_reported before)
    · cases List.mem_singleton.1 last
  refine ⟨.begin acc, acc.paths, ?_, List.nil_sublist _, fun x mem => ⟨x, mem, rfl, rfl, rfl⟩,
    .begin unreached unreported, by simp, fun _ x mem => .inl (List.mem_map_of_mem mem)⟩
  apply List.eq_nil_iff_forall_not_mem.2
  intro p mem
  obtain ⟨files, known⟩ := mem_reachedBy.1 mem
  exact unreached p files known

/-- The poll has not come yet to what is before it. -/
theorem not_seen (underway : Underway left r₀ seen ps (x :: rest) r) : x.path ∉ seen := by
  intro mem
  have distinct := watchedIn_nodup r₀.history
  rw [← underway.watched] at distinct
  exact (List.nodup_append.1 distinct).2.2 _ mem _ List.mem_cons_self rfl

/-- What is known of the next path is what its watch had recorded when the poll began. -/
theorem known (underway : Underway left r₀ seen ps (x :: rest) r) :
    ∃ known, known? x.path r.history = some known ∧ known.stamp? x.path = .ok x.stamp := by
  obtain ⟨y, mem, path, stamp, -⟩ := underway.ahead x List.mem_cons_self
  rw [← path, ← stamp]
  exact underway.inPoll.accounted.known mem

theorem watched_next (underway : Underway left r₀ seen ps (x :: rest) r) :
    seen ++ [x.path] ++ rest.map (·.path) = watchedIn r₀.history := by
  rw [← underway.watched, List.append_assoc]
  rfl

/-- The poll comes to a path whose stamp is the recorded one. -/
theorem pass (underway : Underway left r₀ seen ps (x :: rest) r)
    (present : r.files.stamp? x.path = .ok x.stamp) :
    Underway left r₀ (seen ++ [x.path]) ps rest { r with
      history := r.history ++ [.reached (pollsIn r₀.history) x.path r.files] } := by
  obtain ⟨known, isKnown, recorded⟩ := underway.known
  have unreported : x.path ∉ ps := fun mem => underway.not_seen (underway.found.subset mem)
  refine ⟨underway.inPoll.pass, underway.watched_next, ?_,
    underway.found.trans (List.sublist_append_left _ _),
    fun y mem => underway.ahead y (List.mem_cons_of_mem x mem),
    underway.judged.pass unreported isKnown (present.trans recorded.symm), ?_,
    fun harmless y mem => ?_⟩
  · rw [reachedBy_append, underway.reached]
    simp [reachedBy]
  · have longer := underway.longer
    rw [List.length_append]
    omega
  · rcases underway.current harmless.of_append y mem with next | now
    · rcases List.mem_cons.1 next with here | later
      · obtain ⟨known', isKnown', recorded'⟩ := underway.inPoll.accounted.known mem
        rw [here] at isKnown' recorded'
        obtain rfl := Option.some.inj (isKnown.symm.trans isKnown')
        right
        rw [here, ← recorded', recorded]
        exact present
      · exact .inl later
    · exact .inr now

/-- The poll comes to a path whose stamp is not the recorded one, reports it, and calls the
registrations for it. -/
theorem report (calm : ∀ c p, Program False (callback c p))
    (underway : Underway left r₀ seen ps (x :: rest) r)
    (present : r.files.stamp? x.path = .ok stamp) (differ : stamp ≠ x.stamp) {u : Unit}
    (run : (registrationsOf x.path r.history).forM
      (fun c => (owner (pollsIn r₀.history) callback).call c x.path)
      (reporting (pollsIn r₀.history) x.path stamp r) = .ok u r') :
    Underway left r₀ (seen ++ [x.path]) (ps ++ [x.path]) rest r' := by
  obtain ⟨known, isKnown, recorded⟩ := underway.known
  have inPoll := underway.inPoll
  have reported :=
    inPoll.accounted.reporting (inPoll.fresh x List.mem_cons_self) inPoll.begun present
  have grown := calls_grow calm reported run
  obtain ⟨more, split, others⟩ := grown.history
  have judged : Judged (pollsIn r₀.history) (ps ++ [x.path]) (reporting _ x.path stamp r).history :=
    underway.judged.report (underway.reached ▸ underway.not_seen) isKnown fun same => differ <| by
      rw [present, recorded] at same
      exact Except.ok.inj same
  have longer : r₀.history.length ≤
      (reporting (pollsIn r₀.history) x.path stamp r).history.length := by
    have longer := underway.longer
    simp only [reporting, List.length_append]
    omega
  refine ⟨inPoll.report (fun c p => (calm c p).keepsAccount) present run, underway.watched_next, ?_,
    underway.found.append (List.Sublist.refl _), fun y mem => grown.holds y ?_,
    split ▸ judged.calm others, ?_, fun harmless => ?_⟩
  · rw [split, reachedBy_append, reachedBy_calm others, List.append_nil]
    simp only [reporting, reachedBy_append, underway.reached]
    simp [reachedBy]
  · obtain ⟨z, before, path, kept⟩ := underway.ahead y (List.mem_cons_of_mem x mem)
    have other : y.path ≠ x.path := fun same =>
      (List.nodup_cons.1 inPoll.distinct).1 (List.mem_map.2 ⟨y, mem, same⟩)
    refine ⟨z, List.mem_map.2 ⟨z, before, if_neg (path ▸ other)⟩, path, kept⟩
  · rw [split, List.length_append]
    omega
  · have early : Harmless r₀.history.length r.history := by
      rw [split] at harmless
      exact harmless.of_append.of_append.of_append
    refine grown.current _ (harmless.mono longer) fun y mem => ?_
    obtain ⟨z, before, rfl⟩ := List.mem_map.1 mem
    by_cases here : z.path = x.path
    · rw [if_pos here]
      right
      rw [here]
      exact present
    · rw [if_neg here]
      rcases underway.current early z before with next | now
      · exact .inl ((List.mem_cons.1 next).resolve_left here)
      · exact .inr now

/-- The poll goes through all its watches. -/
theorem pollEach (calm : ∀ c p, Program False (callback c p))
    (underway : Underway left r₀ seen ps rest r) {ps' : List Path}
    (run : (owner (pollsIn r₀.history) callback).pollEach rest r = .ok ps' r') :
    Underway left r₀ (watchedIn r₀.history) (ps ++ ps') [] r' := by
  induction rest generalizing r seen ps ps' with
  | nil =>
    obtain ⟨rfl, rfl⟩ := pure_ok.1 run
    have all := underway.watched
    rw [List.map_nil, List.append_nil] at all
    rw [List.append_nil, ← all]
    exact underway
  | cons x rest ih =>
    obtain ⟨stamp, _, looked, -⟩ := bind_ok.1 run
    have present := (stamp_ok looked).1
    by_cases same : stamp = x.stamp
    · subst same
      rw [pollEach_same present] at run
      exact ih (underway.pass present) run
    obtain ⟨now, live⟩ := underway.inPoll.accounted.live (underway.ahead x List.mem_cons_self)
    rw [pollEach_live present same live, underway.inPoll.accounted.live_callbacks live] at run
    obtain ⟨_, t, called, run⟩ := bind_ok.1 run
    obtain ⟨ps'', t', later, answered⟩ := bind_ok.1 run
    obtain ⟨rfl, rfl⟩ := pure_ok.1 answered
    have done := ih (underway.report calm present same called) later
    rwa [List.append_assoc] at done

/-- Only a callback can make the poll fail. -/
theorem pollEach_error (calm : ∀ c p, Program False (callback c p))
    (underway : Underway left r₀ seen ps rest r) {f : WatchFailure}
    (run : (owner (pollsIn r₀.history) callback).pollEach rest r = .error f r') :
    ∃ c p t, .called (pollsIn r₀.history) p c ∈ t.history ∧
      callback c.callback p t = .error f r' := by
  induction rest generalizing r seen ps with
  | nil => exact (pure_error.1 run).elim
  | cons x rest ih =>
    have accepted : IsAccepted x.path := by
      obtain ⟨y, mem, path, -⟩ := underway.ahead x List.mem_cons_self
      exact path ▸ underway.inPoll.accounted.accepted _ (underway.inPoll.accounted.watch_eq mem).1
    obtain ⟨stamp, present⟩ := stamp?_ok r.files accepted
    by_cases same : stamp = x.stamp
    · subst same
      rw [pollEach_same present] at run
      exact ih (underway.pass present) run
    obtain ⟨now, live⟩ := underway.inPoll.accounted.live (underway.ahead x List.mem_cons_self)
    rw [pollEach_live present same live, underway.inPoll.accounted.live_callbacks live] at run
    rcases bind_error.1 run with called | ⟨_, t, called, run⟩
    · obtain ⟨c, t, known, failed⟩ := calls_fail called
      exact ⟨c, x.path, t, known, failed⟩
    rcases bind_error.1 run with later | ⟨_, _, -, answered⟩
    · exact ih (underway.report calm present same called) later
    · exact (pure_error.1 answered).elim

end Underway

end Progress

/-! ## What polls report -/

section Reports

variable {callback : κ → Path → Operation WatchFailure (Recorded κ ρ) Unit}

/-- A poll reports nothing if all the watches that it goes through hold the present stamps. -/
theorem pollEach_idle {rest : List (Watch (Registration κ))}
    (present : ∀ x ∈ rest, r.files.stamp? x.path = .ok x.stamp) :
    ∃ r', (owner n callback).pollEach rest r = .ok [] r' := by
  induction rest generalizing r with
  | nil => exact ⟨r, rfl⟩
  | cons x rest ih =>
    rw [pollEach_same (present x List.mem_cons_self)]
    exact ih fun y mem => present y (List.mem_cons_of_mem x mem)

/-- What a poll with calm callbacks does, whatever has been done with the watcher before. It fails
only if a callback fails that it has called. Otherwise it comes to the watched paths, each once and
in order, and reports the ones whose stamps are not the known ones at that moment; it calls the
registrations made for them by then, and no other ones. If no callback has changed the stamp of a
watched path, the next poll reports nothing. -/
theorem poll_reports_changes (new : r₀.IsNew) (attained : Attained r₀ r)
    (calm : ∀ c p, Program False (callback c p)) :
    (∀ f r', poll callback r = .error f r' →
      ∃ c p t, .called (pollsIn r.history) p c ∈ t.history ∧
        callback c.callback p t = .error f r') ∧
    ∀ ps r', poll callback r = .ok ps r' →
      reachedBy (pollsIn r.history) r'.history = watchedIn r.history ∧
      (watchedIn r.history).Nodup ∧ ps.Sublist (watchedIn r.history) ∧
      (∀ before p files after,
        r'.history = before ++ .reached (pollsIn r.history) p files :: after →
        (∃ known, known? p before = some known ∧ (p ∈ ps ↔ files.stamp? p ≠ known.stamp? p)) ∧
        (registrationsOf p before).Nodup ∧
        (p ∈ ps → callsBy (pollsIn r.history) p r'.history = registrationsOf p before)) ∧
      (∀ p, p ∉ ps → callsBy (pollsIn r.history) p r'.history = []) ∧
      (Harmless r.history.length r'.history →
        ∀ callback', ∃ r'', poll callback' r' = .ok [] r'') := by
  obtain ⟨left, acc⟩ := attained.accounted new
  have started := Underway.begin acc
  constructor
  · intro f r' run
    simp only [poll, note, WatchOwner.poll, bind_error, get_error, get_ok, exists_both_eq,
      modify_error, modify_ok, exists_unit_eq, read_error, read_ok, false_or] at run
    exact started.pollEach_error calm run
  intro ps r' run
  simp only [poll, note, WatchOwner.poll, bind_ok, get_ok, exists_both_eq, modify_ok,
    exists_unit_eq, read_ok] at run
  have done := started.pollEach calm run
  rw [List.nil_append] at done
  have acc' := done.inPoll.accounted
  refine ⟨done.reached, watchedIn_nodup _, done.found,
    fun before p files after split => ⟨?_, ?_, ?_⟩, fun p unreported => ?_,
    fun harmless callback' => ?_⟩
  · exact done.judged.compared before p files after split
  · exact (split ▸ acc'.numbered).of_append.registrationsOf_nodup p
  · intro reported
    obtain ⟨later, rfl⟩ := done.judged.told before p files after split reported
    have told : r'.history = before ++ [.reached (pollsIn r.history) p files] ++
        .reported (pollsIn r.history) p files :: later := by simp [split]
    have calls := acc'.delivers.calls _ _ _ _ _ told
    have nothing : left (pollsIn r.history, p) = [] := acc.delivers.idle _ _ fun files mem =>
      Nat.lt_irrefl _ (acc.delivers.lt_of_reported mem)
    have known : registrationsOf p (before ++ [.reached (pollsIn r.history) p files]) =
        registrationsOf p before := registrationsOf_neutral trivial
    rw [nothing, List.append_nil, known] at calls
    rw [acc'.delivers.callsBy_eq told, calls]
  · exact acc'.delivers.callsBy_eq_nil fun files mem => unreported (done.judged.silent p files mem)
  · have current := done.current harmless
    have present : ∀ x ∈ r'.watcher.watches, r'.files.stamp? x.path = .ok x.stamp := fun x mem =>
      (current x mem).resolve_left List.not_mem_nil
    obtain ⟨r'', idle⟩ : ∃ r'', (owner (pollsIn r'.history) callback').pollEach r'.watcher.watches
        { r' with history := r'.history ++ [.began] } = .ok [] r'' := pollEach_idle present
    refine ⟨r'', ?_⟩
    simp only [poll, note, WatchOwner.poll, bind_ok, get_ok, exists_both_eq, modify_ok,
      exists_unit_eq, read_ok]
    exact idle

/-- The first callback writes a file that is not watched, and registers another one for a third
file. -/
def joining (callback : Nat) (_ : Path) : Operation WatchFailure (Recorded Nat Unit) Unit :=
  if callback = 0 then do
    change (written ⟨.root, ["b"]⟩ [0])
    watch ⟨.root, ["c"]⟩ 2
  else pure ()

/-- The first file and the third are watched and written. -/
def twoWritten : Operation WatchFailure (Recorded Nat Unit) Unit := do
  watch ⟨.root, ["a"]⟩ 0
  watch ⟨.root, ["c"]⟩ 1
  change (written ⟨.root, ["a"]⟩ [0])
  change (written ⟨.root, ["c"]⟩ [0])

theorem joining_program (callback : Nat) (p : Path) : Program False (joining callback p) := by
  unfold joining
  split
  · exact .bind (.change _) fun _ => .watch _ _
  · exact .elsewhere (.pure ())

theorem twoWritten_program : Program True twoWritten := by
  unfold twoWritten
  exact .bind (.watch _ _) fun _ => .bind (.watch _ _) fun _ => .bind (.change _) fun _ => .change _

/-- A callback that is registered in the course of a poll is called by it when its path is still to
come, and the next poll reports nothing. -/
theorem poll_reports_changes_joined : ∃ r r' r'',
    twoWritten { files := {}, rest := () } = .ok () r ∧
    poll joining r = .ok [⟨.root, ["a"]⟩, ⟨.root, ["c"]⟩] r' ∧
    callsBy 0 ⟨.root, ["c"]⟩ r'.history = [⟨1, 1⟩, ⟨2, 2⟩] ∧ poll joining r' = .ok [] r'' := by
  have evaluated : succeedsWith (fun _ r => pollsIn r.history = 0 ∧ succeedsWith (fun ps r' =>
      ps = [⟨.root, ["a"]⟩, ⟨.root, ["c"]⟩] ∧ Harmless r.history.length r'.history ∧
      r'.history = r'.history.take 10 ++ .reached 0 ⟨.root, ["c"]⟩ r'.files :: r'.history.drop 11 ∧
      registrationsOf ⟨.root, ["c"]⟩ (r'.history.take 10) = [⟨1, 1⟩, ⟨2, 2⟩]) (poll joining) r)
      twoWritten { files := {}, rest := () } = true := by decide +kernel
  obtain ⟨⟨⟩, r, run, seen⟩ := ok_of_succeedsWith evaluated
  obtain ⟨number, polled⟩ := of_decide_eq_true seen
  obtain ⟨ps, r', run', seen'⟩ := ok_of_succeedsWith polled
  obtain ⟨rfl, harmless, split, registered⟩ := of_decide_eq_true seen'
  have attained : Attained { files := {}, rest := () } r :=
    leaves_ok run ▸ .next .start twoWritten_program
  obtain ⟨-, -, -, reached, -, idle⟩ :=
    (poll_reports_changes ⟨rfl, rfl⟩ attained joining_program).2 _ r' run'
  rw [number] at reached
  obtain ⟨r'', run''⟩ := idle harmless joining
  refine ⟨r, r', r'', run, run', ?_, run''⟩
  rw [← registered]
  exact (reached _ _ _ _ split).2.2 (by simp)

end Reports

end Watcher.Recorded
end MessageLens
