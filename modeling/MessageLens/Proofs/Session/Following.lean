import MessageLens.Proofs.Session.Polling
import MessageLens.Proofs.Session.Start

/-!
# Following the disk

What a session knows after a poll is in step with the disk as far as its watches can tell. To say so
a session is observed along a run: the observer remembers the disk on which the watches have been
set up last and the disk that they have looked at last.
-/

namespace MessageLens
set_option autoImplicit false

open Operation

variable {τ : Type}

/-- A session with the disk that its watches have been set up on last and the disk that they have
looked at last. -/
structure Observed (τ : Type) where
  session : Session τ
  applied : Workspace
  looked : Workspace

namespace Observed

/-- Begins to observe a session. -/
def start (s : Session τ) : Observed τ := ⟨s, s.workspace, s.workspace⟩

/-- Watches have been set up between two states. The settings file is then watched anew, so that the
number of registrations has grown. -/
def SetUp (s s' : Session τ) : Prop := s.watcher.begun < s'.watcher.begun

instance (s s' : Session τ) : Decidable (SetUp s s') := inferInstanceAs (Decidable (_ < _))

/-- What is remembered after a step that has led to a session. -/
def after (o : Observed τ) (step : SessionStep) (s : Session τ) : Observed τ where
  session := s
  applied := if SetUp o.session s then s.workspace else o.applied
  looked := if SetUp o.session s ∨ step = .poll then s.workspace else o.looked

variable {o o' : Observed τ} {s s₀ : Session τ} {step : SessionStep} {steps : List SessionStep}
  {answer : SessionAnswer}

theorem after_of_setUp (setUp : SetUp o.session s) :
    o.after step s = ⟨s, s.workspace, s.workspace⟩ := by
  simp [after, setUp]

theorem after_of_begun (same : s.watcher.begun = o.session.watcher.begun) :
    o.after step s = ⟨s, o.applied, if step = .poll then s.workspace else o.looked⟩ := by
  have still : ¬ SetUp o.session s := by
    rw [SetUp, same]
    exact Nat.lt_irrefl _
  simp [after, still]

/-! ## What holds along a run -/

/-- The three ways a step may go: without any bearing on the watches, as a poll that passes them, or
with a renewal of the session. -/
inductive Goes (step : SessionStep) (o o' : Observed τ) : Prop where
  | quiet (noPoll : step ≠ .poll) (same : o'.session.watchSide = o.session.watchSide)
    (applied : o'.applied = o.applied) (looked : o'.looked = o.looked)
  | passed (poll : step = .poll)
    (passed : Session.Passed [] o.session.watcher.watches [] o.session o'.session)
    (applied : o'.applied = o.applied) (looked : o'.looked = o.session.workspace)
  | renewed (renewed : o.session.Renewed o'.session) (applied : o'.applied = o.session.workspace)
    (looked : o'.looked = o.session.workspace)

/-- What the watches of an observed session are good for. -/
structure Follows (o : Observed τ) : Prop where
  bare : o.session.project.root = none → o.session.project.settings = none
  inStep : o.session.watcher.InStep o.looked 0
  watching : o.session.Watching o.applied

theorem Follows.start (new : s₀.IsNew) : Follows (start s₀) where
  bare _ := by
    show s₀.project.settings = none
    rw [new.project]
  inStep := by
    show s₀.watcher.InStep s₀.workspace 0
    rw [new.watcher]
    exact Watcher.InStep.clear {} _ 0
  watching := by
    have noRoot : s₀.project.root = none := by rw [new.project]
    refine ⟨fun root found => ?_, fun root settings found => ?_⟩
    · cases noRoot.symm.trans found
    · cases noRoot.symm.trans found

theorem Follows.next (follows : o.Follows) (goes : Goes step o o') : o'.Follows := by
  cases goes with
  | quiet noPoll same applied looked =>
    have root := congrArg Session.WatchSide.root same
    have settings := congrArg Session.WatchSide.settings same
    have watcher : o'.session.watcher = o.session.watcher :=
      congrArg Session.WatchSide.watcher same
    refine ⟨fun noRoot => ?_, ?_, ?_⟩
    · exact settings.trans (follows.bare (root.symm.trans noRoot))
    · rw [looked]
      exact watcher ▸ follows.inStep
    · rw [applied]
      exact follows.watching.congr (congrArg Session.WatchSide.options same) root settings
        fun _ _ watched => watcher ▸ watched
  | passed poll passed applied looked =>
    have watcher := passed.watcher
    rw [List.append_nil, List.nil_append] at watcher
    refine ⟨fun noRoot => ?_, ?_, ?_⟩
    · rw [passed.settings]
      exact follows.bare (passed.root ▸ noRoot)
    · rw [looked, watcher]
      exact follows.inStep.restamp passed.present
    · rw [applied]
      refine follows.watching.congr passed.options passed.root passed.settings fun _ _ watched => ?_
      rw [watcher]
      exact watched.restamp
  | renewed renewed applied looked =>
    refine ⟨fun noRoot => ?_, ?_, ?_⟩
    · have found := renewed.found
      rw [noRoot] at found
      cases found
    · rw [looked]
      exact renewed.inStep.mono (Nat.zero_le _)
    · rw [applied]
      exact renewed.watching

/-- A settings file whose content has changed since the watches looked at it has another stamp. -/
def Telling (o : Observed τ) : Prop :=
  ∀ root, o.session.project.root = some root →
    (o.session.workspace.read (o.session.settingsFile root)).toOption ≠
        (o.looked.read (o.session.settingsFile root)).toOption →
      o.session.workspace.stamp? (o.session.settingsFile root) ≠
        o.looked.stamp? (o.session.settingsFile root)

/-- The settings are those of the disk that the watches have looked at last. -/
def Agrees (o : Observed τ) : Prop := o.session.Agrees o.looked

theorem Agrees.start (new : s₀.IsNew) : Agrees (start s₀) := by
  have noRoot : s₀.project.root = none := by rw [new.project]
  intro root found
  cases noRoot.symm.trans found

theorem Agrees.next (agrees : o.Agrees) (follows : o.Follows) (goes : Goes step o o')
    (telling : step = .poll → o.Telling) : o'.Agrees := by
  cases goes with
  | quiet noPoll same applied looked =>
    rw [Agrees, looked]
    exact Session.Agrees.congr agrees (congrArg Session.WatchSide.options same)
      (congrArg Session.WatchSide.root same) (congrArg Session.WatchSide.settings same)
  | passed poll passed applied looked =>
    rw [Agrees, looked]
    refine Session.Agrees.congr ?_ passed.options passed.root passed.settings
    intro root found
    obtain ⟨x, mem, here, registered⟩ := follows.watching.settings root found
    have present : o.session.workspace.stamp? x.path = .ok x.stamp :=
      Classical.byContradiction fun changed => by
        cases found.symm.trans ((passed.noticed x mem changed).1 registered)
    have same := Classical.byContradiction fun differ => telling poll root found differ
      (here ▸ present.trans (follows.inStep.stamps x mem).symm)
    rw [agrees root found, declared, declared, same]
  | renewed renewed applied looked =>
    rw [Agrees, looked]
    exact renewed.agrees

/-! ## Runs -/

variable [Instant τ]

/-- Performs a step of the observed session. -/
def perform (step : SessionStep) : Operation SessionFailure (Observed τ) SessionAnswer := fun o =>
  match Session.perform step o.session with
  | .ok answer s => .ok answer (o.after step s)
  | .error e s => .error e (o.after step s)

theorem perform_ok : perform step o = .ok answer o' ↔
    Session.perform step o.session = .ok answer o'.session ∧ o.after step o'.session = o' := by
  rw [perform]
  cases run : Session.perform step o.session with
  | ok answer' s =>
    simp only [EStateM.Result.ok.injEq]
    constructor
    · rintro ⟨rfl, rfl⟩
      exact ⟨⟨rfl, rfl⟩, rfl⟩
    · rintro ⟨⟨rfl, rfl⟩, same⟩
      exact ⟨rfl, same⟩
  | error e s => simp

/-- Observing a run takes nothing away from it and adds nothing to it. -/
theorem run_iff : Run Session.perform s₀ steps s ↔
    ∃ o, Run perform (start s₀) steps o ∧ o.session = s := by
  constructor
  · intro run
    induction run with
    | start => exact ⟨start s₀, .start, rfl⟩
    | @next steps s s' step answer _ performed ih =>
      obtain ⟨o, observed, rfl⟩ := ih
      exact ⟨o.after step s', observed.next (perform_ok.2 ⟨performed, rfl⟩), rfl⟩
  · rintro ⟨o, run, rfl⟩
    induction run with
    | start => exact .start
    | next _ performed ih => exact ih.next (perform_ok.1 performed).1

theorem Goes.of_perform (follows : o.Follows) (unclosed : step ≠ .close)
    (run : perform step o = .ok answer o') : Goes step o o' := by
  obtain ⟨performed, remembered⟩ := perform_ok.1 run
  have anew : o.session.Renewed o'.session → Goes step o o' := by
    intro renewed
    rw [after_of_setUp renewed.begun, renewed.workspace] at remembered
    exact .renewed renewed (congrArg applied remembered).symm (congrArg looked remembered).symm
  by_cases poll : step = .poll
  · obtain rfl := poll
    obtain ⟨ps, t, polled, answered⟩ := bind_ok.1 performed
    obtain ⟨-, rfl⟩ := pure_ok.1 answered
    obtain passed | ⟨-, renewed⟩ :=
      Session.poll_ok follows.inStep.paths follows.inStep.begun polled
    · rw [after_of_begun (by rw [passed.watcher]), passed.workspace, if_pos rfl] at remembered
      exact .passed rfl passed (congrArg applied remembered).symm (congrArg looked remembered).symm
    · exact anew renewed
  · obtain same | renewed := Session.perform_watchSide poll unclosed follows.bare performed
    · have watcher := congrArg Session.WatchSide.watcher same
      rw [after_of_begun (congrArg Watcher.begun watcher), if_neg poll] at remembered
      exact .quiet poll same (congrArg applied remembered).symm (congrArg looked remembered).symm
    · exact anew renewed

theorem run_follows (new : s₀.IsNew) (unclosed : .close ∉ steps)
    (run : Run perform (start s₀) steps o) : o.Follows := by
  induction run with
  | start => exact Follows.start new
  | next _ performed ih =>
    have follows := ih fun mem => unclosed (List.mem_append_left _ mem)
    exact follows.next (Goes.of_perform follows (fun same => unclosed (by simp [same])) performed)

theorem run_agrees (new : s₀.IsNew) (unclosed : .close ∉ steps)
    (telling : ∀ before after, steps = before ++ .poll :: after → ∀ o,
      Run perform (start s₀) before o → o.Telling)
    (run : Run perform (start s₀) steps o) : o.Agrees := by
  induction run with
  | start => exact Agrees.start new
  | @next steps o o' step _ ran performed ih =>
    have follows := run_follows new (fun mem => unclosed (List.mem_append_left _ mem)) ran
    have agrees := ih (fun mem => unclosed (List.mem_append_left _ mem))
      fun before after split => telling before (after ++ [step]) (by rw [split]; simp)
    refine agrees.next follows
      (Goes.of_perform follows (fun same => unclosed (by simp [same])) performed) fun poll => ?_
    exact telling steps [] (by rw [poll]) o ran

/-- After a poll the messages of a locale are those of its message file, if the poll has set the
watches up anew, or if the file was there when they were set up and its stamp has changed since they
have looked at it. -/
theorem poll_reloads {root : Path} {settings : ProjectSettings} {locale : String}
    (new : s₀.IsNew) (unclosed : .close ∉ steps) (run : Run perform (start s₀) steps o)
    (polled : perform .poll o = .ok answer o') (found : o'.session.project.root = some root)
    (usable : o'.session.project.settings = some settings) (mem : locale ∈ settings.locales)
    (noticed : SetUp o.session o'.session ∨
      o.applied.isFile (messagePath root settings.pathPattern locale) = .ok true ∧
        o.session.workspace.stamp? (messagePath root settings.pathPattern locale) ≠
          o.looked.stamp? (messagePath root settings.pathPattern locale)) :
    o'.session.Fresh locale := by
  have follows := run_follows new unclosed run
  cases Goes.of_perform follows (by simp) polled with
  | quiet noPoll => exact absurd rfl noPoll
  | renewed renewed => exact renewed.fresh settings usable locale mem
  | passed _ passed =>
    obtain setUp | ⟨there, changed⟩ := noticed
    · rw [SetUp, passed.watcher] at setUp
      exact absurd setUp (Nat.lt_irrefl _)
    · obtain ⟨x, watched, here, registered⟩ := follows.watching.messages root settings
        (passed.root.symm.trans found) (passed.settings.symm.trans usable) locale mem there
      have looked := follows.inStep.stamps x watched
      refine (passed.noticed x watched fun same => changed ?_).2 locale registered
      rw [← here, same, looked]

/-- A malformed message file is there when the project is found, and is gone later. -/
def messagesLost : List SessionStep :=
  [.change (.write ⟨.root, ["p", "en.json"]⟩ [] none), .openBuffer "/p/a.ts" (some "m.k()"),
    .attach (.number 1), .change (.delete ⟨.root, ["p", "en.json"]⟩)]

theorem poll_reloads_messagesLost : (Session.onDisk Session.nestedProject).IsNew ∧
    .close ∉ messagesLost ∧ ∃ o answer o' root settings,
      Run perform (start (Session.onDisk Session.nestedProject)) messagesLost o ∧
      perform .poll o = .ok answer o' ∧ o'.session.project.root = some root ∧
      o'.session.project.settings = some settings ∧ "en" ∈ settings.locales ∧
      (SetUp o.session o'.session ∨
        o.applied.isFile (messagePath root settings.pathPattern "en") = .ok true ∧
          o.session.workspace.stamp? (messagePath root settings.pathPattern "en") ≠
            o.looked.stamp? (messagePath root settings.pathPattern "en")) ∧
      o'.session.Fresh "en" := by
  have new := Session.onDisk_isNew Session.nestedProject
  have unclosed : .close ∉ messagesLost := by decide
  obtain ⟨_, o, all, polls⟩ := ok_of_succeedsWith
    (x := messagesLost.forM fun step => discard (perform step))
    (s := start (Session.onDisk Session.nestedProject))
    (p := fun _ o => succeedsWith (fun _ o' =>
      o'.session.project.root.any fun root => o'.session.project.settings.any fun settings =>
        "en" ∈ settings.locales ∧
        o.applied.isFile (messagePath root settings.pathPattern "en") = .ok true ∧
          o.session.workspace.stamp? (messagePath root settings.pathPattern "en") ≠
            o.looked.stamp? (messagePath root settings.pathPattern "en")) (perform .poll) o)
    (by decide +kernel)
  obtain ⟨answer, o', polled, noticed⟩ := ok_of_succeedsWith polls
  simp only [Option.any_eq_true, decide_eq_true_eq] at noticed
  obtain ⟨root, found, settings, usable, mem, there, changed⟩ := noticed
  have run := Run.of_forM all
  exact ⟨new, unclosed, o, answer, o', root, settings, run, polled, found, usable, mem,
    .inr ⟨there, changed⟩,
    poll_reloads new unclosed run polled found usable mem (.inr ⟨there, changed⟩)⟩

/-- A poll overlooks a message file. After `before` the messages are those of the file, whose stamp
is another after `changes`, and yet they are not those of the file after the poll. -/
def Overlooks (s₀ : Session τ) (before changes : List SessionStep) (locale : String) : Prop :=
  ∃ s₁ s₂ answer s₃ root settings, Run Session.perform s₀ before s₁ ∧ s₁.Fresh locale ∧
    Run Session.perform s₁ changes s₂ ∧ Session.perform .poll s₂ = .ok answer s₃ ∧
    s₃.project.root = some root ∧ s₃.project.settings = some settings ∧
    locale ∈ settings.locales ∧
    s₃.workspace.stamp? (messagePath root settings.pathPattern locale) ≠
      s₁.workspace.stamp? (messagePath root settings.pathPattern locale) ∧
    ¬ s₃.Fresh locale

/-- A document with one message. -/
def isSingle : Json → Bool
  | .obj [("k", .str "v")] => true
  | _ => false

theorem loadMessages_single {w : Workspace} {root : Path} {pattern locale : String}
    {document : Json} (read : readMessageFile w (messagePath root pattern locale) =
      .ok (.ok document)) (single : isSingle document = true) :
    loadMessages w root pattern locale = .ok (Table.ofList [("k", "v")], []) := by
  obtain rfl : document = .obj [("k", .str "v")] := by
    unfold isSingle at single
    split at single
    · rfl
    · cases single
  have flat : flatten (.obj [("k", .str "v")]) = .ok (Table.ofList [("k", "v")]) := by
    rw [flatten, flattenMembers]
    simp only [pure_bind, flattenMembers]
    rfl
  rw [loadMessages, read]
  show (do return (← (flatten _).mapError LoadError.pattern, [])) = _
  rw [flat]
  rfl

/-- There are no messages for a locale, neither in the session nor in the message file. -/
def noMessages (s : Session τ) (locale : String) : Bool :=
  s.project.messages.get? locale = some ∅ &&
    s.project.root.any fun root => s.project.settings.any fun settings =>
      (loadMessages s.workspace root settings.pathPattern locale).toOption.map (·.1) = some ∅

omit [Instant τ] in
theorem fresh_of_noMessages {locale : String} (blank : noMessages s locale = true) :
    s.Fresh locale := by
  intro root settings found usable
  simp only [noMessages, found, usable, Option.any_some, Bool.and_eq_true,
    decide_eq_true_eq] at blank
  obtain ⟨kept, loaded⟩ := blank
  cases load : loadMessages s.workspace root settings.pathPattern locale with
  | error e => rw [load] at loaded; cases loaded
  | ok both =>
    rw [load] at loaded
    exact ⟨both.1, both.2, rfl, kept.trans loaded.symm⟩

/-- There are no messages for a locale in the session, although the message file, which is not what
it was on a disk, has one. -/
def missesMessage (disk : Workspace) (s : Session τ) (locale : String) : Bool :=
  s.project.messages.get? locale = some ∅ &&
    s.project.root.any fun root => s.project.settings.any fun settings =>
      locale ∈ settings.locales ∧
        s.workspace.stamp? (messagePath root settings.pathPattern locale) ≠
          disk.stamp? (messagePath root settings.pathPattern locale) ∧
        (readMessageFile s.workspace (messagePath root settings.pathPattern locale)).toOption.any
          fun read => read.toOption.any isSingle

theorem overlooks_of_succeedsWith {before changes : List SessionStep} {locale : String}
    (check : succeedsWith (fun _ s₁ => noMessages s₁ locale && succeedsWith (fun _ s₂ =>
        succeedsWith (fun _ s₃ => missesMessage s₁.workspace s₃ locale) (Session.perform .poll) s₂)
      (changes.forM fun step => discard (Session.perform step)) s₁)
      (before.forM fun step => discard (Session.perform step)) s₀ = true) :
    Overlooks s₀ before changes locale := by
  obtain ⟨_, s₁, begun, check⟩ := ok_of_succeedsWith check
  rw [Bool.and_eq_true] at check
  obtain ⟨_, s₂, changed, later⟩ := ok_of_succeedsWith check.2
  obtain ⟨answer, s₃, polled, misses⟩ := ok_of_succeedsWith later
  simp only [missesMessage, Bool.and_eq_true, decide_eq_true_eq, Option.any_eq_true] at misses
  obtain ⟨kept, root, found, settings, usable, mem, differ, read, loaded, document, parsed,
    single⟩ := misses
  refine ⟨s₁, s₂, answer, s₃, root, settings, Run.of_forM begun, fresh_of_noMessages check.1,
    Run.of_forM changed, polled, found, usable, mem, differ, fun fresh => ?_⟩
  obtain ⟨messages, records, load, shown⟩ := fresh root settings found usable
  have present : readMessageFile s₃.workspace (messagePath root settings.pathPattern locale) =
      .ok (.ok document) := by
    cases first : readMessageFile s₃.workspace (messagePath root settings.pathPattern locale) with
    | error e => rw [first] at loaded; cases loaded
    | ok read' =>
      rw [first] at loaded
      obtain rfl : read' = read := Option.some.inj loaded
      cases read' with
      | error record => cases parsed
      | ok document' => exact congrArg (Except.ok ∘ Except.ok) (Option.some.inj parsed)
  rw [loadMessages_single present single] at load
  cases load
  rw [kept] at shown
  exact absurd shown (by decide)

/-- What is written into a message file that has been missing, or that gets back a stamp of old
after the messages have been loaded otherwise, is overlooked. -/
theorem poll_overlooks : (Session.onDisk Session.nestedProject).IsNew ∧
    Overlooks (Session.onDisk Session.nestedProject)
      [.openBuffer "/p/a.ts" (some "m.k()"), .attach (.number 1)]
      [.change (.write ⟨.root, ["p", "en.json"]⟩ "\x7b\"k\":\"v\"\x7d".toUTF8.toList none)] "en" ∧
    Overlooks (Session.onDisk Session.nestedProject)
      [.change (.write ⟨.root, ["p", "en.json"]⟩ "malformed".toUTF8.toList (some 0)),
        .openBuffer "/p/a.ts" (some "m.k()"), .attach (.number 1),
        .change (.write ⟨.root, ["p", "en.json"]⟩ [] none), .refresh]
      [.change (.write ⟨.root, ["p", "en.json"]⟩ "\x7b\"k\":\"v\"\x7d".toUTF8.toList (some 0))]
      "en" :=
  ⟨Session.onDisk_isNew _, overlooks_of_succeedsWith (by decide +kernel),
    overlooks_of_succeedsWith (by decide +kernel)⟩

/-- After a poll the settings are those that the settings file declares, and so they are what
reading it anew would give. -/
theorem poll_follows_settings {root : Path} (new : s₀.IsNew) (unclosed : .close ∉ steps)
    (telling : ∀ before after, steps ++ [.poll] = before ++ .poll :: after → ∀ o,
      Run perform (start s₀) before o → o.Telling)
    (run : Run perform (start s₀) steps o) (polled : perform .poll o = .ok answer o')
    (found : o'.session.project.root = some root) :
    o'.session.project.settings.map ProjectSettings.declaration =
        declared o'.session.workspace (o'.session.settingsFile root) ∧
      ∀ loaded, loadSettings o'.session.workspace root o'.session.options.marker = .ok loaded →
        o'.session.project.settings.map ProjectSettings.declaration =
          loaded.toOption.map ProjectSettings.declaration := by
  have follows := run_follows new unclosed run
  have agrees := run_agrees new (by simpa using unclosed) telling (run.next polled)
  have current : o'.looked = o'.session.workspace := by
    cases Goes.of_perform follows (by simp) polled with
    | quiet noPoll => exact absurd rfl noPoll
    | renewed renewed _ looked => exact looked.trans renewed.workspace.symm
    | passed _ passed _ looked => exact looked.trans passed.workspace.symm
  have declares := agrees root found
  rw [current] at declares
  exact ⟨declares, fun loaded read => declares.trans (loadSettings_declaration read).symm⟩

/-- The settings file is emptied after the project has been found. -/
def settingsLost : List SessionStep :=
  [.openBuffer "/p/a.ts" (some "m.k()"), .attach (.number 1),
    .change (.write ⟨.root, ["p", "project.inlang", "settings.json"]⟩ [] none)]

theorem before_first {before after : List SessionStep} (free : step ∉ steps)
    (split : steps ++ [step] = before ++ step :: after) : steps = before := by
  obtain ⟨more, rfl, last⟩ | ⟨more, rfl, rest⟩ := List.append_eq_append_iff.1 split
  · cases more with
    | nil => exact (List.append_nil _).symm
    | cons other more => simp at last
  · cases more with
    | nil => exact List.append_nil _
    | cons other more =>
      obtain ⟨rfl, -⟩ := List.cons.inj rest
      exact absurd (List.mem_append_right _ List.mem_cons_self) free

theorem poll_follows_settings_settingsLost : (Session.onDisk Session.nestedProject).IsNew ∧
    .close ∉ settingsLost ∧
    (∀ before after, settingsLost ++ [.poll] = before ++ .poll :: after → ∀ o,
      Run perform (start (Session.onDisk Session.nestedProject)) before o → o.Telling) ∧
    ∃ o answer o' root,
      Run perform (start (Session.onDisk Session.nestedProject)) settingsLost o ∧
      perform .poll o = .ok answer o' ∧ o'.session.project.root = some root ∧
      o'.session.project.settings.map ProjectSettings.declaration =
        declared o'.session.workspace (o'.session.settingsFile root) ∧
      ∀ loaded, loadSettings o'.session.workspace root o'.session.options.marker = .ok loaded →
        o'.session.project.settings.map ProjectSettings.declaration =
          loaded.toOption.map ProjectSettings.declaration := by
  have new := Session.onDisk_isNew Session.nestedProject
  have unclosed : .close ∉ settingsLost := by decide
  obtain ⟨_, o, all, polls⟩ := ok_of_succeedsWith
    (x := settingsLost.forM fun step => discard (perform step))
    (s := start (Session.onDisk Session.nestedProject))
    (p := fun _ o => o.session.project.root.all (fun root =>
        o.session.workspace.stamp? (o.session.settingsFile root) ≠
          o.looked.stamp? (o.session.settingsFile root)) &&
      succeedsWith (fun _ o' => o'.session.project.root.isSome) (perform .poll) o)
    (by decide +kernel)
  rw [Bool.and_eq_true, Option.all_eq_true] at polls
  obtain ⟨answer, o', polled, found⟩ := ok_of_succeedsWith polls.2
  obtain ⟨root, found⟩ := Option.isSome_iff_exists.1 found
  have run := Run.of_forM all
  have telling : ∀ before after, settingsLost ++ [.poll] = before ++ .poll :: after → ∀ o,
      Run perform (start (Session.onDisk Session.nestedProject)) before o → o.Telling := by
    intro before after split o₁ ran
    obtain rfl := before_first (by decide) split
    obtain rfl := run.unique ran
    exact fun root found _ => of_decide_eq_true (polls.1 root found)
  exact ⟨new, unclosed, telling, o, answer, o', root, run, polled, found,
    poll_follows_settings new unclosed telling run polled found⟩

end Observed

end MessageLens
