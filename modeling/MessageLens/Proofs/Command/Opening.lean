import MessageLens.Command.Run
import MessageLens.Proofs.Session.Files
import MessageLens.Proofs.Session.Upkeep

/-!
# What a command opens

A command opens its files one by one and attaches each as it is opened, which draws it with what is
known of the project by then. The files before the first one in a project are drawn while nothing is
known, and no later attachment draws them again. The project is found with the first file in one,
which is drawn with all that will ever be known of it, and so are the files after that.
-/

namespace MessageLens
set_option autoImplicit false

open Operation

namespace Session

variable {τ : Type} {s s' t : Session τ} {id : Handle} {ids : List Handle} {b : Buffer}

/-- An open buffer shows the annotations of its text. -/
def Shows (s : Session τ) (id : Handle) : Prop :=
  ∃ b, s.host.buffers.get? id = some b ∧ b.drawn s.layer = s.annotationsOfText b.text

/-- An open buffer shows nothing. -/
def ShowsNothing (s : Session τ) (id : Handle) : Prop :=
  ∃ b, s.host.buffers.get? id = some b ∧ b.drawn s.layer = []

/-- No project is around the file of a buffer. -/
def isOutside (s : Session τ) (id : Handle) : Bool :=
  (s.host.buffers.get? id).any fun b =>
    (findProjectRoot s.workspace (Path.parse b.path) s.options.marker).toOption = some none

/-! ## Attaching one file after the other -/

/-- More files have been opened and attached. Some buffers are as they were, and so is the project
if it had been found. -/
structure Extends (old : Handle → Prop) (s s' : Session τ) : Prop where
  options : s'.options = s.options
  layer : s'.layer = s.layer
  enabled : s'.enabled = s.enabled
  workspace : s'.workspace = s.workspace
  opened : s.host.opened ≤ s'.host.opened
  buffers : ∀ i, old i → s'.host.buffers.get? i = s.host.buffers.get? i
  project : s.project.root.isSome = true → s'.project = s.project

namespace Extends

variable {old older : Handle → Prop}

theorem refl (s : Session τ) : Extends old s s :=
  ⟨rfl, rfl, rfl, rfl, Nat.le_refl _, fun _ _ => rfl, fun _ => rfl⟩

theorem mono (more : Extends old s s') (fewer : ∀ i, older i → old i) : Extends older s s' :=
  { more with buffers := fun i before => more.buffers i (fewer i before) }

theorem trans (first : Extends old s t) (later : Extends old t s') : Extends old s s' where
  options := later.options.trans first.options
  layer := later.layer.trans first.layer
  enabled := later.enabled.trans first.enabled
  workspace := later.workspace.trans first.workspace
  opened := Nat.le_trans first.opened later.opened
  buffers i before := (later.buffers i before).trans (first.buffers i before)
  project found := by
    have same := first.project found
    rw [later.project (same ▸ found), same]

theorem issued (more : Extends old s s') (before : s.host.Issued id) : s'.host.Issued id := by
  obtain ⟨n, le, same⟩ := before
  exact ⟨n, Nat.le_trans le more.opened, same⟩

theorem isOutside (more : Extends old s s') (before : old id) :
    s'.isOutside id = s.isOutside id := by
  unfold Session.isOutside
  rw [more.buffers id before, more.workspace, more.options]

theorem showsNothing (more : Extends old s s') (before : old id) (blank : s.ShowsNothing id) :
    s'.ShowsNothing id := by
  unfold ShowsNothing
  rwa [more.buffers id before, more.layer]

theorem shows (more : Extends old s s') (before : old id) (found : s.project.root.isSome = true)
    (shown : s.Shows id) : s'.Shows id := by
  unfold Shows annotationsOfText
  rwa [more.buffers id before, more.layer, more.options, more.project found]

end Extends

/-- A buffer has been attached when the root of the project was known or not: it is still unknown
and the file of the buffer is outside of any project, or it is known by now. -/
inductive Joined (root : Option Path) (s' : Session τ) (id : Handle) : Prop where
  | outside (unfound : s'.project.root = none) (out : s'.isOutside id = true)
      (blank : s'.ShowsNothing id)
  | inside (found : s'.project.root.isSome = true)
      (first : root = none → s'.isOutside id = false)
      (shown : s'.project.isDetected = true → s'.Shows id)

/-- What a buffer shows when it has been drawn. -/
theorem Redrawn.drawn {b : Buffer} (drawn : Redrawn ids s s') (visited : id ∈ ids)
    (isOpen : s.host.buffers.get? id = some b) :
    ∃ b', s'.host.buffers.get? id = some b' ∧ b'.path = b.path ∧
      b'.drawn s'.layer = if s'.project.isDetected then s'.annotationsOfText b'.text else [] := by
  refine ⟨s.redrawn b, ?_, ?_, ?_⟩
  · rw [drawn.buffers id, isOpen, Option.map_some, if_pos visited]
  · rw [redrawn, Buffer.redrawn_path]
  · rw [drawn.outside, redrawn, Buffer.drawn_redrawn, Buffer.redrawn_text]
    rfl

/-- Drawing a buffer leaves the others alone. -/
theorem Redrawn.extends (drawn : Redrawn ids s s') (visited : ∀ i ∈ ids, i = id) :
    Extends (· ≠ id) s s' where
  options := by rw [drawn.outside]
  layer := by rw [drawn.outside]
  enabled := by rw [drawn.outside]
  workspace := by rw [drawn.outside]
  opened := Nat.le_of_eq (by rw [drawn.outside])
  buffers i other := by
    rw [drawn.buffers i]
    simp only [if_neg fun mem => other (visited i mem), Option.map_id']
  project _ := by rw [drawn.outside]

/-- Looking for the project around the file of a buffer, unless it is known. -/
theorem looked_extends {file : Path} {old : Handle → Prop}
    (looked : s.project.root = none ∧ discoverProject file s = .ok () t ∨
      s.project.root.isSome = true ∧ t = s) :
    Extends old s t ∧ t.host = s.host ∧ t.attached = s.attached ∧
      (t.project.root = none ∧ findProjectRoot s.workspace file s.options.marker = .ok none ∨
        t.project.root.isSome = true ∧ (s.project.root = none →
          ∃ root, findProjectRoot s.workspace file s.options.marker = .ok (some root))) := by
  rcases looked with ⟨unfound, discovered⟩ | ⟨found, rfl⟩
  · rcases discoverProject_ok discovered with ⟨none, rfl⟩ | ⟨root, some, same⟩
    · exact ⟨.refl t, rfl, rfl, .inl ⟨unfound, none⟩⟩
    · have host : t.host = s.host := congrArg EditorSide.host same
      have known : t.project.root = .some root := congrArg EditorSide.root same
      refine ⟨⟨congrArg EditorSide.options same, congrArg EditorSide.layer same,
        congrArg EditorSide.enabled same, congrArg EditorSide.workspace same, ?_, ?_, ?_⟩, host,
        congrArg EditorSide.attached same, .inr ⟨?_, fun _ => ⟨root, some⟩⟩⟩
      · exact Nat.le_of_eq (congrArg Host.opened host.symm)
      · intro i _
        rw [host]
      · intro found
        rw [unfound] at found
        cases found
      · rw [known]
        rfl
  · refine ⟨.refl t, rfl, rfl, .inr ⟨found, fun unfound => ?_⟩⟩
    rw [unfound] at found
    cases found

/-- Attaching a buffer that is not attached yet. -/
theorem attach_joined {answer : Bool} (free : id ∉ s.attached)
    (run : attach id s = .ok answer s') :
    Extends (· ≠ id) s s' ∧
      (answer = false ∧ s'.attached = s.attached ∧ s'.project = s.project ∨
        answer = true ∧ s'.attached = s.attached ++ [id] ∧
          (s.enabled = true → Joined s.project.root s' id)) := by
  rcases attach_answers run with ⟨rfl, known⟩ | ⟨rfl, -, b, isOpen, t, looked, drawn⟩
  · cases answer with
    | false => exact ⟨.refl s', .inl ⟨rfl, rfl, rfl⟩⟩
    | true => exact absurd (known rfl) free
  obtain ⟨more, host, attached, searched⟩ : Extends (· ≠ id) s t ∧ _ := looked_extends looked
  have visited : ∀ i ∈ (if t.enabled then [id] else []), i = id := by
    intro i mem
    split at mem
    · exact List.mem_singleton.1 mem
    · cases mem
  have later : Extends (· ≠ id) _ s' := drawn.extends visited
  have project : s'.project = t.project := by rw [drawn.outside]
  have added : s'.attached = s.attached ++ [id] := by
    rw [drawn.outside, ← attached]
  have whole : Extends (· ≠ id) s s' :=
    ⟨later.options.trans more.options, later.layer.trans more.layer,
      later.enabled.trans more.enabled, later.workspace.trans more.workspace,
      Nat.le_trans more.opened later.opened,
      fun i other => (later.buffers i other).trans (more.buffers i other),
      fun found => project.trans (more.project found)⟩
  refine ⟨whole, .inr ⟨rfl, added, fun enabled => ?_⟩⟩
  rw [if_pos (more.enabled.trans enabled)] at drawn
  obtain ⟨b', isOpen', path, shown⟩ := drawn.drawn (List.mem_singleton_self id) (host ▸ isOpen)
  have place : s'.isOutside id = decide ((findProjectRoot s.workspace (Path.parse b.path)
      s.options.marker).toOption = some none) := by
    rw [isOutside, isOpen', Option.any_some, path, whole.workspace, whole.options]
  rcases searched with ⟨unfound, nowhere⟩ | ⟨found, somewhere⟩
  · have undetected : s'.project.isDetected = false := by
      rw [ProjectState.isDetected, project, unfound]
      rfl
    rw [undetected, if_neg Bool.false_ne_true] at shown
    refine .outside (project ▸ unfound) ?_ ⟨b', isOpen', shown⟩
    rw [place, nowhere]
    rfl
  · refine .inside (project ▸ found) (fun unfound => ?_) fun detected => ⟨b', isOpen', ?_⟩
    · obtain ⟨root, here⟩ := somewhere unfound
      rw [place, here]
      rfl
    · rw [shown, if_pos detected]

theorem openBuffer_extends (s : Session τ) (path text : String) :
    Extends s.host.Issued s { s with host := (s.host.openBuffer path text).2 } where
  options := rfl
  layer := rfl
  enabled := rfl
  workspace := rfl
  opened := Nat.le_succ _
  buffers i before := by
    obtain ⟨n, le, rfl⟩ := before
    have other : Handle.number n ≠ .number (s.host.opened + 1) := by
      intro same
      have := Handle.number.inj same
      omega
    exact Table.get?_set_ne _ other _
  project _ := rfl

/-- Opening a file and attaching its buffer. -/
theorem attachFile_joined {path : String} {answer : Bool}
    (known : ∀ i ∈ s.attached, s.host.Issued i) (opening : openBuffer path none s = .ok id t)
    (run : attach id t = .ok answer s') :
    Extends s.host.Issued s s' ∧ s'.host.Issued id ∧
      (answer = false ∧ s'.attached = s.attached ∧ s'.project = s.project ∨
        answer = true ∧ s'.attached = s.attached ++ [id] ∧
          (s.enabled = true → Joined s.project.root s' id)) := by
  obtain ⟨text, rfl, rfl⟩ := openBuffer_ok opening
  have next : ∀ i, s.host.Issued i → i ≠ .number (s.host.opened + 1) := by
    rintro i ⟨n, le, rfl⟩ same
    have := Handle.number.inj same
    omega
  have free : Handle.number (s.host.opened + 1) ∉ s.attached := fun mem => next _ (known _ mem) rfl
  obtain ⟨later, joined⟩ := attach_joined (s := { s with
    host := (s.host.openBuffer path text).2 }) free run
  exact ⟨(openBuffer_extends s path text).trans (later.mono next), ⟨_, later.opened, rfl⟩, joined⟩

/-- Files have been opened one after the other, and these are the buffers attached. The first ones
are outside of any project and show nothing, the others show their annotations. -/
structure Previewed (s s' : Session τ) (ids : List Handle) : Prop where
  more : Extends s.host.Issued s s'
  known : ∀ i ∈ s'.attached, s'.host.Issued i
  listed : ∀ id ∈ ids, id ∈ s'.attached
  kept : ∀ id ∈ s.attached, id ∈ s'.attached
  shown : s'.enabled = true → s'.project.isDetected = true → ∃ before after,
    ids = before ++ after ∧ (∀ id ∈ before, s'.isOutside id = true ∧ s'.ShowsNothing id) ∧
    (∀ id ∈ after, s'.Shows id) ∧
    (s.project.root.isSome = true → before = []) ∧
    (s.project.root = none → ∀ id ∈ after.head?, s'.isOutside id = false)

namespace Previewed

theorem nil (known : ∀ i ∈ s.attached, s.host.Issued i) : Previewed s s [] where
  more := .refl s
  known := known
  listed _ mem := absurd mem List.not_mem_nil
  kept _ mem := mem
  shown _ _ := ⟨[], [], rfl, nofun, nofun, fun _ => rfl, nofun⟩

/-- A file that is no source file has been opened first. -/
theorem skip (more : Extends s.host.Issued s t) (attached : t.attached = s.attached)
    (project : t.project = s.project) (rest : Previewed t s' ids) : Previewed s s' ids where
  more := more.trans (rest.more.mono fun _ => more.issued)
  known := rest.known
  listed := rest.listed
  kept := attached ▸ rest.kept
  shown := project ▸ rest.shown

/-- A source file has been opened first. -/
theorem cons (more : Extends s.host.Issued s t) (issued : t.host.Issued id)
    (attached : t.attached = s.attached ++ [id])
    (joined : s.enabled = true → Joined s.project.root t id)
    (rest : Previewed t s' ids) : Previewed s s' (id :: ids) where
  more := more.trans (rest.more.mono fun _ => more.issued)
  known := rest.known
  listed i mem := by
    rcases List.mem_cons.1 mem with rfl | later
    · exact rest.kept i (attached ▸ List.mem_append_right _ List.mem_cons_self)
    · exact rest.listed i later
  kept i mem := rest.kept i (attached ▸ List.mem_append_left _ mem)
  shown enabled detected := by
    obtain ⟨before, after, rfl, blank, shown, none, first⟩ := rest.shown enabled detected
    have on : s.enabled = true := more.enabled.symm.trans (rest.more.enabled.symm.trans enabled)
    cases joined on with
    | outside unfound out nothing =>
      refine ⟨id :: before, after, rfl, fun i mem => ?_, shown, fun found => ?_, fun _ => ?_⟩
      · rcases List.mem_cons.1 mem with rfl | later
        · exact ⟨(rest.more.isOutside issued).trans out, rest.more.showsNothing issued nothing⟩
        · exact blank i later
      · rw [← more.project found, unfound] at found
        cases found
      · exact first unfound
    | inside found here shows =>
      obtain rfl := none found
      have same : s'.project = t.project := rest.more.project found
      refine ⟨[], id :: after, rfl, nofun, fun i mem => ?_, fun _ => rfl, fun unfound i mem => ?_⟩
      · rcases List.mem_cons.1 mem with rfl | later
        · exact rest.more.shows issued found (shows (same ▸ detected))
        · exact shown i later
      · obtain rfl := Option.some.inj mem
        exact (rest.more.isOutside issued).trans (here unfound)

end Previewed

end Session

namespace Command

open Session

variable {s s' : CommandSession} {ids : List Handle} {files : List Path}

@[simp] theorem onSession_ok {α : Type} {operation : SessionOperation Int α} {a : α} :
    onSession operation s = .ok a s' ↔ operation s = .ok a s' := by
  unfold onSession
  cases operation s <;> simp

theorem attachFiles_previewed (known : ∀ i ∈ s.attached, s.host.Issued i)
    (run : attachFiles files s = .ok ids s') : Previewed s s' ids := by
  induction files generalizing s ids with
  | nil =>
    obtain ⟨rfl, rfl⟩ := pure_ok.1 run
    exact .nil known
  | cons p rest ih =>
    simp only [attachFiles, bind_ok, onSession_ok] at run
    obtain ⟨id, t, opening, answer, t', attaching, ids', t'', later, last⟩ := run
    obtain ⟨rfl, rfl⟩ := pure_ok.1 last
    obtain ⟨more, issued, place⟩ := attachFile_joined known opening attaching
    rcases place with ⟨rfl, attached, project⟩ | ⟨rfl, attached, joined⟩
    · have known' : ∀ i ∈ t'.attached, t'.host.Issued i := fun i mem =>
        more.issued (known i (attached ▸ mem))
      exact (ih known' later).skip more attached project
    · have known' : ∀ i ∈ t'.attached, t'.host.Issued i := by
        intro i mem
        rw [attached] at mem
        rcases List.mem_append.1 mem with before | new
        · exact more.issued (known i before)
        · exact List.mem_singleton.1 new ▸ issued
      exact (ih known' later).cons more issued attached joined

/-! ## What a command opens -/

section Opening

variable {a : Arguments} {p : Path}

theorem attempt_keeps {α ε : Type} (cause : ε → CommandFailure) (x : Except ε α) :
    Keeps (fun s : CommandSession => s) (Command.attempt cause x) := by
  cases x with
  | ok a => exact .pure a
  | error e => exact .throw _

theorem absolutePath_keeps (argument : String) :
    Keeps (fun s : CommandSession => s) (absolutePath argument) :=
  Keeps.get.bind fun _ => attempt_keeps _ _

theorem absolutePath_ok {argument : String} :
    absolutePath argument s = .ok p s' ↔
      s.workspace.absolute (Path.parse argument) = .ok p ∧ s = s' := by
  simp only [absolutePath, bind_ok, get_ok, exists_both_eq]
  cases s.workspace.absolute (Path.parse argument) with
  | ok q => simp [Command.attempt]
  | error e => simp [Command.attempt]

/-- The options that have been loaded, or what there is to tell about them. -/
def acceptOptions : Except OptionsError PreviewOptions → CommandOperation PreviewOptions
  | .ok options => return options
  | .error e =>
    match e.message? with
    | some message => complain (.options message)
    | none => throw (.failed (.options e))

theorem acceptOptions_keeps (loaded : Except OptionsError PreviewOptions) :
    Keeps (fun s : CommandSession => s) (acceptOptions loaded) := by
  unfold acceptOptions
  split
  · exact .pure _
  · split
    · exact .throw _
    · exact .throw _

theorem optionsFor_keeps (p : Path) (config : Option (Slot String)) :
    Keeps (fun s : CommandSession => s) (optionsFor p config) := by
  refine Keeps.get.bind fun s => ?_
  cases config with
  | none =>
    exact (attempt_keeps _ _).bind fun _ => (attempt_keeps _ _).bind fun _ =>
      (Keeps.pure _).bind acceptOptions_keeps
  | some slot =>
    cases slot with
    | leftOpen => exact (Keeps.throw _).bind acceptOptions_keeps
    | filled argument =>
      exact (absolutePath_keeps _).bind fun _ => (Keeps.pure _).bind acceptOptions_keeps

theorem filesAt_keeps (p : Path) : Keeps (fun s : CommandSession => s) (filesAt p) := by
  refine Keeps.get.bind fun s => (attempt_keeps _ _).bind fun isDirectory => ?_
  exact .ite (attempt_keeps _ _) (.pure _)

theorem complain_ok {α : Type} {c : Complaint} {x : α} :
    (complain c : CommandOperation α) s = .ok x s' ↔ False := throw_ok

/-- A command attaches its files under the options that it has found. Then there is a project, and
the locale that is asked for, if there is one, is displayed. -/
theorem openPreviews_ok (run : openPreviews a p s = .ok ids s') :
    ∃ options files t,
      filesAt p { s with options := options, enabled := options.enabled } =
        .ok files { s with options := options, enabled := options.enabled } ∧
      attachFiles files { s with options := options, enabled := options.enabled } = .ok ids t ∧
      t.project.isDetected = true ∧
      (a.locale = none ∧ s' = t ∨
        a.locale ≠ none ∧ ∃ locale, Session.selectLocale locale t = .ok true s') := by
  simp only [openPreviews, bind_ok, ite_ok, get_ok, exists_both_eq, modify_ok, exists_unit_eq,
    complain_ok, false_and, exists_false, and_false, false_or] at run
  obtain ⟨options, t₀, loaded, files, t₁, found, ids', t, attached, detected, shown⟩ := run
  obtain rfl : t₀ = s := (optionsFor_keeps p a.config).ok loaded
  obtain rfl : t₁ = _ := (filesAt_keeps p).ok found
  simp only [Bool.not_eq_true, Bool.not_eq_false'] at detected
  cases asked : a.locale with
  | none =>
    rw [asked] at shown
    obtain ⟨rfl, rfl⟩ := pure_ok.1 shown
    exact ⟨options, files, t, found, attached, detected, .inl ⟨rfl, rfl⟩⟩
  | some slot =>
    simp only [asked, bind_ok, ite_ok, complain_ok, and_false, or_false] at shown
    obtain ⟨answer, t', selected, rfl, last⟩ := shown
    obtain ⟨rfl, rfl⟩ := pure_ok.1 last
    refine ⟨options, files, t, found, attached, detected, .inr ⟨Option.some_ne_none _, ?_⟩⟩
    cases slot with
    | filled locale => exact ⟨locale, onSession_ok.1 selected⟩
    | leftOpen => cases refuseLocale_answer (onSession_ok.1 selected)

/-- What a command does with the buffers that it has opened. -/
def finish (a : Arguments) (p : Path) (ids : List Handle) : CommandOperation CommandReport := do
  let s ← get
  match a.command with
  | .annotate =>
    return { output := if a.json then AnnotationRow.document (s.annotationRows ids)
      else annotationText s ids }
  | .hover => hoverAt p a.line a.column ids
  | .check =>
    let rows := s.missingRows ids
    return { code := if rows.isEmpty then 0 else 1, output := String.join (rows.map (·.lineText)) }
  | .watch => return { output := annotationText s ids, buffers := ids }

theorem report_finishes (a : Arguments) : report a = (do
    let p ← absolutePath a.path
    if !(← Command.attempt .file ((← get).workspace.existsAt p)) then complain (.noSuchPath p)
    let ids ← openPreviews a p
    finish a p ids) := rfl

/-- The buffers of a command have been opened and attached. -/
def Reaches (a : Arguments) (p : Path) (s : CommandSession) (ids : List Handle)
    (s' : CommandSession) : Prop :=
  absolutePath a.path s = .ok p s ∧ s.workspace.existsAt p = .ok true ∧
    openPreviews a p s = .ok ids s'

theorem report_ok {r : CommandReport} : report a s = .ok r s' ↔
    ∃ p ids t, Reaches a p s ids t ∧ finish a p ids t = .ok r s' := by
  simp only [report_finishes, bind_ok, ite_ok, get_ok, exists_both_eq, complain_ok, false_and,
    exists_false, and_false, false_or]
  constructor
  · rintro ⟨p, t, absolute, answer, u, here, found, ids, t', opened, finished⟩
    obtain rfl : answer = true := by simpa using found
    obtain rfl : t = s := (absolutePath_keeps a.path).ok absolute
    cases read : t.workspace.existsAt p with
    | error e =>
      rw [read] at here
      exact (throw_ok.1 here).elim
    | ok answer =>
      rw [read] at here
      obtain ⟨rfl, rfl⟩ := pure_ok.1 here
      exact ⟨p, ids, t', ⟨absolute, read, opened⟩, finished⟩
  · rintro ⟨p, ids, t, ⟨absolute, here, opened⟩, finished⟩
    refine ⟨p, s, absolute, true, s, ?_, by simp, ids, t, opened, finished⟩
    rw [here]
    exact pure_ok.2 ⟨rfl, rfl⟩

/-- Displaying another locale draws all attached buffers anew. -/
theorem shows_of_selectLocale {t : CommandSession} {locale : String} {id : Handle} {b : Buffer}
    (enabled : t.enabled = true) (detected : t.project.isDetected = true) (mem : id ∈ t.attached)
    (isOpen : t.host.buffers.get? id = some b)
    (run : Session.selectLocale locale t = .ok true s') : s'.Shows id := by
  obtain ⟨messages, project⟩ := selectLocale_project run
  have still : s'.project.isDetected = true := by
    rw [project]
    exact detected
  obtain ⟨u, same, drawn⟩ := selectLocale_refreshed run
  have on : u.enabled = true := (congrArg EditorSide.enabled same).trans enabled
  have attached : u.attached = t.attached := congrArg EditorSide.attached same
  have host : u.host = t.host := congrArg EditorSide.host same
  rw [if_pos on] at drawn
  obtain ⟨b', isOpen', -, shown⟩ := drawn.drawn (attached ▸ mem) (host ▸ isOpen)
  rw [if_pos still] at shown
  exact ⟨b', isOpen', shown⟩

theorem selectLocale_options {t : CommandSession} {locale : String}
    (run : Session.selectLocale locale t = .ok true s') : s'.options = t.options := by
  obtain ⟨u, same, drawn⟩ := selectLocale_refreshed run
  have options : u.options = t.options := congrArg EditorSide.options same
  rw [drawn.outside]
  exact options

/-- The elements up to the first one that fails a test are a prefix that ends there. -/
theorem takeWhile_append_head {δ : Type} {q : δ → Bool} {before after : List δ}
    (all : ∀ x ∈ before, q x = true) (first : ∀ x ∈ after.head?, q x = false) :
    (before ++ after).takeWhile q = before := by
  rw [List.takeWhile_append_of_pos all]
  cases after with
  | nil => simp
  | cons x rest => simp [first x rfl]

/-- What the buffers of a command show. Unless a locale is asked for, those before the first one in
a project show nothing, and the others show their annotations. -/
theorem reaches_shown {w : Workspace} (reached : Reaches a p (initialSession w) ids s')
    (enabled : s'.options.enabled = true) :
    (a.locale ≠ none ∧ ∀ id ∈ ids, s'.Shows id) ∨
      a.locale = none ∧ ∃ after, ids = ids.takeWhile s'.isOutside ++ after ∧
        (∀ id ∈ ids.takeWhile s'.isOutside, s'.ShowsNothing id) ∧ ∀ id ∈ after, s'.Shows id := by
  obtain ⟨-, -, opened⟩ := reached
  obtain ⟨options, files, t, -, attached, detected, last⟩ := openPreviews_ok opened
  have previewed := attachFiles_previewed (fun _ mem => absurd mem List.not_mem_nil) attached
  have same : s'.options = t.options := by
    rcases last with ⟨-, rfl⟩ | ⟨-, locale, selected⟩
    · rfl
    · exact selectLocale_options selected
  have on : t.enabled = true := by
    rw [same, previewed.more.options] at enabled
    exact previewed.more.enabled.trans enabled
  obtain ⟨before, after, split, blank, shown, -, first⟩ := previewed.shown on detected
  rcases last with ⟨unasked, rfl⟩ | ⟨asked, locale, selected⟩
  · have outside : ids.takeWhile s'.isOutside = before := by
      rw [split]
      exact takeWhile_append_head (fun id mem => (blank id mem).1) (first rfl)
    rw [outside]
    exact .inr ⟨unasked, after, split, fun id mem => (blank id mem).2, shown⟩
  · refine .inl ⟨asked, fun id mem => ?_⟩
    have isOpen : ∃ b, t.host.buffers.get? id = some b := by
      rw [split] at mem
      rcases List.mem_append.1 mem with early | late
      · exact (blank id early).2.imp fun _ => And.left
      · exact (shown id late).imp fun _ => And.left
    obtain ⟨b, isOpen⟩ := isOpen
    exact shows_of_selectLocale on detected (previewed.listed id mem) isOpen selected

/-! ## Files that are known -/

/-- What is left to do when the files to preview are known. -/
def previewFiles (a : Arguments) (p : Path) (files : List Path) :
    CommandOperation (List Handle) := do
  let ids ← attachFiles files
  if !(← get).project.isDetected then complain (.noProject p)
  match a.locale with
  | none => return ids
  | some locale =>
    if ← selectLocale locale then return ids
    else complain (.unknownLocale locale)

theorem openPreviews_previews (a : Arguments) (p : Path) : openPreviews a p = (do
    let options ← optionsFor p a.config
    modify fun s => { s with options := options, enabled := options.enabled }
    previewFiles a p (← filesAt p)) := rfl

/-- Begins the previews of files that are known. -/
def openFiles (a : Arguments) (p : Path) (files : List Path) :
    CommandOperation (List Handle) := do
  let options ← optionsFor p a.config
  modify fun s => { s with options := options, enabled := options.enabled }
  previewFiles a p files

theorem openPreviews_of_files (isDirectory : s.workspace.isDirectory p = .ok true)
    (found : sourceFiles s.workspace p = .ok files) :
    openPreviews a p s = openFiles a p files s := by
  cases loaded : optionsFor p a.config s with
  | error e t => simp only [openPreviews_previews, openFiles, bind, EStateM.bind, loaded]
  | ok options t =>
    obtain rfl : t = s := (optionsFor_keeps p a.config).ok loaded
    have listed : filesAt p { t with options := options, enabled := options.enabled } =
        .ok files { t with options := options, enabled := options.enabled } := by
      simp only [filesAt, bind_ok, get_ok, exists_both_eq, ite_ok, isDirectory, found]
      exact ⟨true, _, pure_ok.2 ⟨rfl, rfl⟩, .inl ⟨rfl, pure_ok.2 ⟨rfl, rfl⟩⟩⟩
    have set : (modify fun s => { s with options := options, enabled := options.enabled } :
        CommandOperation Unit) t =
          .ok () { t with options := options, enabled := options.enabled } := modify_ok.2 rfl
    rw [openPreviews_previews, bind_of_ok loaded, bind_of_ok set, bind_of_ok listed, openFiles,
      bind_of_ok loaded, bind_of_ok set]

theorem report_of_files (absolute : absolutePath a.path s = .ok p s)
    (here : s.workspace.existsAt p = .ok true) (isDirectory : s.workspace.isDirectory p = .ok true)
    (found : sourceFiles s.workspace p = .ok files) :
    report a s = (do
      let ids ← openFiles a p files
      finish a p ids : CommandOperation CommandReport) s := by
  have exists' : Command.attempt .file (s.workspace.existsAt p) s = .ok true s := by
    rw [here]
    exact pure_ok.2 ⟨rfl, rfl⟩
  rw [report_finishes, bind_of_ok absolute, bind_of_ok (get_ok.2 ⟨rfl, rfl⟩), bind_of_ok exists']
  simp only [bind, EStateM.bind, openPreviews_of_files isDirectory found, Bool.not_true,
    Bool.false_eq_true, if_false]

end Opening

end Command

end MessageLens
