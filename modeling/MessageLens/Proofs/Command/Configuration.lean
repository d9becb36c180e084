import MessageLens.Proofs.Command.Opening
import MessageLens.Proofs.Options.Loading

/-!
# What a command says of its options

A command reads the options file that the user names, or else the one at the root of the project.
If the options do not load, it ends with the words that there are for that and the exit code of a
mistake. For a content that is not foreseen there are no words, and the command fails.
-/

namespace MessageLens
set_option autoImplicit false

namespace Command

open Operation

variable {w : Workspace} {a : Arguments} {p file : Path} {e : OptionsError}
  {s s' : CommandSession}

/-- The options file that a command with a path reads. -/
inductive ReadsOptions (w : Workspace) (a : Arguments) (p : Path) : Path → Prop where
  | named {argument : String} {file : Path} (asked : a.config = some (.filled argument))
      (place : w.absolute (Path.parse argument) = .ok file) : ReadsOptions w a p file
  | found {isDirectory : Bool} {root : Option Path} (unasked : a.config = none)
      (tested : w.isDirectory p = .ok isDirectory) (searched : findProjectRoot w p = .ok root)
      (there : w.isFile ((root.getD (if isDirectory then p else p.parent)).child optionsFileName) =
        .ok true) :
      ReadsOptions w a p ((root.getD (if isDirectory then p else p.parent)).child optionsFileName)

/-- How a command ends whose options do not load. -/
def stopFor (e : OptionsError) : CommandStop :=
  match e.message? with
  | some message => .told (.options message)
  | none => .failed (.options e)

theorem acceptOptions_error : acceptOptions (.error e) s = .error (stopFor e) s := by
  rw [acceptOptions, stopFor]
  cases e.message? <;> rfl

theorem optionsFor_error (reads : ReadsOptions s.workspace a p file)
    (failed : loadOptionsFile s.workspace file = .error e) :
    optionsFor p a.config s = .error (stopFor e) s := by
  cases reads with
  | named asked place =>
    rw [asked]
    show (absolutePath _ >>= fun q => acceptOptions (loadOptionsFile s.workspace q)) s = _
    rw [bind_of_ok (absolutePath_ok.2 ⟨place, rfl⟩), failed]
    exact acceptOptions_error
  | @found isDirectory root unasked tested searched there =>
    rw [unasked]
    have loaded : loadOptions s.workspace (root.getD (if isDirectory then p else p.parent)) =
        .error e := by
      rw [loadOptions]
      simp only [there, failed]
    show (Command.attempt .file (s.workspace.isDirectory p) >>= fun isDirectory =>
      Command.attempt .path (findProjectRoot s.workspace p) >>= fun root =>
      acceptOptions (loadOptions s.workspace
        (root.getD (if isDirectory then p else p.parent)))) s = _
    rw [tested, searched]
    show acceptOptions (loadOptions s.workspace
      (root.getD (if isDirectory then p else p.parent))) s = _
    rw [loaded]
    exact acceptOptions_error

theorem openPreviews_error (reads : ReadsOptions s.workspace a p file)
    (failed : loadOptionsFile s.workspace file = .error e) :
    openPreviews a p s = .error (stopFor e) s := by
  rw [openPreviews_previews]
  exact bind_error.2 (.inl (optionsFor_error reads failed))

/-- Options are loaded before a command does anything else with its path. -/
theorem report_error (place : s.workspace.absolute (Path.parse a.path) = .ok p)
    (here : s.workspace.existsAt p = .ok true) (reads : ReadsOptions s.workspace a p file)
    (failed : loadOptionsFile s.workspace file = .error e) :
    report a s = .error (stopFor e) s := by
  have exists' : Command.attempt .file (s.workspace.existsAt p) s = .ok true s := by
    rw [here]
    exact pure_ok.2 ⟨rfl, rfl⟩
  rw [report_finishes, bind_of_ok (absolutePath_ok.2 ⟨place, rfl⟩),
    bind_of_ok (get_ok.2 ⟨rfl, rfl⟩), bind_of_ok exists']
  simp only [Bool.not_true, Bool.false_eq_true, if_false]
  exact bind_error.2 (.inl (openPreviews_error reads failed))

/-- Nothing has been logged by then, so the words stand alone. -/
theorem execute_error (place : w.absolute (Path.parse a.path) = .ok p)
    (here : w.existsAt p = .ok true) (reads : ReadsOptions w a p file)
    (failed : loadOptionsFile w file = .error e) (pauses : List Pause) :
    execute w a pauses = match e.message? with
      | some message => .ok { code := 2, output := "", errors := "error: " ++ message ++ "\n" }
      | none => .error (.options e) := by
  have stops : run a pauses (initialSession w) = .error (stopFor e) (initialSession w) :=
    bind_error.2 (.inl (report_error place here reads failed))
  rw [execute, stops, stopFor]
  cases e.message? with
  | none => rfl
  | some message =>
    have quiet : logText a (initialSession w) = "" := rfl
    dsimp only
    rw [quiet, String.empty_append]
    rfl

/-- Whether the options of a file that is accepted load is told in words unless the content of the
file is not foreseen, that is, no text or a text with a number that is too long. A command ends with
these words and the exit code of a mistake, and fails where there are none. -/
theorem options_answered (w : Workspace) (file : Path) :
    (IsAccepted file →
      ((∃ e, loadOptionsFile w file = .error e ∧ e.message? = none) ↔
        ∃ content, w.read file = .ok content ∧ IsUnforeseen content) ∧
      ((∀ content, w.read file = .ok content → ¬ IsUnforeseen content) →
        (∃ options, loadOptionsFile w file = .ok options) ∨
        ∃ e message, loadOptionsFile w file = .error e ∧ e.message? = some message ∧
          Reported w file e message)) ∧
    (∀ content, IsUnforeseen content → (∀ cs, content ≠ Utf8.encode cs) ∨
      ∃ cs, content = Utf8.encode cs ∧ Toml.HasLongNumber cs) ∧
    ∀ a p e pauses, w.absolute (Path.parse a.path) = .ok p → w.existsAt p = .ok true →
      ReadsOptions w a p file → loadOptionsFile w file = .error e →
        (∀ message, e.message? = some message → execute w a pauses =
          .ok { code := 2, output := "", errors := "error: " ++ message ++ "\n" }) ∧
        (e.message? = none → execute w a pauses = .error (.options e)) := by
  refine ⟨fun accepted => ⟨?_, fun foreseen => ?_⟩, fun content unforeseen => ?_, ?_⟩
  · constructor
    · rintro ⟨e, failed, untold⟩
      rcases loadOptionsFile_cases w accepted with
        ⟨options, loaded⟩ | ⟨e', message, told, reported⟩ | ⟨-, content, -, -, read, unforeseen⟩
      · rw [loaded] at failed
        cases failed
      · rw [told] at failed
        cases failed
        rw [reported.message?] at untold
        cases untold
      · exact ⟨content, read, unforeseen⟩
    · rintro ⟨content, read, unforeseen⟩
      exact loadOptionsFile_unforeseen read unforeseen
  · rcases loadOptionsFile_cases w accepted with
      loaded | ⟨e, message, told, reported⟩ | ⟨-, content, -, -, read, unforeseen⟩
    · exact .inl loaded
    · exact .inr ⟨e, message, told, reported.message?, reported⟩
    · exact (foreseen content read unforeseen).elim
  · exact unforeseen.imp_right fun ⟨cs, same, tooLong⟩ =>
      ⟨cs, same, Toml.hasLongNumber_of_ofChars tooLong⟩
  · intro a p e pauses place here reads failed
    have ends := execute_error place here reads failed pauses
    constructor
    · intro message told
      rw [ends, told]
    · intro untold
      rw [ends, untold]

/-- A source file, an options file whose only byte begins no character, and one with a key alone. -/
def unusableOptions : Workspace where
  disk := ⟨[(["a.ts"], .file [] 0), (["bytes.toml"], .file [0xFF] 0),
    (["key.toml"], .file "receiver".toUTF8.toList 0)]⟩

/-- A check of the source file with one of these options files. -/
def checkWith (config : String) : Arguments :=
  { command := .check, path := "a.ts", config := some (.filled config) }

/-- There are words for the key, but not for the byte. -/
theorem options_answered_unusable :
    execute unusableOptions (checkWith "key.toml") [] =
      .ok { code := 2, output := "", errors := "error: Invalid TOML in /key.toml\n" } ∧
    execute unusableOptions (checkWith "bytes.toml") [] = .error (.options .undecodable) := by
  have place (config : String) : unusableOptions.absolute (Path.parse (checkWith config).path) =
      .ok ⟨.root, ["a.ts"]⟩ := by
    show unusableOptions.absolute (Path.parse "a.ts") = _
    decide +kernel
  have here : unusableOptions.existsAt ⟨.root, ["a.ts"]⟩ = .ok true := by decide +kernel
  have malformed : loadOptionsFile unusableOptions ⟨.root, ["key.toml"]⟩ =
      .error (.malformed ⟨.root, ["key.toml"]⟩) := by
    decide +kernel
  have undecodable : loadOptionsFile unusableOptions ⟨.root, ["bytes.toml"]⟩ =
      .error .undecodable := by
    decide +kernel
  constructor
  · obtain ⟨-, -, ends⟩ := options_answered unusableOptions ⟨.root, ["key.toml"]⟩
    exact (ends _ _ _ [] (place "key.toml") here (.named rfl (by decide +kernel)) malformed).1
      "Invalid TOML in /key.toml" (by decide +kernel)
  · obtain ⟨-, -, ends⟩ := options_answered unusableOptions ⟨.root, ["bytes.toml"]⟩
    exact (ends _ _ _ [] (place "bytes.toml") here (.named rfl (by decide +kernel)) undecodable).2
      rfl

/-- A file whose options do not load, and nothing to say about it. -/
theorem undecodable_untold : IsAccepted ⟨.root, ["bytes.toml"]⟩ ∧
    loadOptionsFile unusableOptions ⟨.root, ["bytes.toml"]⟩ = .error .undecodable ∧
    OptionsError.undecodable.message? = none := by
  refine ⟨?_, by decide +kernel, rfl⟩
  unfold IsAccepted
  decide +kernel

end Command

end MessageLens
