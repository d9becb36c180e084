import MessageLens.Options.File
import MessageLens.Proofs.File.Access
import MessageLens.Proofs.Text.Utf8
import MessageLens.Proofs.Toml.LongNumbers

/-!
# When options load

An options file that cannot be read, that is no TOML or that holds no valid options is reported in
words of its own. Two contents are not foreseen: bytes that are no text, and a number that is too
long for the reader.
-/

namespace MessageLens
set_option autoImplicit false

variable {w : Workspace} {file : Path} {content : Bytes} {e : OptionsError}

/-- Bytes that are no text, or a text with a number that stops the reader. -/
def IsUnforeseen (content : Bytes) : Prop :=
  (∀ cs, content ≠ Utf8.encode cs) ∨
    ∃ cs, content = Utf8.encode cs ∧ Toml.ofChars cs = .error .numberTooLong

/-- What is said of a file whose options do not load: that it cannot be read, that it is no TOML, or
that the options are not valid. -/
inductive Reported (w : Workspace) (file : Path) : OptionsError → String → Prop where
  | unreadable {cause : FileError} (failed : w.read file = .error cause) :
      Reported w file (.unreadable file cause) ("Cannot read " ++ file.text)
  | malformed {cs : List Char} (read : w.read file = .ok (Utf8.encode cs))
      (failed : Toml.ofChars cs = .error .malformed) :
      Reported w file (.malformed file) ("Invalid TOML in " ++ file.text)
  | invalid {cs : List Char} {members : Toml.Members} {issues : List Issue}
      (read : w.read file = .ok (Utf8.encode cs)) (parsed : Toml.ofChars cs = .ok members)
      (failed : PreviewOptions.validateMembers (Toml.toOptions members) = .invalid issues) :
      Reported w file (.invalid file issues) ("Invalid config in " ++ file.text)

theorem Reported.message? {message : String} (reported : Reported w file e message) :
    e.message? = some message := by
  cases reported <;> rfl

theorem decode?_eq_none : Utf8.decode? content = none ↔ ∀ cs, content ≠ Utf8.encode cs := by
  rw [Option.eq_none_iff_forall_ne_some]
  exact forall_congr' fun cs => not_congr Utf8.decode?_eq_some

theorem isUnforeseen_encode {cs : List Char} :
    IsUnforeseen (Utf8.encode cs) ↔ Toml.ofChars cs = .error .numberTooLong := by
  constructor
  · rintro (noText | ⟨cs', same, tooLong⟩)
    · exact (noText cs rfl).elim
    · have decoded := Utf8.decode?_eq_some.2 same
      rw [Utf8.decode?_eq_some.2 rfl] at decoded
      rwa [Option.some.inj decoded]
  · exact fun tooLong => .inr ⟨cs, rfl, tooLong⟩

/-- Options that load, an error for which there are words, or a content that is not foreseen. -/
theorem loadOptionsFile_cases (w : Workspace) {file : Path} (accepted : IsAccepted file) :
    (∃ options, loadOptionsFile w file = .ok options) ∨
    (∃ e message, loadOptionsFile w file = .error e ∧ Reported w file e message) ∨
    ∃ e content, loadOptionsFile w file = .error e ∧ e.message? = none ∧
      w.read file = .ok content ∧ IsUnforeseen content := by
  cases read : w.read file with
  | error cause =>
    refine .inr (.inl ⟨.unreadable file cause, _, ?_, .unreadable read⟩)
    simp only [loadOptionsFile, read, read_reported accepted read, if_true]
  | ok content =>
    have loaded : loadOptionsFile w file = optionsOfContent file content := by
      rw [loadOptionsFile, read]
    rw [loaded, optionsOfContent]
    cases decoded : Utf8.decode? content with
    | none =>
      exact .inr (.inr ⟨_, content, rfl, rfl, rfl, .inl (decode?_eq_none.1 decoded)⟩)
    | some cs =>
      obtain rfl := Utf8.decode?_eq_some.1 decoded
      dsimp only
      cases parsed : Toml.ofChars cs with
      | error cause =>
        cases cause with
        | malformed => exact .inr (.inl ⟨_, _, rfl, .malformed read parsed⟩)
        | numberTooLong =>
          exact .inr (.inr ⟨_, _, rfl, rfl, rfl, isUnforeseen_encode.2 parsed⟩)
      | ok members =>
        dsimp only
        cases checked : PreviewOptions.validateMembers (Toml.toOptions members) with
        | valid options => exact .inl ⟨options, rfl⟩
        | invalid issues => exact .inr (.inl ⟨_, _, rfl, .invalid read parsed checked⟩)

theorem loadOptionsFile_unforeseen (read : w.read file = .ok content)
    (unforeseen : IsUnforeseen content) :
    ∃ e, loadOptionsFile w file = .error e ∧ e.message? = none := by
  rw [loadOptionsFile, read]
  dsimp only [optionsOfContent]
  cases decoded : Utf8.decode? content with
  | none => exact ⟨_, rfl, rfl⟩
  | some cs =>
    obtain rfl := Utf8.decode?_eq_some.1 decoded
    dsimp only
    rw [isUnforeseen_encode.1 unforeseen]
    exact ⟨_, rfl, rfl⟩

end MessageLens
