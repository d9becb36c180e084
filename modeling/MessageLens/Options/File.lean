import MessageLens.File.Workspace
import MessageLens.Options.Validation
import MessageLens.Toml.Document

/-!
# The options file

Options are given in a TOML file, by default one of a fixed name at the root of the project. A
project without one has the default options.
-/

namespace MessageLens
set_option autoImplicit false

/-- The name of the options file of a project. -/
def optionsFileName : String := "lazy-watson.toml"

/-- Why options cannot be loaded. -/
inductive OptionsError where
  | unreadable (file : Path) (cause : FileError)
  | malformed (file : Path)
  | invalid (file : Path) (issues : List Issue)
  /-- The file is not UTF-8. -/
  | undecodable
  /-- An integer in the file is too long to be read. -/
  | numberTooLong
  /-- The path cannot be passed to the operating system. -/
  | refused (cause : FileError)
  deriving DecidableEq, Repr

/-- What is said of an options file that cannot be used, where something is. -/
def OptionsError.message? : OptionsError → Option String
  | unreadable file _ => some ("Cannot read " ++ file.text)
  | malformed file => some ("Invalid TOML in " ++ file.text)
  | invalid file _ => some ("Invalid config in " ++ file.text)
  | _ => none

/-- The options in the content of a file. -/
def optionsOfContent (file : Path) (content : Bytes) : Except OptionsError PreviewOptions :=
  match Utf8.decode? content with
  | none => .error .undecodable
  | some cs =>
    match Toml.ofChars cs with
    | .error .malformed => .error (.malformed file)
    | .error .numberTooLong => .error .numberTooLong
    | .ok members =>
      match PreviewOptions.validateMembers (Toml.toOptions members) with
      | .valid options => .ok options
      | .invalid issues => .error (.invalid file issues)

/-- The options in a file that must exist. -/
def loadOptionsFile (w : Workspace) (file : Path) : Except OptionsError PreviewOptions :=
  match w.read file with
  | .ok content => optionsOfContent file content
  | .error e => .error (if e.isReported then .unreadable file e else .refused e)

/-- The options of a project. -/
def loadOptions (w : Workspace) (root : Path) : Except OptionsError PreviewOptions :=
  let file := root.child optionsFileName
  match w.isFile file with
  | .ok true => loadOptionsFile w file
  | .ok false => .ok {}
  | .error e => .error (.refused e)

end MessageLens
