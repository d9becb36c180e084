import MessageLens.File.Workspace
import MessageLens.Journal
import MessageLens.Json.Parser
import MessageLens.Options.Basic
import MessageLens.Project.Layout

/-!
# Project settings

The settings file of a project names its base locale, its locales and, in one of several places, the
pattern of its message files. Settings that cannot be used are reported and left out.
-/

namespace MessageLens
set_option autoImplicit false

/-- What previews need of a project's settings. -/
structure ProjectSettings where
  baseLocale : String
  locales : List String
  pathPattern : String
  deriving DecidableEq, Repr, Inhabited

/-- The first text of a list that is not empty. -/
def firstText? (values : List Json) : Option String :=
  values.findSome? fun
    | .str s => if s = "" then none else some s
    | _ => none

/-- The pattern that a value carries: a text that is not empty, or the first such text of a list. -/
def carriedPattern? : Json → Option String
  | .str s => firstText? [.str s]
  | .arr values => firstText? values
  | _ => none

/-- The pattern of an object of settings. -/
def ownPattern? : Json → Option String
  | .obj members => (Json.member? members "pathPattern").bind carriedPattern?
  | _ => none

/-- The pattern of the first plugin in a list that has one. -/
def pluginPattern? (settings : List (String × Json)) : Option String :=
  match Json.member? settings "plugin" with
  | some (.arr plugins) => plugins.findSome? ownPattern?
  | _ => none

/-- The pattern of the first member for a plugin that has one. -/
def pluginMemberPattern? (settings : List (String × Json)) : Option String :=
  settings.findSome? fun m =>
    if "plugin.".toList.isPrefixOf m.1.toList then ownPattern? m.2 else none

/-- The pattern that settings give. -/
def configuredPattern? (settings : List (String × Json)) : Option String :=
  pluginPattern? settings <|> pluginMemberPattern? settings <|> ownPattern? (.obj settings)

/-- The first of the layouts whose message file for a locale exists. -/
def probePatterns (w : Workspace) (root : Path) (locale : String) : List String →
    Except FileError (Option String)
  | [] => .ok none
  | pattern :: rest => do
    if ← w.isFile (messagePath root pattern locale) then return some pattern
    else probePatterns w root locale rest

/-- The locale by whose message file a layout is recognised. -/
def probeLocale (settings : List (String × Json)) : String :=
  match Json.member? settings "baseLocale" with
  | some (.str locale) => locale
  | _ => "en"

/-- The pattern of a project's message files, if it is given or a layout is recognised. -/
def choosePattern (w : Workspace) (root : Path) (settings : List (String × Json)) :
    Except FileError (Option String) :=
  match configuredPattern? settings with
  | some pattern => .ok (some pattern)
  | none => probePatterns w root (probeLocale settings) commonPathPatterns

/-- The locales of a list, if all are texts. -/
def localeList? : Json → Option (List String)
  | .arr values => values.mapM fun
    | .str s => some s
    | _ => none
  | _ => none

/-- A record about settings. -/
def settingsRecord (level : LogLevel) (message : String) : LogRecord :=
  ⟨level, "messages.project", message⟩

/-- The settings of an object, or the record that says why it has none. -/
def settingsOfObject (file : Path) (settings : List (String × Json)) (pattern : Option String) :
    Except LogRecord ProjectSettings :=
  match Json.given? settings "baseLocale", Json.given? settings "locales" with
  | some base, some locales =>
    match base, localeList? locales with
    | .str base, some locales => .ok ⟨base, locales, pattern.getD defaultPathPattern⟩
    | _, _ =>
      .error (settingsRecord .warning
        ("Invalid inlang settings " ++ file.text ++ ": <ValidationError>"))
  | _, _ =>
    .error (settingsRecord .warning
      ("Inlang settings missing baseLocale or locales: " ++ file.text))

/-- The settings in the content of a settings file, or the record that says why there are none. -/
def settingsOfContent (w : Workspace) (root file : Path) (content : Bytes) :
    Except FileError (Except LogRecord ProjectSettings) :=
  match Json.ofBytes? content with
  | none =>
    .ok (.error (settingsRecord .error
      ("Failed to parse inlang settings " ++ file.text ++ ": <JSONDecodeError>")))
  | some (.obj settings) =>
    (choosePattern w root settings).map (settingsOfObject file settings)
  | some _ =>
    .ok (.error (settingsRecord .error
      ("Inlang settings " ++ file.text ++ " is not a JSON object")))

/-- The settings of a project, or the record that says why it has none. -/
def loadSettings (w : Workspace) (root : Path) (marker : String := defaultMarker) :
    Except FileError (Except LogRecord ProjectSettings) :=
  let file := root.join (Path.parse marker)
  match w.read file with
  | .ok content => settingsOfContent w root file content
  | .error e =>
    if e.isReported then
      .ok (.error (settingsRecord .warning
        ("Cannot read inlang settings " ++ file.text ++ ": <" ++ e.name ++ ">")))
    else .error e

end MessageLens
