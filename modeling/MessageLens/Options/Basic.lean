import MessageLens.Reference.Basic

/-!
# Options

How previews look and when they are refreshed. The names of styles are passed on to the editor as
they are.
-/

namespace MessageLens
set_option autoImplicit false

/-- The settings file that marks a project, relative to the root of the project. -/
def defaultMarker : String := "project.inlang/settings.json"

/-- Appearance of the annotations. -/
structure VirtualTextOptions where
  /-- The text before every value. -/
  lead : String := " -> "
  highlightResolved : String := "Comment"
  highlightMissingKey : String := "DiagnosticError"
  highlightMissingLocale : String := "DiagnosticWarn"
  /-- The greatest length of a value that is not cut. -/
  maxLength : Int := 50
  /-- Whether the locales that lack a key are listed. -/
  showMissing : Bool := true
  /-- The text before the list of locales that lack a key. -/
  missingLead : String := "  X "
  highlightMissingLocales : String := "DiagnosticError"
  deriving DecidableEq, Repr, Inhabited

/-- The panel that shows a message in every locale. -/
structure HoverOptions where
  enabled : Bool := true
  /-- Idle time before the panel opens. -/
  delayMs : Int := 300
  deriving DecidableEq, Repr, Inhabited

/-- All options of a preview. -/
structure PreviewOptions where
  enabled : Bool := true
  /-- The delay that turns a burst of edits into one render. -/
  debounceMs : Int := 150
  virtualText : VirtualTextOptions := {}
  hover : HoverOptions := {}
  /-- The settings file that marks a project. -/
  marker : String := defaultMarker
  /-- The identifier that message functions are called on. -/
  receiver : String := defaultReceiver
  deriving DecidableEq, Repr, Inhabited

/-- Identifiers that may serve as a receiver. -/
def isReceiver (cs : List Char) : Bool :=
  match cs with
  | [] => false
  | c :: rest => isKeyStart c && rest.all isKeyChar

end MessageLens
