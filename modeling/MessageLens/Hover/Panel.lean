import MessageLens.Annotation.Resolve

/-!
# The hover panel

The panel shows a key underlined as a title, then one line for each locale with the text of the key
or a marker, then a blank line. Highlights name the spans of the title, the locales and the texts.
-/

namespace MessageLens
set_option autoImplicit false

/-- A styled span of a line of the panel. -/
structure Highlight where
  line : Nat
  colStart : Nat
  colEnd : Nat
  style : String
  deriving DecidableEq, Repr, Inhabited

/-- The contents and the size of the panel. -/
structure HoverPanel where
  key : String
  lines : List String
  highlights : List Highlight
  width : Nat
  height : Nat
  deriving DecidableEq, Repr, Inhabited

namespace HoverPanel

/-- The greatest length of a text that the panel shows in full. -/
def defaultMaxLength : Int := 60

/-- The longest line under a title. -/
def maxUnderline : Nat := 40

/-- The greatest width of the panel. -/
def maxWidth : Nat := 80

/-- What stands before every line but the last. -/
def indent : String := "  "

/-- What stands in for the text of a locale that lacks the key. -/
def missingMarker : String := "⚠ [missing]"

/-- The text shown for a locale, with its style. -/
def localeValue (key : String) (catalog : Catalog) (maxLength : Int) (locale : String) :
    String × String :=
  match (catalog.messages locale).get? key with
  | some message => ("\"" ++ shortText message maxLength ++ "\"", "Comment")
  | none => (missingMarker, "DiagnosticWarn")

/-- The line of a locale. -/
def localeLine (locale value : String) : String := indent ++ locale ++ ": " ++ value

/-- The highlights of the line of a locale: its name and its text. -/
def localeHighlights (line : Nat) (locale value style : String) : List Highlight :=
  let nameEnd := indent.length + locale.length
  [⟨line, indent.length, nameEnd, "Identifier"⟩,
    ⟨line, nameEnd + 2, nameEnd + 2 + value.length, style⟩]

/-- The lines and highlights of locales whose first one is shown on line `first`. -/
def localeRows (key : String) (catalog : Catalog) (maxLength : Int) :
    (first : Nat) → List String → List (String × List Highlight)
  | _, [] => []
  | first, locale :: rest =>
    let (value, style) := localeValue key catalog maxLength locale
    (localeLine locale value, localeHighlights first locale value style) ::
      localeRows key catalog maxLength (first + 1) rest

/-- The panel of a key across locales. -/
def build (key : String) (catalog : Catalog) (locales : List String)
    (maxLength : Int := defaultMaxLength) : HoverPanel :=
  let underline := String.ofList (List.replicate (min (key.length + 4) maxUnderline) '─')
  let rows := localeRows key catalog maxLength 2 locales
  let lines := [indent ++ key, indent ++ underline] ++ rows.map (·.1) ++ [""]
  let title : Highlight := ⟨0, indent.length, indent.length + key.length, "Title"⟩
  { key := key
    lines := lines
    highlights := title :: rows.flatMap (·.2)
    width := min ((lines.map String.length).foldl max 0 + 2) maxWidth
    height := lines.length }

end HoverPanel

end MessageLens
