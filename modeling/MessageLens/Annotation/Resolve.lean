import MessageLens.Annotation.Basic
import MessageLens.Message.Flatten
import MessageLens.Options.Basic
import MessageLens.Text.Display

/-!
# Resolving references

A reference is annotated with the message of its key in the displayed locale, or with a marker when
the key or the whole locale is missing, and with the list of project locales that lack the key.
-/

namespace MessageLens
set_option autoImplicit false

/-- The messages of every locale that has been loaded. -/
abbrev Catalog := Table String MessageTable

/-- The messages of a locale; none if it has not been loaded. -/
def Catalog.messages (catalog : Catalog) (locale : String) : MessageTable :=
  (catalog.get? locale).getD ∅

/-- What stands in for the text of a key that the displayed locale lacks. -/
def missingKeyMarker : String := "[missing key]"

/-- What stands in for a text when the displayed locale has no messages. -/
def localeNotLoadedMarker : String := "[locale not loaded]"

/-- The locales of a list that lack a key. -/
def missingLocales (key : String) (catalog : Catalog) (locales : List String) : List String :=
  locales.filter fun locale => !(catalog.messages locale).contains key

/-- The segment for the message of a key in the displayed locale. -/
def primarySegment (options : VirtualTextOptions) (current : MessageTable) (key : String) :
    Segment × Status :=
  match current.get? key with
  | some message =>
    (⟨options.lead ++ "\"" ++ shortText message options.maxLength ++ "\"",
      options.highlightResolved⟩, .resolved)
  | none =>
    if current.isEmpty then
      (⟨options.lead ++ localeNotLoadedMarker, options.highlightMissingLocale⟩, .missingLocale)
    else (⟨options.lead ++ missingKeyMarker, options.highlightMissingKey⟩, .missingKey)

/-- The annotation of a reference, right after its closing parenthesis. -/
def resolveReference (options : VirtualTextOptions) (current : MessageTable) (catalog : Catalog)
    (locales : List String) (r : Reference) : Annotation :=
  let (primary, status) := primarySegment options current r.key
  let missing := if options.showMissing then missingLocales r.key catalog locales else []
  let note : Segment :=
    ⟨options.missingLead ++ ", ".intercalate missing, options.highlightMissingLocales⟩
  { line := r.line
    column := r.colEnd + 1
    segments := if missing.isEmpty then [primary] else [primary, note]
    key := r.key
    status := status
    missing := missing }

/-- The annotations of references, in their order. -/
def resolveReferences (options : VirtualTextOptions) (current : MessageTable) (catalog : Catalog)
    (locales : List String) (references : List Reference) : List Annotation :=
  references.map (resolveReference options current catalog locales)

end MessageLens
