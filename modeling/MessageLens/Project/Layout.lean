import MessageLens.File.Path

/-!
# Where message files are

A project has one message file per locale. Its path is given by a pattern in which a placeholder
stands for the locale.
-/

namespace MessageLens
set_option autoImplicit false

/-- The placeholder for the locale in a path pattern. -/
def languageTag : List Char := "\x7blanguageTag\x7d".toList

/-- Replaces every occurrence of the placeholder, from left to right; `skip` counts the characters
of an occurrence that are still to be passed over. -/
def fillTagFrom (locale : List Char) : (skip : Nat) → List Char → List Char
  | _, [] => []
  | skip + 1, _ :: cs => fillTagFrom locale skip cs
  | 0, c :: cs =>
    if languageTag.isPrefixOf (c :: cs) then
      locale ++ fillTagFrom locale (languageTag.length - 1) cs
    else c :: fillTagFrom locale 0 cs

/-- The pattern with the locale in every place of the placeholder. -/
def fillTag (pattern locale : List Char) : List Char := fillTagFrom locale 0 pattern

/-- A path relative to the root of the project without a dot and slash at its front. -/
def dropDotSlash : List Char → List Char
  | '.' :: '/' :: cs => cs
  | cs => cs

/-- The message file of a locale under the root of a project. -/
def messagePath (root : Path) (pattern locale : String) : Path :=
  root.join (Path.parse (String.ofList (dropDotSlash (fillTag pattern.toList locale.toList))))

/-- The pattern of a project that has none of its own. -/
def defaultPathPattern : String := "./messages/\x7blanguageTag\x7d.json"

/-- The layouts that are tried for a project that gives no pattern. -/
def commonPathPatterns : List String :=
  ["./messages/\x7blanguageTag\x7d.json", "./src/messages/\x7blanguageTag\x7d.json",
    "./locales/\x7blanguageTag\x7d.json", "./i18n/\x7blanguageTag\x7d.json"]

end MessageLens
