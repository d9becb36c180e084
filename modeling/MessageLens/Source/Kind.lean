import MessageLens.File.Path

/-!
# Source files

Message references are expected in script and component files, which are known by their suffix.
-/

namespace MessageLens
set_option autoImplicit false

/-- The suffixes of source files, in small letters. -/
def sourceSuffixes : List String :=
  [".js", ".mjs", ".cjs", ".jsx", ".ts", ".mts", ".cts", ".tsx", ".svelte"]

/-- Whether a path names a file in which references are expected. Capitals in the suffix do not
matter; no letter outside ASCII has a small form inside it that a suffix uses. -/
def isSourcePath (p : Path) : Bool := (p.suffix.map Char.toLower) ∈ sourceSuffixes

end MessageLens
