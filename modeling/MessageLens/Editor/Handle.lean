import MessageLens.Text.Quoted

/-!
# Handles

An editor names its buffers by numbers or by words.
-/

namespace MessageLens
set_option autoImplicit false

/-- A number or a word that stands for a buffer, or for whatever else a timer belongs to. -/
inductive Handle where
  | number (n : Int)
  | word (s : String)
  deriving DecidableEq, Repr, Inhabited

/-- A handle as messages show it: words are quoted. -/
def Handle.text : Handle → String
  | number n => toString n
  | word s => quoted s

end MessageLens
