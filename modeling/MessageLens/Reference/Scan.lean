import MessageLens.Reference.Basic
import MessageLens.Reference.Call
import MessageLens.Text.Blank
import MessageLens.Text.Lines

/-!
# Scanning for references

Each physical line is scanned on its own, once for the dotted form and once for the bracketed form.
At every occurrence of the receiver that no word character precedes, the form's head is read: the
key and the parenthesis that opens the call. Scanning resumes after the receiver, or after the
parenthesis when the call does not close on the line.
-/

namespace MessageLens
set_option autoImplicit false
open Text

/-- The head of a call: its key, and how far after the opener its parenthesis stands. -/
structure CallHead where
  key : List Char
  paren : Nat
  deriving DecidableEq, Repr

/-- The offset of the parenthesis at the front of `cs` after any blanks. -/
def parenAfterBlanks? (cs : List Char) : Option Nat :=
  match cs.dropWhile isBlank with
  | '(' :: _ => some (cs.takeWhile isBlank).length
  | _ => none

/-- The two ways to name a message: after a dot, or quoted in brackets. -/
inductive ReferenceForm where
  | dotted
  | bracketed
  deriving DecidableEq, Repr

namespace ReferenceForm

/-- The character that follows the receiver. -/
def opener : ReferenceForm → Char
  | dotted => '.'
  | bracketed => '['

/-- An identifier, blanks and a parenthesis. -/
def dottedHead? : List Char → Option CallHead
  | [] => none
  | c :: cs =>
    if isKeyStart c then
      let key := c :: cs.takeWhile isKeyChar
      (parenAfterBlanks? (cs.dropWhile isKeyChar)).map fun n => ⟨key, key.length + n⟩
    else none

/-- How many characters take up the blanks and the bracket at the front of `cs`. -/
def bracketAfterBlanks? (cs : List Char) : Option Nat :=
  match cs.dropWhile isBlank with
  | ']' :: _ => some ((cs.takeWhile isBlank).length + 1)
  | _ => none

/-- The shortest text before a quote `q` that blanks and a bracket follow, with the number of
characters up to and including that bracket. The text stays on its line. -/
def quotedKey? (q : Char) : List Char → Option (List Char × Nat)
  | [] => none
  | c :: cs =>
    match (if c = q then bracketAfterBlanks? cs else none) with
    | some n => some ([], n + 1)
    | none =>
      if c = '\n' then none
      else (quotedKey? q cs).map fun (key, n) => (c :: key, n + 1)

/-- A quoted key, a bracket, blanks and a parenthesis. -/
def bracketedHead? (cs : List Char) : Option CallHead :=
  match cs.dropWhile isBlank with
  | [] => none
  | q :: rest =>
    if q = '"' ∨ q = '\'' then do
      let (key, n) ← quotedKey? q rest
      let consumed := (cs.takeWhile isBlank).length + 1 + n
      let blanks ← parenAfterBlanks? (rest.drop n)
      return ⟨key, consumed + blanks⟩
    else none

/-- Reads the head of a call right after the opener. -/
def head? : ReferenceForm → List Char → Option CallHead
  | dotted => dottedHead?
  | bracketed => bracketedHead?

/-- Whether a receiver may start after the character `before`. -/
def atBoundary : (before : Option Char) → Bool
  | none => true
  | some c => !isWordChar c

/-- The references of one form on a line from position `pos` on, where `before` is the character
before it. Occurrences of `token` before `resume` are passed over. -/
def scanFrom (form : ReferenceForm) (token : List Char) (line : Int) :
    (pos resume : Nat) → (before : Option Char) → List Char → List Reference
  | _, _, _, [] => []
  | pos, resume, before, c :: cs =>
    if resume ≤ pos ∧ atBoundary before ∧ token.isPrefixOf (c :: cs) then
      let after := (c :: cs).drop token.length
      let afterPos := pos + token.length
      match form.head? after with
      | none => scanFrom form token line (pos + 1) afterPos (some c) cs
      | some head =>
        let openPos := afterPos + head.paren
        match closingFrom 0 none '(' (openPos + 1) (after.drop (head.paren + 1)) with
        | none => scanFrom form token line (pos + 1) (openPos + 1) (some c) cs
        | some closePos =>
          ⟨String.ofList head.key, line, pos, closePos⟩ ::
            scanFrom form token line (pos + 1) afterPos (some c) cs
    else scanFrom form token line (pos + 1) resume (some c) cs

/-- The references of one form on a line, in order of their start. -/
def scan (form : ReferenceForm) (receiver : String) (line : Int) (text : List Char) :
    List Reference :=
  form.scanFrom (receiver.toList ++ [form.opener]) line 0 0 none text

end ReferenceForm

/-- The references on one physical line: those in dotted form first, then those in brackets. -/
def scanLine (receiver : String) (line : Int) (text : List Char) : List Reference :=
  ReferenceForm.dotted.scan receiver line text ++ ReferenceForm.bracketed.scan receiver line text

/-- The references on consecutive lines, numbered from `first`. -/
def scanLines (receiver : String) : (first : Nat) → List (List Char) → List Reference
  | _, [] => []
  | first, l :: ls => scanLine receiver first l ++ scanLines receiver (first + 1) ls

/-- Every message reference in a text, line by line. -/
def findReferences (receiver : String) (text : String) : List Reference :=
  scanLines receiver 0 (lines text.toList)

/-- The key of the reference at a position, if there is one. -/
def keyAt? (receiver : String) (text : String) (line column : Int) : Option String :=
  if line < 0 then none
  else
    ((lines text.toList)[line.toNat]?).bind fun l =>
      ((scanLine receiver line l).find? (·.contains line column)).map (·.key)

end MessageLens
