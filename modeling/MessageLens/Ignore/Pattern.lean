import MessageLens.Ignore.Regex
import MessageLens.Text.Blank

/-!
# Ignore patterns

A line of an ignore file is a pattern of paths: asterisks and question marks stand for names or
parts of them, two asterisks between slashes for any directories, brackets for sets of characters.
It is turned into a regular expression over paths relative to the directory of the file.
-/

namespace MessageLens.Ignore
set_option autoImplicit false

/-- Why an ignore file cannot be used. -/
inductive PatternFault where
  /-- Nothing is left of the pattern once its slashes and asterisks are taken off. -/
  | emptied
  /-- The pattern makes no regular expression. -/
  | malformed
  /-- The file is not UTF-8. -/
  | undecodable
  deriving DecidableEq, Repr, Inhabited

/-- Removes the asterisks at the front. -/
def dropStars (cs : List Char) : List Char := cs.dropWhile (· == '*')

/-- Turns runs of asterisks after a character other than a slash into single ones. The search goes
on after each run. -/
def joinStarsAfter : (fuel : Nat) → List Char → List Char
  | 0, cs => cs
  | fuel + 1, cs =>
    match cs with
    | c :: '*' :: '*' :: rest =>
      if c = '/' then c :: joinStarsAfter fuel ('*' :: '*' :: rest)
      else c :: '*' :: joinStarsAfter fuel (dropStars rest)
    | c :: rest => c :: joinStarsAfter fuel rest
    | [] => []

/-- Turns runs of asterisks before a character other than a slash into single ones. -/
def joinStarsBefore : (fuel : Nat) → List Char → List Char
  | 0, cs => cs
  | fuel + 1, cs =>
    match cs with
    | '*' :: '*' :: rest =>
      match dropStars rest with
      | [] => ['*', '*']
      | c :: after =>
        if c = '/' then '*' :: '*' :: joinStarsBefore fuel (c :: after)
        else '*' :: c :: joinStarsBefore fuel after
    | c :: rest => c :: joinStarsBefore fuel rest
    | [] => []

/-- A character of a pattern in a regular expression. -/
def escaped (c : Char) : List Char :=
  if c ∈ "()[]\x7b\x7d?*+-|^$\\.&~# \t\n\r\x0b\x0c".toList then ['\\', c] else [c]

/-- One character of a name. -/
def nonSlash : List Char := "[^/]".toList

/-- A slash. -/
def slash : List Char := "[/]".toList

/-- The characters of a set and what follows its closing bracket. An exclamation mark, and a bracket
after it, do not end the set. -/
def setBody? (cs : List Char) : Option (List Char × List Char) :=
  let bang := cs.takeWhile (· == '!') |>.take 1
  let afterBang := cs.drop bang.length
  let bracket := afterBang.takeWhile (· == ']') |>.take 1
  let rest := afterBang.drop bracket.length
  let inner := rest.takeWhile (· != ']')
  match rest.drop inner.length with
  | _ :: after => some (bang ++ bracket ++ inner, after)
  | [] => none

/-- A set in a regular expression. Slashes are left out and backslashes stand for themselves. -/
def setText (body : List Char) : Except PatternFault (List Char) :=
  match (body.flatMap fun c => if c = '\\' then ['\\', '\\'] else [c]).filter (· != '/') with
  | [] => .error .emptied
  | '!' :: cs => .ok ('[' :: '^' :: cs ++ [']'])
  | '^' :: cs => .ok ('[' :: '\\' :: '^' :: cs ++ [']'])
  | cs => .ok ('[' :: cs ++ [']'])

/-- The text of the regular expression for a pattern without its anchors. -/
def bodyText : (fuel : Nat) → List Char → Except PatternFault (List Char)
  | 0, _ => .ok []
  | _ + 1, [] => .ok []
  | fuel + 1, '*' :: '*' :: '/' :: cs => do return "(.*[/])?".toList ++ (← bodyText fuel cs)
  | fuel + 1, '*' :: '*' :: cs => do return ".*".toList ++ (← bodyText fuel cs)
  | fuel + 1, '*' :: cs => do return nonSlash ++ '*' :: (← bodyText fuel cs)
  | fuel + 1, '?' :: cs => do return nonSlash ++ (← bodyText fuel cs)
  | fuel + 1, '/' :: cs => do return slash ++ (← bodyText fuel cs)
  | fuel + 1, '[' :: cs =>
    match setBody? cs with
    | none => do return '\\' :: '[' :: (← bodyText fuel cs)
    | some (body, cs) => do return (← setText body) ++ (← bodyText fuel cs)
  | fuel + 1, c :: cs => do return escaped c ++ (← bodyText fuel cs)

/-- Removes the spaces at the end that no backslash precedes; a backslash before a space is removed
and keeps that space and the ones before it. `i` is the position looked at. -/
def trimSpaces : (i : Nat) → (strip : Bool) → List Char → List Char
  | 0, _, cs => cs
  | 1, _, cs => cs
  | i + 2, strip, cs =>
    if cs[i + 2]? = some ' ' then
      if cs[i + 1]? = some '\\' then trimSpaces i false (cs.take (i + 1) ++ cs.drop (i + 2))
      else trimSpaces (i + 1) strip (if strip then cs.take (i + 2) else cs)
    else cs

/-- A rule of an ignore file. -/
structure Rule where
  /-- Whether the rule takes paths out again. -/
  negated : Bool
  /-- Its regular expression, if the pattern makes one. -/
  expression : Option Regex
  deriving Inhabited, Repr

/-- Removes a slash at the front; there must be something at the front. -/
def dropSlash : List Char → Except PatternFault (List Char)
  | [] => .error .emptied
  | '/' :: cs => .ok cs
  | cs => .ok cs

/-- The rule of a line, unless it is blank or a comment or names the root. -/
def Rule.ofLine (line : List Char) : Except PatternFault (Option Rule) := do
  if (Text.trim line).isEmpty ∨ line.head? = some '#' then return none
  let negated := line.head? = some '!'
  let cs := if negated then line.drop 1 else line
  let cs := joinStarsAfter (cs.length + 1) cs
  let cs := joinStarsBefore (cs.length + 1) cs
  if Text.trimBack cs = ['/'] then return none
  if cs.isEmpty then throw .emptied
  let directoryOnly := cs.getLast? = some '/'
  let anchored := cs.dropLast.contains '/'
  let cs ← dropSlash cs
  if cs.isEmpty then throw .emptied
  let (cs, anchored) := match cs with
    | '*' :: '*' :: rest => (rest, false)
    | cs => (cs, anchored)
  let cs ← dropSlash cs
  if cs.isEmpty then throw .emptied
  let cs := if cs.getLast? = some '/' then cs.dropLast else cs
  let cs ← match cs with
    | [] => throw .emptied
    | ['\\'] => throw .emptied
    | '\\' :: c :: rest => pure (if c = '#' ∨ c = '!' then c :: rest else cs)
    | cs => pure cs
  let cs := trimSpaces (cs.length - 1) true cs
  let body ← bodyText (cs.length + 1) cs
  let front := if anchored then ['^'] else "(^|[/])".toList
  let back := if !directoryOnly then ['$'] else if negated then ['/', '$'] else "($|\\/)".toList
  return some ⟨negated, Regex.parse? (front ++ body ++ back)⟩

/-- Whether a rule speaks of a path. -/
def Rule.speaksOf (rule : Rule) (path : List Char) : Except PatternFault Bool :=
  match rule.expression with
  | some r => .ok (r.search path)
  | none => .error .malformed

/-- The rules of an ignore file in order. -/
def rulesOfLines : List (List Char) → Except PatternFault (List Rule)
  | [] => .ok []
  | line :: rest => do
    match ← Rule.ofLine line with
    | some rule => return rule :: (← rulesOfLines rest)
    | none => rulesOfLines rest

/-- The first rule of a list that speaks of a path. -/
def firstSpeaking (path : List Char) : List Rule → Except PatternFault (Option Rule)
  | [] => .ok none
  | rule :: rest => do if ← rule.speaksOf path then return some rule else firstSpeaking path rest

/-- Whether rules leave a path out. When some rule takes paths out again, the last rule that speaks
of the path decides; otherwise any rule does. -/
def ignores (rules : List Rule) (path : List Char) : Except PatternFault Bool := do
  if rules.any (·.negated) then
    return (← firstSpeaking path rules.reverse).any (!·.negated)
  else return (← firstSpeaking path rules).isSome

end MessageLens.Ignore
