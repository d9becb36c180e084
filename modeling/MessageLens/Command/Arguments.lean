import MessageLens.Number.Decimal

/-!
# Arguments

A command is given by its name, the words it needs, and switches in any order among them. A flag is
on or off, and several flags may share a dash as letters. A setting carries a value, after an equals
sign or as the next argument. Two dashes alone end the switches; in the place of a value they leave
it open.

Arguments are read from left to right, and the first that cannot be used, or that asks for help,
decides the answer. Only words and switches that the command has no use for are put off to the end.
-/

namespace MessageLens
set_option autoImplicit false

/-- The commands. -/
inductive CommandName where
  | annotate
  | hover
  | check
  | watch
  deriving DecidableEq, Repr, Inhabited

/-- The switches that are on or off. -/
inductive Flag where
  | help
  | verbose
  | json
  deriving DecidableEq, Repr, Inhabited

/-- The switches that carry a value. -/
inductive Setting where
  | config
  | locale
  | interval
  | maxPolls
  deriving DecidableEq, Repr, Inhabited

/-- A switch of a command. -/
inductive Switch where
  | flag (f : Flag)
  | setting (s : Setting)
  deriving DecidableEq, Repr, Inhabited

/-- The letter of a flag. -/
def Flag.letter? : Flag → Option Char
  | help => some 'h'
  | verbose => some 'v'
  | json => none

namespace Switch

/-- The spelling of a switch. -/
def spelling : Switch → String
  | flag .help => "--help"
  | flag .verbose => "--verbose"
  | flag .json => "--json"
  | setting .config => "--config"
  | setting .locale => "--locale"
  | setting .interval => "--interval"
  | setting .maxPolls => "--max-polls"

/-- The switches, among those that can be given, which a name stands for: the one of that spelling,
or else all whose spelling begins so. -/
def named (switches : List Switch) (name : List Char) : List Switch :=
  match switches.find? (·.spelling.toList == name) with
  | some s => [s]
  | none => switches.filter (name.isPrefixOf ·.spelling.toList)

/-- The flag of a letter, among the switches that can be given. -/
def ofLetter? (switches : List Switch) (letter : Char) : Option Flag :=
  switches.findSome? fun
    | flag f => if f.letter? = some letter then some f else none
    | setting _ => none

end Switch

namespace CommandName

/-- The command of a name. -/
def ofText? : String → Option CommandName
  | "annotate" => some annotate
  | "hover" => some hover
  | "check" => some check
  | "watch" => some watch
  | _ => none

/-- The switches of a command. -/
def switches (command : CommandName) : List Switch :=
  [.flag .help, .setting .config, .setting .locale, .flag .verbose] ++
    match command with
    | annotate => [.flag .json]
    | watch => [.setting .interval, .setting .maxPolls]
    | _ => []

end CommandName

/-- The switches before the name of a command. -/
def leadingSwitches : List Switch := [.flag .help]

/-- Two dashes alone. -/
def divider : String := "--"

/-- What an argument is on its own. -/
inductive Argument where
  | word
  | divider
  /-- A flag by its spelling, or flags by their letters. -/
  | flags (fs : List Flag)
  /-- A setting, with the value after its equals sign if it has one. -/
  | setting (s : Setting) (value : Option String)
  /-- Letters of which one is no flag, or a flag with a value. -/
  | malformed
  /-- The beginning of several spellings. -/
  | ambiguous
  | unknown
  deriving DecidableEq, Repr, Inhabited

namespace Argument

/-- Whether an argument is a negative number rather than a switch. A line end may follow it. -/
def isNegativeNumeral : List Char → Bool
  | '-' :: rest =>
    let rest := if rest.getLast? = some '\n' then rest.dropLast else rest
    match rest.dropWhile isDecimalDigit with
    | [] => !rest.isEmpty
    | '.' :: fraction => !fraction.isEmpty && fraction.all isDecimalDigit
    | _ => false
  | _ => false

/-- What follows the first equals sign of a text. -/
def afterEquals? (cs : List Char) : Option String :=
  match cs.dropWhile (· != '=') with
  | [] => none
  | _ :: value => some (String.ofList value)

/-- The letters of flags after a dash; an equals sign may stand before all letters but the first. -/
def ofLetters (switches : List Switch) (first : Char) (rest : List Char) : Argument :=
  let letters := match rest with
    | '=' :: c :: more => first :: c :: more
    | rest => first :: rest
  match letters.mapM (Switch.ofLetter? switches) with
  | some fs => flags fs
  | none => malformed

/-- A switch by its spelling or the beginning of it. -/
def ofSpelling? (switches : List Switch) (cs : List Char) : Option Argument :=
  match Switch.named switches (cs.takeWhile (· != '=')), afterEquals? cs with
  | [], _ => none
  | [.flag f], none => some (flags [f])
  | [.flag _], some _ => some malformed
  | [.setting s], value => some (setting s value)
  | _ :: _ :: _, _ => some ambiguous

/-- What an argument is where the given switches can stand. -/
def classify (switches : List Switch) (argument : String) : Argument :=
  if argument = MessageLens.divider then divider
  else
    let cs := argument.toList
    let other := if isNegativeNumeral cs || cs.contains ' ' then word else unknown
    match cs with
    | '-' :: '-' :: _ => (ofSpelling? switches cs).getD other
    | '-' :: c :: rest =>
      if (Switch.ofLetter? switches c).isSome then ofLetters switches c rest else other
    | _ => word

end Argument

/-- Why arguments are not accepted. -/
inductive ArgumentError where
  | refused
  /-- The arguments ask how the program is used. -/
  | helpWanted
  deriving DecidableEq, Repr, Inhabited

/-- The place of a value. -/
inductive Slot (α : Type) where
  | filled (a : α)
  /-- A divider stands in the place. -/
  | leftOpen
  deriving DecidableEq, Repr, Inhabited

/-- Reads what stands in the place of a value. -/
def Slot.read? {α : Type} (read? : List Char → Option α) (text : String) : Option (Slot α) :=
  if text = divider then some leftOpen else (read? text.toList).map filled

/-- The arguments of a command as they are read. -/
structure Arguments where
  command : CommandName := .annotate
  path : String := ""
  /-- The line that a panel is asked for. -/
  line : Slot Int := .leftOpen
  /-- The column that a panel is asked for. -/
  column : Slot Int := .leftOpen
  config : Option (Slot String) := none
  locale : Option (Slot String) := none
  verbose : Bool := false
  json : Bool := false
  /-- The seconds between polls, by default a half. -/
  interval : Slot ExtendedReal := .filled (.finite ⟨false, Binary64.hiddenBit, -53⟩)
  maxPolls : Option (Slot Int) := none
  deriving DecidableEq, Repr, Inhabited

namespace Arguments

/-- Turns a flag on. -/
def turnOn (a : Arguments) : Flag → Except ArgumentError Arguments
  | .help => .error .helpWanted
  | .verbose => .ok { a with verbose := true }
  | .json => .ok { a with json := true }

/-- Gives a setting its value, which replaces an earlier one. -/
def set? (a : Arguments) (s : Setting) (text : String) : Option Arguments :=
  match s with
  | .config => (Slot.read? (some ∘ String.ofList) text).map ({ a with config := some · })
  | .locale => (Slot.read? (some ∘ String.ofList) text).map ({ a with locale := some · })
  | .interval => (Slot.read? realOf? text).map ({ a with interval := · })
  | .maxPolls => (Slot.read? integerOf? text).map ({ a with maxPolls := some · })

end Arguments

/-- The words that a command needs. -/
inductive WordPlace where
  | path
  | line
  | column
  deriving DecidableEq, Repr, Inhabited

/-- The words that a command needs, in order. -/
def CommandName.places : CommandName → List WordPlace
  | hover => [.path, .line, .column]
  | _ => [.path]

/-- Arguments while they are read: what is known so far. -/
structure ArgumentDraft where
  arguments : Arguments
  /-- The words that are still needed. -/
  places : List WordPlace
  /-- Whether the last argument was a word that the command needs. -/
  afterWord : Bool := false
  /-- Whether there is an argument that the command has no use for. -/
  surplus : Bool := false
  deriving DecidableEq, Repr, Inhabited

namespace ArgumentDraft

/-- Notes an argument that the command has no use for. -/
def addSurplus (d : ArgumentDraft) : ArgumentDraft := { d with surplus := true, afterWord := false }

/-- Adds a word. A divider among words leaves a number open if `opened`. -/
def addWord (d : ArgumentDraft) (opened : Bool) (word : String) :
    Except ArgumentError ArgumentDraft :=
  let number? := if opened then Slot.read? integerOf? word
    else (integerOf? word.toList).map Slot.filled
  match d.places with
  | [] => .ok d.addSurplus
  | place :: places =>
    let filled := match place with
      | .path => some { d.arguments with path := word }
      | .line => number?.map ({ d.arguments with line := · })
      | .column => number?.map ({ d.arguments with column := · })
    match filled with
    | some a => .ok { d with arguments := a, places := places, afterWord := true }
    | none => .error .refused

/-- Turns flags on. -/
def turnOn (d : ArgumentDraft) (fs : List Flag) : Except ArgumentError ArgumentDraft := do
  return { d with arguments := ← fs.foldlM Arguments.turnOn d.arguments, afterWord := false }

/-- Gives a setting its value. -/
def set (d : ArgumentDraft) (s : Setting) (text : String) : Except ArgumentError ArgumentDraft :=
  match d.arguments.set? s text with
  | some a => .ok { d with arguments := a, afterWord := false }
  | none => .error .refused

/-- Reads what follows the divider. Right after a word the divider goes with that word, and then
another divider stands for a number that is left open. -/
def readWords (d : ArgumentDraft) (opened : Bool) : List String →
    Except ArgumentError ArgumentDraft
  | [] => .ok d
  | word :: rest => do (← d.addWord opened word).readWords true rest

/-- What an argument of the command is. -/
def classify (d : ArgumentDraft) (argument : String) : Argument :=
  Argument.classify d.arguments.command.switches argument

/-- Reads the arguments after the name of the command. -/
def read (d : ArgumentDraft) : List String → Except ArgumentError ArgumentDraft
  | [] => .ok d
  | argument :: rest =>
    match d.classify argument with
    | .word => do (← d.addWord false argument).read rest
    | .unknown => d.addSurplus.read rest
    | .divider =>
      let d := if rest.isEmpty && !d.afterWord then d.addSurplus else d
      d.readWords d.afterWord rest
    | .flags fs => do (← d.turnOn fs).read rest
    | .setting s (some value) => do (← d.set s value).read rest
    | .setting s none =>
      match rest with
      | value :: rest =>
        if d.classify value = .word then do (← d.set s value).read rest else .error .refused
      | [] => .error .refused
    | .malformed => .error .refused
    | .ambiguous => .error .refused

/-- Whether an argument before the divider can be told from no other. -/
def hasAmbiguous (d : ArgumentDraft) (arguments : List String) : Bool :=
  (arguments.takeWhile (· != divider)).any (d.classify · == .ambiguous)

/-- The arguments, once all are read. -/
def finish (d : ArgumentDraft) : Except ArgumentError Arguments :=
  if d.surplus || !d.places.isEmpty then .error .refused else .ok d.arguments

end ArgumentDraft

namespace Arguments

/-- Reads the arguments after the name of a command. -/
def ofCommand (command : CommandName) (rest : List String) : Except ArgumentError Arguments := do
  let d : ArgumentDraft := { arguments := { command := command }, places := command.places }
  if d.hasAmbiguous rest then throw .refused
  (← d.read rest).finish

/-- Reads the arguments of the program. A switch that is unknown before the name of the command is
refused once the command has been read. -/
def ofWords : List String → Except ArgumentError Arguments
  | [] => .error .refused
  | argument :: rest =>
    match Argument.classify leadingSwitches argument with
    | .word =>
      match CommandName.ofText? argument with
      | some command => ofCommand command rest
      | none => .error .refused
    | .unknown => do
      discard (ofWords rest)
      throw .refused
    | .flags fs => do
      discard (fs.foldlM turnOn {})
      throw .refused
    | _ => .error .refused

end Arguments

end MessageLens
