import MessageLens.Text.Utf8
import MessageLens.Toml.Scalar

/-!
# Reading TOML documents

A document is read statement by statement. A namespace that a header or a dotted key has opened may
not be opened again by a header, and inline tables and arrays may not be extended.
-/

namespace MessageLens.Toml
set_option autoImplicit false

/-- A dotted key. -/
abbrev Key := List String

/-- Removes blanks, line ends and comments between the elements of an array. -/
def skipArraySpace : (fuel : Nat) → List Char → Except ReadError (List Char)
  | 0, cs => .ok cs
  | fuel + 1, cs => do
    match cs.dropWhile isSpaceOrNewline with
    | '#' :: rest => skipArraySpace fuel (← skipComment ('#' :: rest))
    | rest => return rest

/-- Adds a member to an inline table. `closed` lists the keys of the inline tables and arrays that
it already has. -/
def addInline (closed : List Key) (k : Key) (v : Toml) (ms : Members) :
    Except ReadError Members :=
  let stem := k.getLast?.getD ""
  let add (nest : Members) : Option Members :=
    if (nest.lookup stem).isSome then none else some (setMember stem v nest)
  if closed.any (·.isPrefixOf k) then .error .malformed
  else match within false k.dropLast add ms with
    | some ms => .ok ms
    | none => .error .malformed

/-- Whether a value may not be extended. -/
def isContainer : Toml → Bool
  | array _ => true
  | table _ => true
  | _ => false

mutual

/-- Reads a value. -/
def value : (fuel : Nat) → Reader Toml
  | 0, _ => .error .malformed
  | fuel + 1, cs =>
    match cs with
    | '"' :: '"' :: '"' :: cs =>
      (multilineText '"' cs).map fun (s, cs) => (text (String.ofList s), cs)
    | '"' :: cs => (lineText '"' cs).map fun (s, cs) => (text (String.ofList s), cs)
    | '\'' :: '\'' :: '\'' :: cs =>
      (multilineText '\'' cs).map fun (s, cs) => (text (String.ofList s), cs)
    | '\'' :: cs => (lineText '\'' cs).map fun (s, cs) => (text (String.ofList s), cs)
    | 't' :: 'r' :: 'u' :: 'e' :: cs => .ok (flag true, cs)
    | 'f' :: 'a' :: 'l' :: 's' :: 'e' :: cs => .ok (flag false, cs)
    | '[' :: cs => do
      let (elems, cs) ← elements fuel [] cs
      return (array elems, cs)
    | '\x7b' :: cs =>
      match skipSpace cs with
      | '\x7d' :: cs => .ok (table [], cs)
      | cs => do
        let (members, cs) ← inlineMembers fuel [] [] cs
        return (table members, cs)
    | cs => momentOrNumber cs

/-- Reads the elements of an array up to its end; `done` holds those already read. -/
def elements : (fuel : Nat) → (done : List Toml) → Reader (List Toml)
  | 0, _, _ => .error .malformed
  | fuel + 1, done, cs => do
    match ← skipArraySpace (cs.length + 1) cs with
    | ']' :: cs => return (done, cs)
    | cs =>
      let (v, cs) ← value fuel cs
      match ← skipArraySpace (cs.length + 1) cs with
      | ']' :: cs => return (done ++ [v], cs)
      | ',' :: cs => elements fuel (done ++ [v]) cs
      | _ => throw .malformed

/-- Reads the members of an inline table up to its end, at least one. -/
def inlineMembers : (fuel : Nat) → (closed : List Key) → Members → Reader Members
  | 0, _, _, _ => .error .malformed
  | fuel + 1, closed, ms, cs => do
    let (k, cs) ← key cs
    match cs with
    | '=' :: cs =>
      let (v, cs) ← value fuel (skipSpace cs)
      let ms ← addInline closed k v ms
      match skipSpace cs with
      | '\x7d' :: cs => return (ms, cs)
      | ',' :: cs =>
        inlineMembers fuel (if isContainer v then k :: closed else closed) ms (skipSpace cs)
      | _ => throw .malformed
    | _ => throw .malformed

end

/-- A document that is being read. -/
structure Document where
  members : Members := []
  /-- The namespace of the current section. -/
  header : Key := []
  /-- Namespaces that no header may open. -/
  opened : List Key := []
  /-- Namespaces that dotted keys of the current section have opened. -/
  opening : List Key := []
  /-- Inline tables and arrays. -/
  closed : List Key := []

namespace Document

/-- Whether a namespace belongs to an inline table or an array. -/
def isClosed (d : Document) (k : Key) : Bool := d.closed.any (·.isPrefixOf k)

/-- Starts a section; the namespaces of dotted keys become definite. -/
def endSection (d : Document) : Document :=
  { d with opened := d.opening ++ d.opened, opening := [] }

/-- Opens a table by a header. -/
def openTable (d : Document) (k : Key) : Except ReadError Document :=
  if d.opened.contains k ∨ d.isClosed k then .error .malformed
  else match within true k some d.members with
    | some ms => .ok { d with members := ms, header := k, opened := k :: d.opened }
    | none => .error .malformed

/-- Appends a table to an array of tables by a header, and forgets what was known of the namespace
of the table before it. -/
def openArrayTable (d : Document) (k : Key) : Except ReadError Document :=
  let stem := k.getLast?.getD ""
  let append (nest : Members) : Option Members :=
    match nest.lookup stem with
    | none => some (setMember stem (array [table []]) nest)
    | some (array elems) => some (setMember stem (array (elems ++ [table []])) nest)
    | some _ => none
  if d.isClosed k then .error .malformed
  else match within true k.dropLast append d.members with
    | some ms =>
      .ok { d with
        members := ms
        header := k
        opened := k :: d.opened.filter (!k.isPrefixOf ·)
        closed := d.closed.filter (!k.isPrefixOf ·) }
    | none => .error .malformed

/-- The namespaces that a dotted key passes through below the current section. -/
def passedThrough (d : Document) (k : Key) : List Key :=
  ((List.range k.length).drop 1).map fun n => d.header ++ k.take n

/-- Sets a key of the current section. -/
def setKey (d : Document) (k : Key) (v : Toml) : Except ReadError Document :=
  let stem := k.getLast?.getD ""
  let parent := d.header ++ k.dropLast
  let add (nest : Members) : Option Members :=
    if (nest.lookup stem).isSome then none else some (setMember stem v nest)
  if (d.passedThrough k).any d.opened.contains ∨ d.isClosed parent then .error .malformed
  else match within true parent add d.members with
    | some ms =>
      .ok { d with
        members := ms
        opening := d.passedThrough k ++ d.opening
        closed := if isContainer v then (d.header ++ k) :: d.closed else d.closed }
    | none => .error .malformed

end Document

/-- Reads a key and its value. -/
def keyValue (d : Document) : Reader Document := fun cs => do
  let (k, cs) ← key cs
  match cs with
  | '=' :: cs =>
    let (v, cs) ← value (2 * cs.length + 2) (skipSpace cs)
    return (← d.setKey k v, cs)
  | _ => throw .malformed

/-- Reads the header of a table or of an array of tables, after its first bracket. -/
def sectionHeader (d : Document) : Reader Document
  | '[' :: cs => do
    let (k, cs) ← key (skipSpace cs)
    let d ← d.endSection.openArrayTable k
    match cs with
    | ']' :: ']' :: cs => return (d, cs)
    | _ => throw .malformed
  | cs => do
    let (k, cs) ← key (skipSpace cs)
    let d ← d.endSection.openTable k
    match cs with
    | ']' :: cs => return (d, cs)
    | _ => throw .malformed

/-- Reads one statement, which may be empty. -/
def statement (d : Document) : Reader Document := fun cs =>
  match skipSpace cs with
  | [] => .ok (d, [])
  | '\n' :: cs => .ok (d, '\n' :: cs)
  | '#' :: cs => .ok (d, '#' :: cs)
  | '[' :: cs => sectionHeader d cs
  | c :: cs =>
    if isBareKeyChar c ∨ c = '"' ∨ c = '\'' then keyValue d (c :: cs) else .error .malformed

/-- Reads the statements of a document, each on lines of its own. -/
def statements : (fuel : Nat) → Document → List Char → Except ReadError Document
  | 0, d, _ => .ok d
  | fuel + 1, d, cs => do
    let (d, cs) ← statement d cs
    match ← skipComment (skipSpace cs) with
    | [] => return d
    | '\n' :: cs => statements fuel d cs
    | _ => throw .malformed

/-- The text with each carriage return before a line feed removed. -/
def joinLineEnds : List Char → List Char
  | '\r' :: '\n' :: cs => '\n' :: joinLineEnds cs
  | c :: cs => c :: joinLineEnds cs
  | [] => []

/-- The members of a TOML document. -/
def ofChars (cs : List Char) : Except ReadError Members := do
  let cs := joinLineEnds cs
  return (← statements (cs.length + 1) {} cs).members

end MessageLens.Toml
