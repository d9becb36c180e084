import MessageLens.Options.Basic
import MessageLens.Options.Value

/-!
# Validating options

Every option has two names, of which the first is preferred when both are given. A name that no
option takes is refused. All faults of a document are reported, each with the path of the member at
fault.
-/

namespace MessageLens
set_option autoImplicit false

variable {α β : Type}

/-- A fault and the path of the member that has it. -/
structure Issue where
  path : List String
  fault : Fault
  deriving DecidableEq, Repr

/-- A value, or all that is wrong with what was given for it. -/
inductive Checked (α : Type) where
  | valid (a : α)
  | invalid (issues : List Issue)

namespace Checked

/-- The issues of a result. -/
def issues : Checked α → List Issue
  | valid _ => []
  | invalid is => is

/-- Applies a result to a result; the issues of both are kept. -/
def ap (f : Checked (α → β)) (x : Checked α) : Checked β :=
  match f, x with
  | valid f, valid a => valid (f a)
  | f, x => invalid (f.issues ++ x.issues)

/-- Reports further issues. -/
def also (x : Checked α) (more : List Issue) : Checked α :=
  match x, more with
  | valid a, [] => valid a
  | x, more => invalid (x.issues ++ more)

/-- Reports the issues of a member under its name. -/
def under (name : String) : Checked α → Checked α
  | valid a => valid a
  | invalid is => invalid (is.map fun i => { i with path := name :: i.path })

/-- A result with at most one fault, which is that of the value itself. -/
def ofExcept : Except Fault α → Checked α
  | .ok a => valid a
  | .error fault => invalid [⟨[], fault⟩]

end Checked

/-- The names of an option. -/
structure OptionName where
  preferred : String
  plain : String
  deriving DecidableEq, Repr

namespace OptionName

/-- An option of one name. -/
def single (name : String) : OptionName := ⟨name, name⟩

/-- The member that gives the option, with the name it uses. -/
def find? (n : OptionName) (members : List (String × OptionValue)) :
    Option (String × OptionValue) :=
  match members.lookup n.preferred with
  | some v => some (n.preferred, v)
  | none => (members.lookup n.plain).map (n.plain, ·)

/-- Whether a member of that name gives the option. -/
def takes (n : OptionName) (members : List (String × OptionValue)) (key : String) : Bool :=
  (n.find? members).any (·.1 == key)

/-- Reads an option that has a default. -/
def read (n : OptionName) (members : List (String × OptionValue)) (dflt : α)
    (reader : OptionValue → Checked α) : Checked α :=
  match n.find? members with
  | none => .valid dflt
  | some (key, v) => (reader v).under key

end OptionName

/-- The members that no option takes. -/
def strangers (names : List OptionName) (members : List (String × OptionValue)) : List Issue :=
  (members.filter fun m => !names.any (·.takes members m.1)).map fun m => ⟨[m.1], .extraForbidden⟩

namespace OptionReader

/-- Reads a flag. -/
def flag (v : OptionValue) : Checked Bool := .ofExcept v.toFlag

/-- Reads an integer that is at least `least`. -/
def atLeast (least : Int) (v : OptionValue) : Checked Int :=
  .ofExcept do
    let n ← v.toInteger
    if least ≤ n then return n else throw .greaterThanEqual

/-- Reads a text. -/
def text (v : OptionValue) : Checked String := .ofExcept v.toText

/-- Reads a text that is not empty. -/
def nonempty (v : OptionValue) : Checked String :=
  .ofExcept do
    let s ← v.toText
    if s = "" then throw .stringTooShort else return s

/-- Reads the name of a receiver. -/
def receiver (v : OptionValue) : Checked String :=
  .ofExcept do
    let s ← v.toText
    if isReceiver s.toList then return s else throw .stringPatternMismatch

/-- Reads a group of options. -/
def group (reader : List (String × OptionValue) → Checked α) : OptionValue → Checked α
  | .table members => reader members
  | _ => .invalid [⟨[], .modelType⟩]

end OptionReader

namespace VirtualTextOptions

/-- The names of the options, in the order of the fields. -/
def names : List OptionName :=
  [.single "prefix", ⟨"highlightResolved", "highlight_resolved"⟩,
    ⟨"highlightMissingKey", "highlight_missing_key"⟩,
    ⟨"highlightMissingLocale", "highlight_missing_locale"⟩, ⟨"maxLength", "max_length"⟩,
    ⟨"showMissing", "show_missing"⟩, ⟨"missingPrefix", "missing_prefix"⟩,
    ⟨"highlightMissingLocales", "highlight_missing_locales"⟩]

/-- Validates the options for the appearance of annotations. -/
def validate (members : List (String × OptionValue)) : Checked VirtualTextOptions :=
  let dflt : VirtualTextOptions := {}
  let text (preferred plain dflt : String) :=
    (OptionName.mk preferred plain).read members dflt OptionReader.text
  let checked := (Checked.valid VirtualTextOptions.mk)
    |>.ap (text "prefix" "prefix" dflt.lead)
    |>.ap (text "highlightResolved" "highlight_resolved" dflt.highlightResolved)
    |>.ap (text "highlightMissingKey" "highlight_missing_key" dflt.highlightMissingKey)
    |>.ap (text "highlightMissingLocale" "highlight_missing_locale" dflt.highlightMissingLocale)
    |>.ap ((OptionName.mk "maxLength" "max_length").read members dflt.maxLength
      (OptionReader.atLeast 4))
    |>.ap ((OptionName.mk "showMissing" "show_missing").read members dflt.showMissing
      OptionReader.flag)
    |>.ap (text "missingPrefix" "missing_prefix" dflt.missingLead)
    |>.ap (text "highlightMissingLocales" "highlight_missing_locales" dflt.highlightMissingLocales)
  checked.also (strangers names members)

end VirtualTextOptions

namespace HoverOptions

/-- The names of the options, in the order of the fields. -/
def names : List OptionName := [.single "enabled", ⟨"delayMs", "delay_ms"⟩]

/-- Validates the options for the hover panel. -/
def validate (members : List (String × OptionValue)) : Checked HoverOptions :=
  let dflt : HoverOptions := {}
  let checked := (Checked.valid HoverOptions.mk)
    |>.ap ((OptionName.single "enabled").read members dflt.enabled OptionReader.flag)
    |>.ap ((OptionName.mk "delayMs" "delay_ms").read members dflt.delayMs
      (OptionReader.atLeast 0))
  checked.also (strangers names members)

end HoverOptions

namespace PreviewOptions

/-- The names of the options, in the order of the fields. -/
def names : List OptionName :=
  [.single "enabled", ⟨"debounceMs", "debounce_ms"⟩, ⟨"virtualText", "virtual_text"⟩,
    .single "hover", ⟨"projectMarkerPath", "project_marker_path"⟩, .single "receiver"]

/-- Validates the members of an options document. -/
def validateMembers (members : List (String × OptionValue)) : Checked PreviewOptions :=
  let dflt : PreviewOptions := {}
  let checked := (Checked.valid PreviewOptions.mk)
    |>.ap ((OptionName.single "enabled").read members dflt.enabled OptionReader.flag)
    |>.ap ((OptionName.mk "debounceMs" "debounce_ms").read members dflt.debounceMs
      (OptionReader.atLeast 0))
    |>.ap ((OptionName.mk "virtualText" "virtual_text").read members dflt.virtualText
      (OptionReader.group VirtualTextOptions.validate))
    |>.ap ((OptionName.single "hover").read members dflt.hover
      (OptionReader.group HoverOptions.validate))
    |>.ap ((OptionName.mk "projectMarkerPath" "project_marker_path").read members dflt.marker
      OptionReader.nonempty)
    |>.ap ((OptionName.single "receiver").read members dflt.receiver OptionReader.receiver)
  checked.also (strangers names members)

/-- Validates an options document. -/
def validate (document : OptionValue) : Checked PreviewOptions :=
  OptionReader.group validateMembers document

end PreviewOptions

end MessageLens
