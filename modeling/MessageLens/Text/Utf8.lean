/-!
# UTF-8

Bytes are read as a sequence of characters in which every maximal ill-formed stretch stands as one
gap. A text is well formed when there is no gap; a lenient reading shows each gap as the
replacement character.
-/

namespace MessageLens
set_option autoImplicit false

/-- The content of a file. -/
abbrev Bytes := List UInt8

namespace Utf8

/-- A started sequence: the bits read so far, the number of bytes still to come, and the range the
next one must lie in. -/
structure Sequence where
  code : Nat
  missing : Nat
  lo : UInt8
  hi : UInt8
  deriving DecidableEq, Repr

/-- What a byte begins: a character of its own, a sequence, or nothing. -/
inductive Lead where
  | char (c : Char)
  | sequence (s : Sequence)
  | invalid

/-- Reads a byte at the start of a character. The ranges of the second byte keep out overlong forms,
surrogates and code points past the last one. -/
def lead (b : UInt8) : Lead :=
  let n := b.toNat
  if n < 0x80 then .char (Char.ofNat n)
  else if n < 0xC2 then .invalid
  else if n < 0xE0 then .sequence ⟨n - 0xC0, 1, 0x80, 0xBF⟩
  else if n = 0xE0 then .sequence ⟨0, 2, 0xA0, 0xBF⟩
  else if n = 0xED then .sequence ⟨0xD, 2, 0x80, 0x9F⟩
  else if n < 0xF0 then .sequence ⟨n - 0xE0, 2, 0x80, 0xBF⟩
  else if n = 0xF0 then .sequence ⟨0, 3, 0x90, 0xBF⟩
  else if n < 0xF4 then .sequence ⟨n - 0xF0, 3, 0x80, 0xBF⟩
  else if n = 0xF4 then .sequence ⟨4, 3, 0x80, 0x8F⟩
  else .invalid

/-- Adds a byte that lies in the range of the sequence; `inl` when that completes a character. -/
def Sequence.push (s : Sequence) (b : UInt8) : Char ⊕ Sequence :=
  let code := s.code * 64 + (b.toNat - 0x80)
  if s.missing ≤ 1 then .inl (Char.ofNat code) else .inr ⟨code, s.missing - 1, 0x80, 0xBF⟩

/-- The characters of `bytes` with a gap for each maximal ill-formed stretch; `open?` is the
sequence that has been started. -/
def read : (open? : Option Sequence) → Bytes → List (Option Char)
  | none, [] => []
  | some _, [] => [none]
  | none, b :: bs =>
    match lead b with
    | .char c => some c :: read none bs
    | .sequence s => read (some s) bs
    | .invalid => none :: read none bs
  | some s, b :: bs =>
    if s.lo ≤ b ∧ b ≤ s.hi then
      match s.push b with
      | .inl c => some c :: read none bs
      | .inr s' => read (some s') bs
    else
      match lead b with
      | .char c => none :: some c :: read none bs
      | .sequence s' => none :: read (some s') bs
      | .invalid => none :: none :: read none bs

/-- The text of well-formed bytes. -/
def decode? (bytes : Bytes) : Option (List Char) := (read none bytes).mapM id

/-- The text of any bytes, with U+FFFD for every gap. -/
def decodeLossy (bytes : Bytes) : List Char := (read none bytes).map (·.getD '\uFFFD')

end Utf8

end MessageLens
