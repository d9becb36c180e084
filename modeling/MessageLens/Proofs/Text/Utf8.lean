import Mathlib.Data.List.Basic
import MessageLens.Text.Utf8

/-!
# Bytes that are a text

The reader goes from byte to byte and keeps what it needs of a character that has been started.
The bytes that it reads without a gap are the ones that encode some text, and it gives that text.
-/

namespace MessageLens.Utf8
set_option autoImplicit false

/-- The bytes that encode a text. -/
def encode (cs : List Char) : Bytes := cs.flatMap String.utf8EncodeChar

/-- The bytes that the reader takes from a started sequence to the end of its character. -/
inductive Completes : Sequence → Bytes → Char → Prop where
  | last {s : Sequence} {b : UInt8} {c : Char} (fits : s.lo ≤ b ∧ b ≤ s.hi)
      (push : s.push b = .inl c) : Completes s [b] c
  | more {s s' : Sequence} {b : UInt8} {bs : Bytes} {c : Char} (fits : s.lo ≤ b ∧ b ≤ s.hi)
      (push : s.push b = .inr s') (later : Completes s' bs c) : Completes s (b :: bs) c

/-- The bytes that the reader takes for a character. -/
inductive Forms : Bytes → Char → Prop where
  | single {b : UInt8} {c : Char} (first : lead b = .char c) : Forms [b] c
  | sequence {b : UInt8} {s : Sequence} {bs : Bytes} {c : Char} (first : lead b = .sequence s)
      (later : Completes s bs c) : Forms (b :: bs) c

/-! ## The bytes of a character -/

section Character

variable {bs : Bytes} {c : Char} {n : Nat}

theorem push_last {code : Nat} {lo hi b : UInt8} : Sequence.push ⟨code, 1, lo, hi⟩ b =
    .inl (Char.ofNat (code * 64 + (b.toNat - 0x80))) := by
  rw [Sequence.push, if_pos (Nat.le_refl 1)]

theorem push_more {code missing : Nat} {lo hi b : UInt8} :
    Sequence.push ⟨code, missing + 2, lo, hi⟩ b =
      .inr ⟨code * 64 + (b.toNat - 0x80), missing + 1, 0x80, 0xBF⟩ := by
  have several : ¬ missing + 2 ≤ 1 := by omega
  rw [Sequence.push, if_neg several]
  rfl

theorem completes_last {code : Nat} {lo hi : UInt8} : Completes ⟨code, 1, lo, hi⟩ bs c ↔
    ∃ b, bs = [b] ∧ (lo ≤ b ∧ b ≤ hi) ∧ c = Char.ofNat (code * 64 + (b.toNat - 0x80)) := by
  constructor
  · intro completes
    cases completes with
    | last fits push =>
      rw [push_last] at push
      exact ⟨_, rfl, fits, (Sum.inl.inj push).symm⟩
    | more fits push =>
      rw [push_last] at push
      cases push
  · rintro ⟨b, rfl, fits, same⟩
    rw [same]
    exact .last (s := ⟨code, 1, lo, hi⟩) fits push_last

theorem completes_more {code missing : Nat} {lo hi : UInt8} :
    Completes ⟨code, missing + 2, lo, hi⟩ bs c ↔ ∃ b rest, bs = b :: rest ∧ (lo ≤ b ∧ b ≤ hi) ∧
      Completes ⟨code * 64 + (b.toNat - 0x80), missing + 1, 0x80, 0xBF⟩ rest c := by
  constructor
  · intro completes
    cases completes with
    | last fits push =>
      rw [push_more] at push
      cases push
    | more fits push later =>
      rw [push_more] at push
      rw [← Sum.inr.inj push] at later
      exact ⟨_, _, rfl, fits, later⟩
  · rintro ⟨b, rest, rfl, fits, later⟩
    exact .more (s := ⟨code, missing + 2, lo, hi⟩) fits push_more later

variable {b : UInt8}

theorem lead_one (low : b.toNat < 0x80) : lead b = .char (Char.ofNat b.toNat) := if_pos low

theorem lead_two (low : 0xC2 ≤ b.toNat) (high : b.toNat < 0xE0) :
    lead b = .sequence ⟨b.toNat - 0xC0, 1, 0x80, 0xBF⟩ := by
  rw [lead, if_neg (by omega), if_neg (by omega), if_pos high]

theorem lead_three (low : 0xE0 ≤ b.toNat) (high : b.toNat < 0xF0) :
    lead b = .sequence ⟨b.toNat - 0xE0, 2, if b.toNat = 0xE0 then 0xA0 else 0x80,
      if b.toNat = 0xED then 0x9F else 0xBF⟩ := by
  rw [lead, if_neg (by omega), if_neg (by omega), if_neg (by omega)]
  split_ifs <;> first | omega | simp [*]

theorem lead_four (low : 0xF0 ≤ b.toNat) (high : b.toNat < 0xF5) :
    lead b = .sequence ⟨b.toNat - 0xF0, 3, if b.toNat = 0xF0 then 0x90 else 0x80,
      if b.toNat = 0xF4 then 0x8F else 0xBF⟩ := by
  rw [lead, if_neg (by omega), if_neg (by omega), if_neg (by omega)]
  split_ifs <;> first | omega | simp [*]

theorem lead_invalid (bad : 0x80 ≤ b.toNat ∧ b.toNat < 0xC2 ∨ 0xF5 ≤ b.toNat) :
    lead b = .invalid := by
  rw [lead]
  split_ifs <;> first | omega | rfl

/-! The bytes of a code point, by the number of bytes. -/

theorem toNat_val_ofNat {v : Nat} (valid : v.isValidChar) : (Char.ofNat v).val.toNat = v := by
  rw [Char.ofNat, dif_pos valid]
  rfl

theorem eq_ofNat (same : b.toNat = n % 256) : b = UInt8.ofNat n :=
  UInt8.toNat_inj.1 (same.trans UInt8.toNat_ofNat'.symm)

theorem encodes_two {b₀ b₁ : UInt8} (low : 0xC2 ≤ b₀.toNat) (high : b₀.toNat < 0xE0)
    (tail : 0x80 ≤ b₁.toNat ∧ b₁.toNat ≤ 0xBF) :
    String.utf8EncodeChar (Char.ofNat ((b₀.toNat - 0xC0) * 64 + (b₁.toNat - 0x80))) =
      [b₀, b₁] := by
  generalize code : (b₀.toNat - 0xC0) * 64 + (b₁.toNat - 0x80) = v
  have range : 0x80 ≤ v ∧ v ≤ 0x7FF := by omega
  have valid : v.isValidChar := .inl (by omega)
  have first : b₀ = UInt8.ofNat (v / 64 % 0x20 + 0xC0) := eq_ofNat (by omega)
  have second : b₁ = UInt8.ofNat (v % 0x40 + 0x80) := eq_ofNat (by omega)
  rw [String.utf8EncodeChar, toNat_val_ofNat valid, if_neg (by omega), if_pos (by omega), ← first,
    ← second]

theorem encodes_three {b₀ b₁ b₂ : UInt8} (low : 0xE0 ≤ b₀.toNat) (high : b₀.toNat < 0xF0)
    (next : (if b₀.toNat = 0xE0 then 0xA0 else 0x80) ≤ b₁.toNat ∧
      b₁.toNat ≤ if b₀.toNat = 0xED then 0x9F else 0xBF)
    (tail : 0x80 ≤ b₂.toNat ∧ b₂.toNat ≤ 0xBF) :
    String.utf8EncodeChar (Char.ofNat
      (((b₀.toNat - 0xE0) * 64 + (b₁.toNat - 0x80)) * 64 + (b₂.toNat - 0x80))) =
      [b₀, b₁, b₂] := by
  have inner : 0x80 ≤ b₁.toNat ∧ b₁.toNat ≤ 0xBF := by split_ifs at next <;> omega
  generalize code : ((b₀.toNat - 0xE0) * 64 + (b₁.toNat - 0x80)) * 64 + (b₂.toNat - 0x80) = v
  have range : 0x800 ≤ v ∧ v ≤ 0xFFFF ∧ (v < 0xD800 ∨ 0xDFFF < v) := by
    split_ifs at next <;> omega
  have valid : v.isValidChar := range.2.2.imp_right fun above => ⟨above, by omega⟩
  have first : b₀ = UInt8.ofNat (v / 4096 % 0x10 + 0xE0) := eq_ofNat (by omega)
  have second : b₁ = UInt8.ofNat (v / 64 % 0x40 + 0x80) := eq_ofNat (by omega)
  have third : b₂ = UInt8.ofNat (v % 0x40 + 0x80) := eq_ofNat (by omega)
  rw [String.utf8EncodeChar, toNat_val_ofNat valid, if_neg (by omega), if_neg (by omega),
    if_pos (by omega), ← first, ← second, ← third]

theorem encodes_four {b₀ b₁ b₂ b₃ : UInt8} (low : 0xF0 ≤ b₀.toNat) (high : b₀.toNat < 0xF5)
    (next : (if b₀.toNat = 0xF0 then 0x90 else 0x80) ≤ b₁.toNat ∧
      b₁.toNat ≤ if b₀.toNat = 0xF4 then 0x8F else 0xBF)
    (tail : 0x80 ≤ b₂.toNat ∧ b₂.toNat ≤ 0xBF) (tail' : 0x80 ≤ b₃.toNat ∧ b₃.toNat ≤ 0xBF) :
    String.utf8EncodeChar (Char.ofNat
      ((((b₀.toNat - 0xF0) * 64 + (b₁.toNat - 0x80)) * 64 + (b₂.toNat - 0x80)) * 64 +
        (b₃.toNat - 0x80))) = [b₀, b₁, b₂, b₃] := by
  have inner : 0x80 ≤ b₁.toNat ∧ b₁.toNat ≤ 0xBF := by split_ifs at next <;> omega
  generalize code : (((b₀.toNat - 0xF0) * 64 + (b₁.toNat - 0x80)) * 64 + (b₂.toNat - 0x80)) * 64 +
    (b₃.toNat - 0x80) = v
  have range : 0x10000 ≤ v ∧ v ≤ 0x10FFFF := by split_ifs at next <;> omega
  have valid : v.isValidChar := .inr ⟨by omega, by omega⟩
  have first : b₀ = UInt8.ofNat (v / 262144 % 0x08 + 0xF0) := eq_ofNat (by omega)
  have second : b₁ = UInt8.ofNat (v / 4096 % 0x40 + 0x80) := eq_ofNat (by omega)
  have third : b₂ = UInt8.ofNat (v / 64 % 0x40 + 0x80) := eq_ofNat (by omega)
  have fourth : b₃ = UInt8.ofNat (v % 0x40 + 0x80) := eq_ofNat (by omega)
  rw [String.utf8EncodeChar, toNat_val_ofNat valid, if_neg (by omega), if_neg (by omega),
    if_neg (by omega), ← first, ← second, ← third, ← fourth]

theorem encodes_one (low : b.toNat < 0x80) :
    String.utf8EncodeChar (Char.ofNat b.toNat) = [b] := by
  have valid : b.toNat.isValidChar := .inl (by omega)
  have first : b = UInt8.ofNat b.toNat := eq_ofNat (by omega)
  rw [String.utf8EncodeChar, toNat_val_ofNat valid, if_pos (by omega), ← first]

theorem lead_ranges (b : UInt8) : b.toNat < 0x80 ∨ (0xC2 ≤ b.toNat ∧ b.toNat < 0xE0) ∨
    (0xE0 ≤ b.toNat ∧ b.toNat < 0xF0) ∨ (0xF0 ≤ b.toNat ∧ b.toNat < 0xF5) ∨
    (0x80 ≤ b.toNat ∧ b.toNat < 0xC2 ∨ 0xF5 ≤ b.toNat) := by
  omega

theorem fits_tail : ((0x80 : UInt8) ≤ b ∧ b ≤ 0xBF) ↔ 0x80 ≤ b.toNat ∧ b.toNat ≤ 0xBF := Iff.rfl

theorem fits_between {lo lo' hi hi' : UInt8} {p q : Prop} [Decidable p] [Decidable q] :
    ((if p then lo else lo') ≤ b ∧ b ≤ if q then hi else hi') ↔
      (if p then lo.toNat else lo'.toNat) ≤ b.toNat ∧
        b.toNat ≤ if q then hi.toNat else hi'.toNat := by
  rw [UInt8.le_iff_toNat_le, UInt8.le_iff_toNat_le, apply_ite UInt8.toNat, apply_ite UInt8.toNat]

/-- What is taken for a character is its encoding. -/
theorem Forms.encodes (forms : Forms bs c) : String.utf8EncodeChar c = bs := by
  cases forms with
  | @single b _ first =>
    rcases lead_ranges b with low | ⟨low, high⟩ | ⟨low, high⟩ | ⟨low, high⟩ | bad
    · rw [lead_one low] at first
      rw [← Lead.char.inj first]
      exact encodes_one low
    · rw [lead_two low high] at first
      cases first
    · rw [lead_three low high] at first
      cases first
    · rw [lead_four low high] at first
      cases first
    · rw [lead_invalid bad] at first
      cases first
  | @sequence b s bs _ first later =>
    rcases lead_ranges b with low | ⟨low, high⟩ | ⟨low, high⟩ | ⟨low, high⟩ | bad
    · rw [lead_one low] at first
      cases first
    · rw [lead_two low high] at first
      rw [← Lead.sequence.inj first] at later
      obtain ⟨b₁, rfl, fits, same⟩ := completes_last.1 later
      rw [same]
      exact encodes_two low high (fits_tail.1 fits)
    · rw [lead_three low high] at first
      rw [← Lead.sequence.inj first] at later
      obtain ⟨b₁, _, rfl, fits, later⟩ := completes_more.1 later
      obtain ⟨b₂, rfl, fits', same⟩ := completes_last.1 later
      rw [same]
      exact encodes_three low high (fits_between.1 fits) (fits_tail.1 fits')
    · rw [lead_four low high] at first
      rw [← Lead.sequence.inj first] at later
      obtain ⟨b₁, _, rfl, fits, later⟩ := completes_more.1 later
      obtain ⟨b₂, _, rfl, fits', later⟩ := completes_more.1 later
      obtain ⟨b₃, rfl, fits'', same⟩ := completes_last.1 later
      rw [same]
      exact encodes_four low high (fits_between.1 fits) (fits_tail.1 fits') (fits_tail.1 fits'')
    · rw [lead_invalid bad] at first
      cases first

theorem toNat_byte {m : Nat} (small : m < 256) : (UInt8.ofNat m).toNat = m :=
  UInt8.toNat_ofNat'.trans (Nat.mod_eq_of_lt small)

theorem exists_forms_one {v : Nat} (high : v < 0x80) : ∃ bs, Forms bs (Char.ofNat v) := by
  have value := toNat_byte (m := v) (by omega)
  refine ⟨[UInt8.ofNat v], .single ?_⟩
  rw [lead_one (by omega), value]

theorem exists_forms_two {v : Nat} (low : 0x80 ≤ v) (high : v < 0x800) :
    ∃ bs, Forms bs (Char.ofNat v) := by
  have value := toNat_byte (m := v / 64 + 0xC0) (by omega)
  have value₁ := toNat_byte (m := v % 64 + 0x80) (by omega)
  generalize UInt8.ofNat (v / 64 + 0xC0) = b at value
  generalize UInt8.ofNat (v % 64 + 0x80) = b₁ at value₁
  have tail := fits_tail.2 (by omega : 0x80 ≤ b₁.toNat ∧ b₁.toNat ≤ 0xBF)
  exact ⟨_, .sequence (lead_two (b := b) (by omega) (by omega))
    (completes_last.2 ⟨b₁, rfl, tail, congrArg Char.ofNat (by omega)⟩)⟩

theorem exists_forms_three {v : Nat} (low : 0x800 ≤ v) (high : v < 0x10000)
    (noSurrogate : v < 0xD800 ∨ 0xDFFF < v) : ∃ bs, Forms bs (Char.ofNat v) := by
  have value := toNat_byte (m := v / 4096 + 0xE0) (by omega)
  have value₁ := toNat_byte (m := v / 64 % 64 + 0x80) (by omega)
  have value₂ := toNat_byte (m := v % 64 + 0x80) (by omega)
  generalize UInt8.ofNat (v / 4096 + 0xE0) = b at value
  generalize UInt8.ofNat (v / 64 % 64 + 0x80) = b₁ at value₁
  generalize UInt8.ofNat (v % 64 + 0x80) = b₂ at value₂
  have next : ((if b.toNat = 0xE0 then 0xA0 else 0x80 : UInt8) ≤ b₁ ∧
      b₁ ≤ if b.toNat = 0xED then 0x9F else 0xBF) := by
    rw [fits_between]
    show (if _ then 0xA0 else 0x80) ≤ _ ∧ _ ≤ if _ then 0x9F else 0xBF
    split_ifs <;> omega
  have tail := fits_tail.2 (by omega : 0x80 ≤ b₂.toNat ∧ b₂.toNat ≤ 0xBF)
  exact ⟨_, .sequence (lead_three (b := b) (by omega) (by omega))
    (completes_more.2 ⟨b₁, _, rfl, next,
      completes_last.2 ⟨b₂, rfl, tail, congrArg Char.ofNat (by omega)⟩⟩)⟩

theorem exists_forms_four {v : Nat} (low : 0x10000 ≤ v) (high : v < 0x110000) :
    ∃ bs, Forms bs (Char.ofNat v) := by
  have value := toNat_byte (m := v / 262144 + 0xF0) (by omega)
  have value₁ := toNat_byte (m := v / 4096 % 64 + 0x80) (by omega)
  have value₂ := toNat_byte (m := v / 64 % 64 + 0x80) (by omega)
  have value₃ := toNat_byte (m := v % 64 + 0x80) (by omega)
  generalize UInt8.ofNat (v / 262144 + 0xF0) = b at value
  generalize UInt8.ofNat (v / 4096 % 64 + 0x80) = b₁ at value₁
  generalize UInt8.ofNat (v / 64 % 64 + 0x80) = b₂ at value₂
  generalize UInt8.ofNat (v % 64 + 0x80) = b₃ at value₃
  have next : ((if b.toNat = 0xF0 then 0x90 else 0x80 : UInt8) ≤ b₁ ∧
      b₁ ≤ if b.toNat = 0xF4 then 0x8F else 0xBF) := by
    rw [fits_between]
    show (if _ then 0x90 else 0x80) ≤ _ ∧ _ ≤ if _ then 0x8F else 0xBF
    split_ifs <;> omega
  have inner := fits_tail.2 (by omega : 0x80 ≤ b₂.toNat ∧ b₂.toNat ≤ 0xBF)
  have tail := fits_tail.2 (by omega : 0x80 ≤ b₃.toNat ∧ b₃.toNat ≤ 0xBF)
  exact ⟨_, .sequence (lead_four (b := b) (by omega) (by omega))
    (completes_more.2 ⟨b₁, _, rfl, next, completes_more.2 ⟨b₂, _, rfl, inner,
      completes_last.2 ⟨b₃, rfl, tail, congrArg Char.ofNat (by omega)⟩⟩⟩)⟩

/-- The encoding of a character is taken for it. -/
theorem forms_utf8EncodeChar (c : Char) : Forms (String.utf8EncodeChar c) c := by
  have valid : c.toNat.isValidChar := c.valid
  have taken : ∃ bs, Forms bs (Char.ofNat c.toNat) := by
    rcases valid with below | ⟨above, last⟩
    · by_cases one : c.toNat < 0x80
      · exact exists_forms_one one
      · by_cases two : c.toNat < 0x800
        · exact exists_forms_two (by omega) two
        · exact exists_forms_three (by omega) (by omega) (.inl below)
    · by_cases three : c.toNat < 0x10000
      · exact exists_forms_three (by omega) three (.inr above)
      · exact exists_forms_four (by omega) last
  rw [Char.ofNat_toNat] at taken
  obtain ⟨bs, forms⟩ := taken
  exact forms.encodes ▸ forms

end Character

/-! ## Texts -/

section Text

variable {s : Sequence} {bs bytes : Bytes} {c : Char} {cs : List Char}

theorem encode_cons (c : Char) (cs : List Char) :
    encode (c :: cs) = String.utf8EncodeChar c ++ encode cs := rfl

theorem read_completes (completes : Completes s bs c) (rest : Bytes) :
    read (some s) (bs ++ rest) = some c :: read none rest := by
  induction completes with
  | last fits push =>
    rw [List.singleton_append, read, if_pos fits, push]
  | more fits push later ih =>
    rw [List.cons_append, read, if_pos fits, push]
    exact ih

theorem read_forms (forms : Forms bs c) (rest : Bytes) :
    read none (bs ++ rest) = some c :: read none rest := by
  cases forms with
  | single first => rw [List.singleton_append, read, first]
  | sequence first later =>
    rw [List.cons_append, read, first]
    exact read_completes later rest

theorem read_encode (cs : List Char) : read none (encode cs) = cs.map some := by
  induction cs with
  | nil => rfl
  | cons c cs ih =>
    rw [encode_cons, read_forms (forms_utf8EncodeChar c), ih, List.map_cons]

/-- The bytes are those of a text, after the rest of a character if one has been started. -/
def Encodes : Option Sequence → Bytes → List Char → Prop
  | none, bytes, cs => bytes = encode cs
  | some s, bytes, cs => ∃ tail c rest, Completes s tail c ∧ cs = c :: rest ∧
      bytes = tail ++ encode rest

theorem map_some_ne_gap (l : List (Option Char)) : none :: l ≠ cs.map some := by
  intro same
  have mem : none ∈ cs.map some := same ▸ List.mem_cons_self
  simp at mem

/-- Bytes that are read without a gap are those of the text that is read. -/
theorem encodes_of_read {started : Option Sequence} (gapless : read started bytes = cs.map some) :
    Encodes started bytes cs := by
  fun_induction read started bytes generalizing cs with
  | case1 =>
    obtain rfl := List.map_eq_nil_iff.1 gapless.symm
    rfl
  | case3 b bs c first ih =>
    obtain ⟨_, rest, rfl, head, tail⟩ := List.map_eq_cons_iff.1 gapless.symm
    obtain rfl := Option.some.inj head
    have later : bs = encode rest := ih tail.symm
    show b :: bs = encode _
    rw [encode_cons, (Forms.single first).encodes, ← later]
    rfl
  | case4 b bs s first ih =>
    obtain ⟨tail, c, rest, completes, rfl, rfl⟩ := ih gapless
    show b :: _ = encode _
    rw [encode_cons, (Forms.sequence first completes).encodes]
    rfl
  | case6 s b bs fits c push ih =>
    obtain ⟨_, rest, rfl, head, tail⟩ := List.map_eq_cons_iff.1 gapless.symm
    obtain rfl := Option.some.inj head
    have later : bs = encode rest := ih tail.symm
    exact ⟨[b], _, rest, .last fits push, rfl, congrArg (b :: ·) later⟩
  | case7 s b bs fits s' push ih =>
    obtain ⟨tail, c, rest, completes, rfl, rfl⟩ := ih gapless
    exact ⟨b :: tail, c, rest, .more fits push completes, rfl, rfl⟩
  | case2 | case5 | case8 | case9 | case10 => exact (map_some_ne_gap _ gapless).elim

theorem mapM_id_eq_some {l : List (Option Char)} : l.mapM id = some cs ↔ l = cs.map some := by
  induction l generalizing cs with
  | nil =>
    rw [List.mapM_nil, eq_comm (a := []), List.map_eq_nil_iff]
    exact Option.some_inj.trans eq_comm
  | cons a l ih =>
    rw [List.mapM_cons]
    cases a with
    | none => exact iff_of_false (fun found => nomatch found) (map_some_ne_gap l)
    | some c =>
      cases later : l.mapM id with
      | none =>
        refine iff_of_false (fun found => nomatch found) fun same => ?_
        obtain ⟨_, rest, rfl, -, tail⟩ := List.map_eq_cons_iff.1 same.symm
        rw [ih.2 tail.symm] at later
        cases later
      | some rest =>
        obtain rfl := ih.1 later
        rw [← List.map_cons]
        exact Option.some_inj.trans (List.map_inj_right fun _ _ => Option.some.inj).symm

/-- Exactly the bytes of a text are decoded, and to that text. -/
theorem decode?_eq_some : decode? bytes = some cs ↔ bytes = encode cs := by
  rw [decode?, mapM_id_eq_some]
  constructor
  · exact fun gapless => encodes_of_read gapless
  · rintro rfl
    exact read_encode cs

end Text

end MessageLens.Utf8
