import Mathlib

/-!
# AtlasManager.Lib.Base64

Bytes as text in the URL-safe alphabet of base64, without padding.

Several texts may decode to the same bytes, since the last character of a
group may carry bits that no byte takes; one of them is the encoding.

* `decode_encode` -- the encoding of bytes decodes to the bytes;
* `encode_alphabet`, `length_encode_mod` -- what every encoding looks like.
-/

namespace AtlasManager.Lib.Base64

/-- `A` to `Z`, `a` to `z`, `0` to `9`, `-`, `_`. -/
def sextetChar (n : Nat) : Char :=
  if n < 26 then Char.ofNat (65 + n)
  else if n < 52 then Char.ofNat (97 + (n - 26))
  else if n < 62 then Char.ofNat (48 + (n - 52))
  else if n = 62 then '-'
  else '_'

def sextet? (c : Char) : Option Nat :=
  if 'A' ≤ c ∧ c ≤ 'Z' then some (c.toNat - 65)
  else if 'a' ≤ c ∧ c ≤ 'z' then some (c.toNat - 97 + 26)
  else if '0' ≤ c ∧ c ≤ '9' then some (c.toNat - 48 + 52)
  else if c = '-' then some 62
  else if c = '_' then some 63
  else none

/-- Three bytes in four characters. -/
def encode : List UInt8 → List Char
  | [] => []
  | [a] => [sextetChar (a.toNat / 4), sextetChar (a.toNat % 4 * 16)]
  | [a, b] =>
    [sextetChar (a.toNat / 4), sextetChar (a.toNat % 4 * 16 + b.toNat / 16),
      sextetChar (b.toNat % 16 * 4)]
  | a :: b :: c :: rest =>
    sextetChar (a.toNat / 4) :: sextetChar (a.toNat % 4 * 16 + b.toNat / 16) ::
      sextetChar (b.toNat % 16 * 4 + c.toNat / 64) :: sextetChar (c.toNat % 64) :: encode rest

/-- Four characters to three bytes; bits that fill no byte are dropped. -/
def decode : List Char → Option (List UInt8)
  | [] => some []
  | [_] => none
  | [c, d] => do
    let x ← sextet? c
    let y ← sextet? d
    return [UInt8.ofNat (x * 4 + y / 16)]
  | [c, d, e] => do
    let x ← sextet? c
    let y ← sextet? d
    let z ← sextet? e
    return [UInt8.ofNat (x * 4 + y / 16), UInt8.ofNat (y % 16 * 16 + z / 4)]
  | c :: d :: e :: f :: rest => do
    let x ← sextet? c
    let y ← sextet? d
    let z ← sextet? e
    let w ← sextet? f
    let bytes ← decode rest
    return UInt8.ofNat (x * 4 + y / 16) :: UInt8.ofNat (y % 16 * 16 + z / 4) ::
      UInt8.ofNat (z % 4 * 64 + w) :: bytes

theorem sextet?_sextetChar : ∀ n < 64, sextet? (sextetChar n) = some n := by decide

private theorem byte_eq {a : UInt8} {n : Nat} (h : n = a.toNat) : UInt8.ofNat n = a := by
  rw [h, UInt8.ofNat_toNat]

/-- **Roundtrip**: the encoding of bytes decodes to the bytes. -/
@[simp] theorem decode_encode (bytes : List UInt8) : decode (encode bytes) = some bytes := by
  induction bytes using encode.induct with
  | case1 => rfl
  | case2 a =>
      have ha := a.toNat_lt
      simp only [encode, decode, sextet?_sextetChar _ (show a.toNat / 4 < 64 by omega),
        sextet?_sextetChar _ (show a.toNat % 4 * 16 < 64 by omega), Option.bind_eq_bind,
        Option.bind_some, Option.pure_def]
      rw [byte_eq (a := a) (by omega)]
  | case3 a b =>
      have ha := a.toNat_lt
      have hb := b.toNat_lt
      simp only [encode, decode, sextet?_sextetChar _ (show a.toNat / 4 < 64 by omega),
        sextet?_sextetChar _ (show a.toNat % 4 * 16 + b.toNat / 16 < 64 by omega),
        sextet?_sextetChar _ (show b.toNat % 16 * 4 < 64 by omega), Option.bind_eq_bind,
        Option.bind_some, Option.pure_def]
      rw [byte_eq (a := a) (by omega), byte_eq (a := b) (by omega)]
  | case4 a b c rest ih =>
      have ha := a.toNat_lt
      have hb := b.toNat_lt
      have hc := c.toNat_lt
      simp only [encode, decode, ih, sextet?_sextetChar _ (show a.toNat / 4 < 64 by omega),
        sextet?_sextetChar _ (show a.toNat % 4 * 16 + b.toNat / 16 < 64 by omega),
        sextet?_sextetChar _ (show b.toNat % 16 * 4 + c.toNat / 64 < 64 by omega),
        sextet?_sextetChar _ (show c.toNat % 64 < 64 by omega), Option.bind_eq_bind,
        Option.bind_some, Option.pure_def]
      rw [byte_eq (a := a) (by omega), byte_eq (a := b) (by omega), byte_eq (a := c) (by omega)]

theorem encode_eq_nil {bytes : List UInt8} : encode bytes = [] ↔ bytes = [] := by
  cases bytes using encode.induct <;> simp [encode]

/-- The bits of an encoding are never left over. -/
theorem length_encode_mod (bytes : List UInt8) : (encode bytes).length % 4 ≠ 1 := by
  induction bytes using encode.induct with
  | case1 => decide
  | case2 a => simp [encode]
  | case3 a b => simp [encode]
  | case4 a b c rest ih =>
      simp only [encode, List.length_cons]
      omega

/-- An encoding has no character outside the alphabet. -/
theorem encode_alphabet {bytes : List UInt8} {ch : Char} (h : ch ∈ encode bytes) :
    ∃ n < 64, ch = sextetChar n := by
  induction bytes using encode.induct with
  | case1 => simp [encode] at h
  | case2 a =>
      have ha := a.toNat_lt
      simp only [encode, List.mem_cons, List.not_mem_nil, or_false] at h
      rcases h with h | h
      · exact ⟨_, by omega, h⟩
      · exact ⟨_, by omega, h⟩
  | case3 a b =>
      have ha := a.toNat_lt
      have hb := b.toNat_lt
      simp only [encode, List.mem_cons, List.not_mem_nil, or_false] at h
      rcases h with h | h | h
      · exact ⟨_, by omega, h⟩
      · exact ⟨_, by omega, h⟩
      · exact ⟨_, by omega, h⟩
  | case4 a b c rest ih =>
      have ha := a.toNat_lt
      have hb := b.toNat_lt
      have hc := c.toNat_lt
      simp only [encode, List.mem_cons] at h
      rcases h with h | h | h | h | h
      · exact ⟨_, by omega, h⟩
      · exact ⟨_, by omega, h⟩
      · exact ⟨_, by omega, h⟩
      · exact ⟨_, by omega, h⟩
      · exact ih h

end AtlasManager.Lib.Base64
