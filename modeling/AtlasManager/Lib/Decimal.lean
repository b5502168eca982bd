import Mathlib

/-!
# AtlasManager.Lib.Decimal

Fixed-width decimal numerals as character lists, and the lexicographic order
of texts built from them.

A text made of fixed-width fields separated by constant characters is ordered
like the tuple of its fields.  Both halves of that fact live here:

* `append_lt_append_iff` -- equally long prefixes are compared first;
* `pad_lt_pad_iff` -- two numerals of one width are ordered like their values.
-/

namespace AtlasManager.Lib

/-! ## Lexicographic comparison of appended texts -/

/-- Texts that start with equally long prefixes are compared on these first. -/
theorem append_lt_append_iff {a b x y : List Char} (h : a.length = b.length) :
    a ++ x < b ++ y ↔ a < b ∨ a = b ∧ x < y := by
  induction a generalizing b with
  | nil =>
      obtain rfl : b = [] := List.length_eq_zero_iff.mp h.symm
      simp
  | cons c cs ih =>
      cases b with
      | nil => simp at h
      | cons d ds =>
          have hlen : cs.length = ds.length := by simpa using h
          simp only [List.cons_append, List.cons_lt_cons_iff, ih hlen, List.cons.injEq]
          grind

/-- A common first character does not take part in the comparison. -/
theorem cons_lt_cons_same (c : Char) (x y : List Char) : c :: x < c :: y ↔ x < y := by
  rw [List.cons_lt_cons_iff]
  simp

/-! ## Numerals of a fixed width -/

/-- The last `w` decimal digits of `n`, with leading zeros. -/
def pad : Nat → Nat → List Char
  | 0, _ => []
  | w + 1, n => pad w (n / 10) ++ [Nat.digitChar (n % 10)]

/-- The value of one decimal digit. -/
def digitValue (c : Char) : Option Nat :=
  if '0' ≤ c ∧ c ≤ '9' then some (c.toNat - '0'.toNat) else none

/-- The value of a digit text, read from the most significant digit on. -/
def readDigits (acc : Nat) : List Char → Option Nat
  | [] => some acc
  | c :: cs => (digitValue c).bind fun d => readDigits (10 * acc + d) cs

@[simp] theorem length_pad (w n : Nat) : (pad w n).length = w := by
  induction w generalizing n with
  | zero => rfl
  | succ w ih => simp [pad, ih]

private theorem digitChar_lt_iff : ∀ a < 10, ∀ b < 10,
    (Nat.digitChar a < Nat.digitChar b ↔ a < b) := by decide

private theorem digitChar_inj : ∀ a < 10, ∀ b < 10,
    Nat.digitChar a = Nat.digitChar b → a = b := by decide

theorem digitValue_digitChar : ∀ d < 10, digitValue (Nat.digitChar d) = some d := by decide

/-- Numerals of one width determine their values. -/
theorem pad_inj {w a b : Nat} (ha : a < 10 ^ w) (hb : b < 10 ^ w) (h : pad w a = pad w b) :
    a = b := by
  induction w generalizing a b with
  | zero => simp at ha hb; omega
  | succ w ih =>
      have hlen : (pad w (a / 10)).length = (pad w (b / 10)).length := by simp
      obtain ⟨hhead, hlast⟩ := List.append_inj h hlen
      rw [pow_succ] at ha hb
      have hquot := ih (by omega) (by omega) hhead
      have hrem := digitChar_inj (a % 10) (by omega) (b % 10) (by omega) (by simpa using hlast)
      omega

/-- Numerals of one width are ordered like their values. -/
theorem pad_lt_pad_iff {w a b : Nat} (ha : a < 10 ^ w) (hb : b < 10 ^ w) :
    pad w a < pad w b ↔ a < b := by
  induction w generalizing a b with
  | zero => simp at ha hb; simp [pad, ha, hb]
  | succ w ih =>
      rw [pow_succ] at ha hb
      have hlen : (pad w (a / 10)).length = (pad w (b / 10)).length := by simp
      have hrem := digitChar_lt_iff (a % 10) (by omega) (b % 10) (by omega)
      have hquot : pad w (a / 10) = pad w (b / 10) ↔ a / 10 = b / 10 :=
        ⟨pad_inj (by omega) (by omega), fun h => by rw [h]⟩
      rw [pad, pad, append_lt_append_iff hlen, ih (by omega) (by omega), hquot]
      simp only [List.cons_lt_cons_iff, hrem, List.not_lt_nil, and_false, or_false]
      omega

/-- A separator and a numeral of fixed width in front of the rest: the value
of the numeral decides before the rest does. -/
theorem field_lt_iff {w a b : Nat} (c : Char) (ha : a < 10 ^ w) (hb : b < 10 ^ w)
    (x y : List Char) :
    c :: (pad w a ++ x) < c :: (pad w b ++ y) ↔ a < b ∨ a = b ∧ x < y := by
  have heq : pad w a = pad w b ↔ a = b := ⟨pad_inj ha hb, fun h => by rw [h]⟩
  rw [cons_lt_cons_same, append_lt_append_iff (by simp), pad_lt_pad_iff ha hb, heq]

/-- Reading digits left to right resumes after a prefix. -/
theorem readDigits_append (acc : Nat) (xs ys : List Char) :
    readDigits acc (xs ++ ys) = (readDigits acc xs).bind fun n => readDigits n ys := by
  induction xs generalizing acc with
  | nil => rfl
  | cons c cs ih =>
      simp only [List.cons_append, readDigits]
      cases digitValue c with
      | none => rfl
      | some d => simp [ih]

/-- A padded numeral reads back as its value. -/
theorem readDigits_pad {w n : Nat} (h : n < 10 ^ w) : readDigits 0 (pad w n) = some n := by
  induction w generalizing n with
  | zero => simp at h; simp [pad, readDigits, h]
  | succ w ih =>
      rw [pow_succ] at h
      rw [pad, readDigits_append, ih (by omega)]
      simp only [Option.bind_some, readDigits, digitValue_digitChar (n % 10) (by omega)]
      congr 1
      omega

end AtlasManager.Lib
