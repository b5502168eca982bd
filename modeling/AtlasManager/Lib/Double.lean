import Mathlib

/-!
# AtlasManager.Lib.Double

Numbers of double precision, with the number that is nearest to a rational one.

* `Double` -- a number that is finite, or too large to be;
* `nearest` -- rounding to the nearest number, ties to even;
* `nearest_natCast` -- natural numbers below `2 ^ 53` are their own nearest numbers.
-/

namespace AtlasManager.Lib

/-- A number of double precision that is not `NaN`. -/
inductive Double where
  | finite (negative : Bool) (magnitude : Rat)
  | infinite (negative : Bool)
  deriving DecidableEq

namespace Double

def isFinite : Double → Bool
  | finite _ _ => true
  | infinite _ => false

/-- The nearest integer, the even one of two. -/
def roundHalfEven (x : Rat) : Int :=
  if x - ⌊x⌋ < 1 / 2 then ⌊x⌋
  else if 1 / 2 < x - ⌊x⌋ then ⌊x⌋ + 1
  else if ⌊x⌋ % 2 = 0 then ⌊x⌋
  else ⌊x⌋ + 1

/-- The exponent of the last of the 53 binary digits of a magnitude. -/
def ulpExponent (x : Rat) : Int := max (Int.log 2 x - 52) (-1074)

/-- The number that is nearest to a magnitude with a sign. -/
def nearest (negative : Bool) (x : Rat) : Double :=
  let rounded : Rat := roundHalfEven (x / 2 ^ ulpExponent x) * 2 ^ ulpExponent x
  if rounded < 2 ^ (1024 : Nat) then .finite negative rounded else .infinite negative

@[simp] theorem roundHalfEven_intCast (n : Int) : roundHalfEven n = n := by
  rw [roundHalfEven, Int.floor_intCast, sub_self, if_pos (by norm_num)]

/-- A natural number of 53 binary digits is exact. -/
theorem nearest_natCast {n : Nat} (h : n < 2 ^ 53) (negative : Bool) :
    nearest negative n = .finite negative n := by
  have hlog : Int.log 2 (n : Rat) ≤ 52 := by
    rw [Int.log_natCast]
    have hlt : Nat.log 2 n < 53 := Nat.log_lt_of_lt_pow' (by norm_num) h
    omega
  obtain ⟨k, hk⟩ : ∃ k : Nat, ulpExponent (n : Rat) = -(k : Int) :=
    ⟨(-ulpExponent (n : Rat)).toNat, by unfold ulpExponent; omega⟩
  have hexact : (n : Rat) / 2 ^ ulpExponent (n : Rat) = ((n * 2 ^ k : Nat) : Int) := by
    rw [hk, zpow_neg, zpow_natCast]
    push_cast
    field_simp
  have hback : (((n * 2 ^ k : Nat) : Int) : Rat) * 2 ^ ulpExponent (n : Rat) = n := by
    rw [hk, zpow_neg, zpow_natCast]
    push_cast
    field_simp
  have hsmall : (n : Rat) < 2 ^ (1024 : Nat) := by
    have hle : (2 : Rat) ^ (53 : Nat) ≤ 2 ^ (1024 : Nat) :=
      pow_le_pow_right₀ (by norm_num) (by norm_num)
    have hcast : (n : Rat) < 2 ^ (53 : Nat) := by exact_mod_cast h
    exact hcast.trans_le hle
  simp only [nearest, hexact, roundHalfEven_intCast, hback, if_pos hsmall]

end Double

end AtlasManager.Lib
