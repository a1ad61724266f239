import EntityQuery.Number.Decimal
import Mathlib.Algebra.Order.Field.Power
import Mathlib.Data.Rat.Cast.Order
import Mathlib.Order.Std

/-! # The numbers that decimals and floating-point numbers write

Two decimals are compared over a common number of places, and two finite floating-point numbers over
a common power of two.  The places and the powers make no difference: what is compared are the
rational numbers written. -/

namespace EntityQuery

/-! ## Comparisons in linear orders -/

theorem compareOfLessAndEq_eq_eq_iff {β : Type} [LinearOrder β] {x y : β} :
    compareOfLessAndEq x y = .eq ↔ x = y :=
  compareOfLessAndEq_eq_eq le_refl not_le

/-- A strictly increasing map makes no difference to a comparison. -/
theorem compareOfLessAndEq_of_strictMono {α β : Type} [LinearOrder α] [LinearOrder β] {f : α → β}
    (hf : StrictMono f) (x y : α) :
    compareOfLessAndEq (f x) (f y) = compareOfLessAndEq x y := by
  simp only [compareOfLessAndEq, hf.lt_iff_lt, hf.injective.eq_iff]

/-! ## Scaled integers -/

namespace Binary

/-- A number with a larger exponent, over a smaller one. -/
theorem cast_mul_pow (a : Int) {base k q : Int} {i : Nat} (hbase : 0 < base) (hi : k + i = q) :
    ((a * base ^ i : Int) : ℚ) = a * (base : ℚ) ^ q * (base : ℚ) ^ (-k) := by
  have hne : (base : ℚ) ≠ 0 := Int.cast_ne_zero.2 hbase.ne'
  have hpow : ((base ^ i : Int) : ℚ) = (base : ℚ) ^ (i : Int) :=
    (Int.cast_pow base i).trans (zpow_natCast (base : ℚ) i).symm
  rw [Int.cast_mul, hpow, mul_assoc, ← zpow_add₀ hne, ← hi, add_neg_cancel_comm]

/-- Two integers over one power of a base are compared as the rational numbers that they scale. -/
theorem compareInt_mul_pow (a b : Int) {base k q r : Int} {i j : Nat} (hbase : 0 < base)
    (hi : k + i = q) (hj : k + j = r) : compareInt (a * base ^ i) (b * base ^ j) =
      compareOfLessAndEq (a * (base : ℚ) ^ q) (b * (base : ℚ) ^ r) := by
  have hpos : 0 < (base : ℚ) ^ (-k) := zpow_pos (Int.cast_pos.2 hbase) _
  have hmono : StrictMono fun x : ℚ => x * (base : ℚ) ^ (-k) := strictMono_mul_right_of_pos hpos
  rw [compareInt, ← compareOfLessAndEq_of_strictMono hmono, ← cast_mul_pow a hbase hi,
    ← cast_mul_pow b hbase hj]
  exact (compareOfLessAndEq_of_strictMono Int.cast_strictMono _ _).symm

/-- Finite numbers are compared as the rational numbers that they write. -/
theorem compare?_finite {f : FloatFormat} {s t : Bool} {m n : Nat} {q r : Int} (hm : f.Fits m q)
    (hn : f.Fits n r) : (Binary.finite s m q hm).compare? (.finite t n r hn) =
      some (compareOfLessAndEq ((signed s m : ℚ) * 2 ^ q) (signed t n * 2 ^ r)) := by
  have hq : min q r + ((q - min q r).toNat : Int) = q := by omega
  have hr : min q r + ((r - min q r).toNat : Int) = r := by omega
  exact congrArg some (compareInt_mul_pow (signed s m) (signed t n) (by decide) hq hr)

end Binary

namespace Decimal

/-- The number that a decimal writes. -/
def number (a : Decimal) : ℚ := a.signed * 10 ^ (-(a.scale : Int))

/-- Decimals are compared as the numbers that they write, however many places they have. -/
theorem compare_eq (a b : Decimal) : a.compare b = compareOfLessAndEq a.number b.number := by
  have ha : (-a.scale - b.scale : Int) + b.scale = -a.scale := by omega
  have hb : (-a.scale - b.scale : Int) + a.scale = -b.scale := by omega
  exact Binary.compareInt_mul_pow a.signed b.signed (by decide) ha hb

end Decimal

end EntityQuery
