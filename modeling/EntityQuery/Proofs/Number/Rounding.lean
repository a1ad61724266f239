import EntityQuery.Proofs.Number.Rational
import Mathlib.Tactic.Linarith
import Mathlib.Tactic.Ring

/-! # Rounding keeps the order

A quotient of naturals is rounded to a significand over a power of two, and the power is chosen for
the significand to have all its bits.  Of two quotients, the larger has the larger power or, over
the same power, the larger significand, so that rounding may make two numbers one but never
exchanges them (`Binary.rounded_mono`). -/

namespace EntityQuery

/-! ## Quotients to integers -/

theorem roundDiv_one (n : Nat) : roundDiv n 1 = n := by
  simp [roundDiv, Nat.mod_one]

/-- A larger quotient is not rounded to a smaller integer: of two with the same integral part, the
one that is rounded up is no smaller, and a half is rounded alike. -/
theorem roundDiv_mono {a b c d : Nat} (hb : 0 < b) (hd : 0 < d) (h : (a / b : ℚ) ≤ c / d) :
    roundDiv a b ≤ roundDiv c d := by
  have h : a * d ≤ c * b := by
    rw [div_le_div_iff₀ (Nat.cast_pos.2 hb) (Nat.cast_pos.2 hd)] at h
    exact_mod_cast h
  have hdiv : a / b ≤ c / d := by
    rw [Nat.le_div_iff_mul_le hd]
    refine Nat.le_of_mul_le_mul_right ?_ hb
    calc a / b * d * b = a / b * b * d := Nat.mul_right_comm _ _ _
      _ ≤ a * d := Nat.mul_le_mul_right d (Nat.div_mul_le_self a b)
      _ ≤ c * b := h
  have hup : roundDiv a b ≤ a / b + 1 := by
    rw [roundDiv]
    split <;> omega
  have hdown : c / d ≤ roundDiv c d := by
    rw [roundDiv]
    split <;> omega
  rcases Nat.lt_or_eq_of_le hdiv with hless | hsame
  · omega
  · -- Between the same integers, the remainders decide.
    have hrest : 2 * (a % b) * d ≤ 2 * (c % d) * b := by
      have ha : a * d = c / d * (b * d) + a % b * d := by
        conv_lhs => rw [← Nat.div_add_mod a b, hsame]
        ring
      have hc : c * b = c / d * (b * d) + c % d * b := by
        conv_lhs => rw [← Nat.div_add_mod c d]
        ring
      rw [ha, hc] at h
      linarith
    rw [roundDiv, roundDiv, hsame]
    by_cases hto : 2 * (c % d) < d ∨ 2 * (c % d) = d ∧ c / d % 2 = 0
    · rw [if_pos hto, if_pos]
      rcases hto with hto | ⟨hto, heven⟩
      · have hstrict : 2 * (a % b) * d < b * d := by
          calc 2 * (a % b) * d ≤ 2 * (c % d) * b := hrest
            _ < d * b := Nat.mul_lt_mul_of_pos_right hto hb
            _ = b * d := Nat.mul_comm d b
        exact .inl (Nat.lt_of_mul_lt_mul_right hstrict)
      · rw [hto, Nat.mul_comm d b] at hrest
        have hle := Nat.le_of_mul_le_mul_right hrest hd
        omega
    · rw [if_neg hto]
      split <;> omega

namespace Binary

variable {f : FloatFormat} {a b c d : Nat} {q : Int}

/-! ## Powers of two -/

theorem natCast_two_pow (k : Nat) : ((2 ^ k : Nat) : ℚ) = 2 ^ (k : Int) :=
  (Nat.cast_pow 2 k).trans (zpow_natCast 2 k).symm

theorem natCast_two_pow_toNat {k : Int} (hk : 0 ≤ k) : ((2 ^ k.toNat : Nat) : ℚ) = 2 ^ k := by
  rw [natCast_two_pow, Int.toNat_of_nonneg hk]

theorem two_zpow_pos (k : Int) : (0 : ℚ) < 2 ^ k := zpow_pos (by norm_num) k

theorem two_zpow_le_iff {j k : Int} : (2 : ℚ) ^ j ≤ 2 ^ k ↔ j ≤ k :=
  zpow_le_zpow_iff_right₀ (by norm_num)

theorem two_zpow_lt_iff {j k : Int} : (2 : ℚ) ^ j < 2 ^ k ↔ j < k :=
  zpow_lt_zpow_iff_right₀ (by norm_num)

theorem two_zpow_add (j k : Int) : (2 : ℚ) ^ (j + k) = 2 ^ j * 2 ^ k := zpow_add₀ (by norm_num) j k

/-- A quotient is compared with a power of two without leaving the naturals. -/
theorem lt_two_zpow_iff (hb : 0 < b) (k : Int) :
    (if k ≥ 0 then a < b * 2 ^ k.toNat else a * 2 ^ (-k).toNat < b) ↔ (a / b : ℚ) < 2 ^ k := by
  have hb' : (0 : ℚ) < b := Nat.cast_pos.2 hb
  split
  · rename_i hk
    rw [div_lt_iff₀' hb', ← natCast_two_pow_toNat hk, ← Nat.cast_mul, Nat.cast_lt]
  · rename_i hk
    have hneg : (2 : ℚ) ^ k = (2 ^ (-k))⁻¹ := by rw [zpow_neg, inv_inv]
    rw [hneg, ← natCast_two_pow_toNat (k := -k) (by omega), div_lt_iff₀' hb', ← div_eq_mul_inv,
      lt_div_iff₀ (Nat.cast_pos.2 (Nat.pow_pos (by decide))), ← Nat.cast_mul, Nat.cast_lt]

/-- A number lies between the powers of two that its logarithm gives. -/
theorem log2_bounds (ha : 0 < a) :
    (2 : ℚ) ^ (Nat.log2 a : Int) ≤ a ∧ (a : ℚ) < 2 ^ ((Nat.log2 a : Int) + 1) := by
  constructor
  · rw [← natCast_two_pow, Nat.cast_le]
    exact Nat.log2_self_le (by omega)
  · rw [← Int.natCast_succ, ← natCast_two_pow, Nat.cast_lt]
    exact Nat.lt_log2_self

/-- A quotient is scaled by the power of two that leaves its `precision` leading bits, but by none
below the least. -/
theorem scaleOf_eq (f : FloatFormat) (ha : 0 < a) (hb : 0 < b) :
    ∃ e : Int, scaleOf f a b = max (e - f.precision) f.minExponent ∧
      2 ^ (e - 1) ≤ (a / b : ℚ) ∧ (a / b : ℚ) < 2 ^ e := by
  have ha' : (0 : ℚ) < a := Nat.cast_pos.2 ha
  have hb' : (0 : ℚ) < b := Nat.cast_pos.2 hb
  obtain ⟨halow, hahigh⟩ := log2_bounds ha
  obtain ⟨hblow, hbhigh⟩ := log2_bounds hb
  have hbelow := lt_two_zpow_iff (a := a) hb ((Nat.log2 a : Int) - Nat.log2 b)
  rw [scaleOf]
  by_cases h : (a / b : ℚ) < 2 ^ ((Nat.log2 a : Int) - Nat.log2 b)
  · refine ⟨_, by rw [if_pos (hbelow.2 h)], ?_, h⟩
    rw [le_div_iff₀ hb']
    calc (2 : ℚ) ^ ((Nat.log2 a : Int) - Nat.log2 b - 1) * b
        ≤ 2 ^ ((Nat.log2 a : Int) - Nat.log2 b - 1) * 2 ^ ((Nat.log2 b : Int) + 1) :=
          mul_le_mul_of_nonneg_left hbhigh.le (two_zpow_pos _).le
      _ = 2 ^ (Nat.log2 a : Int) := by
          rw [← two_zpow_add]
          congr 1
          omega
      _ ≤ a := halow
  · refine ⟨(Nat.log2 a : Int) - Nat.log2 b + 1, ?_, ?_, ?_⟩
    · rw [if_neg fun hless => h (hbelow.1 hless)]
      congr 1
      omega
    · rw [Int.add_sub_cancel]
      exact not_lt.1 h
    · rw [div_lt_iff₀ hb']
      calc (a : ℚ) < 2 ^ ((Nat.log2 a : Int) + 1) := hahigh
        _ = 2 ^ ((Nat.log2 a : Int) - Nat.log2 b + 1) * 2 ^ (Nat.log2 b : Int) := by
          rw [← two_zpow_add]
          congr 1
          omega
        _ ≤ 2 ^ ((Nat.log2 a : Int) - Nat.log2 b + 1) * b :=
          mul_le_mul_of_nonneg_left hblow (two_zpow_pos _).le

/-! ## Significands -/

/-- The significand of a quotient over a power of two. -/
def significandAt (a b : Nat) (q : Int) : Nat :=
  if q ≥ 0 then roundDiv a (b * 2 ^ q.toNat) else roundDiv (a * 2 ^ (-q).toNat) b

/-- A significand is a fraction rounded to the nearest integer. -/
theorem significandAt_eq_roundDiv (hb : 0 < b) (a : Nat) (q : Int) :
    ∃ m n : Nat, 0 < n ∧ significandAt a b q = roundDiv m n ∧ (m / n : ℚ) = a / b / 2 ^ q := by
  rw [significandAt]
  split
  · rename_i hq
    refine ⟨a, _, Nat.mul_pos hb (Nat.pow_pos (by decide)), rfl, ?_⟩
    rw [Nat.cast_mul, natCast_two_pow_toNat hq, div_div]
  · rename_i hq
    refine ⟨_, b, hb, rfl, ?_⟩
    rw [Nat.cast_mul, natCast_two_pow_toNat (by omega), zpow_neg, div_right_comm, ← div_eq_mul_inv]

/-- At one scale, greater numbers have greater significands. -/
theorem significandAt_mono (hb : 0 < b) (hd : 0 < d) (h : (a / b : ℚ) ≤ c / d) (q : Int) :
    significandAt a b q ≤ significandAt c d q := by
  obtain ⟨m, n, hn, hm, hmn⟩ := significandAt_eq_roundDiv hb a q
  obtain ⟨m', n', hn', hm', hmn'⟩ := significandAt_eq_roundDiv hd c q
  rw [hm, hm']
  apply roundDiv_mono hn hn'
  rw [hmn, hmn']
  exact div_le_div_of_nonneg_right h (two_zpow_pos q).le

theorem significandAt_le (hb : 0 < b) {k : Nat} (h : (a / b : ℚ) ≤ k * 2 ^ q) :
    significandAt a b q ≤ k := by
  obtain ⟨m, n, hn, hm, hmn⟩ := significandAt_eq_roundDiv hb a q
  rw [hm, ← roundDiv_one k]
  apply roundDiv_mono hn Nat.one_pos
  rw [hmn, Nat.cast_one, div_one]
  exact (div_le_iff₀ (two_zpow_pos q)).2 h

theorem le_significandAt (hb : 0 < b) {k : Nat} (h : k * 2 ^ q ≤ (a / b : ℚ)) :
    k ≤ significandAt a b q := by
  obtain ⟨m, n, hn, hm, hmn⟩ := significandAt_eq_roundDiv hb a q
  rw [hm, ← roundDiv_one k]
  apply roundDiv_mono Nat.one_pos hn
  rw [hmn, Nat.cast_one, div_one]
  exact (le_div_iff₀ (two_zpow_pos q)).2 h

theorem significandAt_zero (hb : 0 < b) (q : Int) : significandAt 0 b q = 0 := by
  refine Nat.le_zero.1 (significandAt_le hb ?_)
  simp

/-! ## Rounded numbers -/

/-- The number that a quotient is rounded to, in a format without a largest exponent. -/
def rounded (f : FloatFormat) (negative : Bool) (a b : Nat) : ℚ :=
  signed negative (significandAt a b (scaleOf f a b)) * 2 ^ scaleOf f a b

theorem rounded_true (f : FloatFormat) (a b : Nat) : rounded f true a b = -rounded f false a b := by
  simp [rounded, signed]

theorem rounded_zero (f : FloatFormat) (negative : Bool) (hb : 0 < b) :
    rounded f negative 0 b = 0 := by
  rw [rounded, significandAt_zero hb]
  cases negative <;> simp [signed]

theorem rounded_nonneg (f : FloatFormat) (a b : Nat) : 0 ≤ rounded f false a b :=
  mul_nonneg (Int.cast_nonneg (Int.natCast_nonneg _)) (two_zpow_pos _).le

/-- The significand has all its bits, over any power of two but the least; rounding up may take it
to the next power. -/
theorem significandAt_bounds (hp : 0 < f.precision) (ha : 0 < a) (hb : 0 < b) :
    significandAt a b (scaleOf f a b) ≤ 2 ^ f.precision ∧
      (2 ^ (f.precision - 1) ≤ significandAt a b (scaleOf f a b) ∨
        scaleOf f a b = f.minExponent) := by
  obtain ⟨e, he, hlow, hhigh⟩ := scaleOf_eq f ha hb
  constructor
  · apply significandAt_le hb
    rw [natCast_two_pow, ← two_zpow_add]
    exact hhigh.le.trans (two_zpow_le_iff.2 (by omega))
  · by_cases hleast : e - f.precision ≤ f.minExponent
    · exact .inr (by omega)
    · refine .inl (le_significandAt hb ?_)
      rw [natCast_two_pow, ← two_zpow_add]
      exact (two_zpow_le_iff.2 (by omega)).trans hlow

/-- Greater numbers have greater scales. -/
theorem scaleOf_mono (ha : 0 < a) (hb : 0 < b) (hc : 0 < c) (hd : 0 < d)
    (h : (a / b : ℚ) ≤ c / d) : scaleOf f a b ≤ scaleOf f c d := by
  obtain ⟨e, he, hlow, -⟩ := scaleOf_eq f ha hb
  obtain ⟨e', he', -, hhigh⟩ := scaleOf_eq f hc hd
  have hless : e - 1 < e' := two_zpow_lt_iff.1 (hlow.trans_lt (h.trans_lt hhigh))
  omega

/-- A larger number is not rounded to a smaller one. -/
theorem rounded_mono (hp : 0 < f.precision) (hb : 0 < b) (hd : 0 < d) (h : (a / b : ℚ) ≤ c / d) :
    rounded f false a b ≤ rounded f false c d := by
  rcases Nat.eq_zero_or_pos a with rfl | ha
  · rw [rounded_zero f false hb]
    exact rounded_nonneg f c d
  · have hc : 0 < c := by
      have hpos : (0 : ℚ) < a / b := div_pos (Nat.cast_pos.2 ha) (Nat.cast_pos.2 hb)
      rcases Nat.eq_zero_or_pos c with rfl | hc
      · rw [Nat.cast_zero, zero_div] at h
        exact absurd h hpos.not_ge
      · exact hc
    change ((significandAt a b _ : Int) : ℚ) * _ ≤ ((significandAt c d _ : Int) : ℚ) * _
    rw [Int.cast_natCast, Int.cast_natCast]
    rcases (scaleOf_mono (f := f) ha hb hc hd h).eq_or_lt with hsame | hless
    · rw [hsame]
      exact mul_le_mul_of_nonneg_right (Nat.cast_le.2 (significandAt_mono hb hd h _))
        (two_zpow_pos _).le
    · -- The next power of two lies between the two numbers.
      obtain ⟨hup, -⟩ := significandAt_bounds hp ha hb
      obtain ⟨-, hdown⟩ := significandAt_bounds hp hc hd
      obtain ⟨e, he, -, -⟩ := scaleOf_eq f ha hb
      have hdown := hdown.resolve_right (by omega)
      calc (significandAt a b (scaleOf f a b) : ℚ) * 2 ^ scaleOf f a b
          ≤ (2 ^ f.precision : Nat) * 2 ^ scaleOf f a b :=
            mul_le_mul_of_nonneg_right (Nat.cast_le.2 hup) (two_zpow_pos _).le
        _ ≤ (2 ^ (f.precision - 1) : Nat) * 2 ^ scaleOf f c d := by
            rw [natCast_two_pow, natCast_two_pow, ← two_zpow_add, ← two_zpow_add]
            exact two_zpow_le_iff.2 (by omega)
        _ ≤ significandAt c d (scaleOf f c d) * 2 ^ scaleOf f c d :=
            mul_le_mul_of_nonneg_right (Nat.cast_le.2 hdown) (two_zpow_pos _).le

/-- Rounding keeps the order of fractions. -/
theorem rounded_mono_of_mul_le (hp : 0 < f.precision) (hb : 0 < b) (hd : 0 < d)
    (h : a * d ≤ c * b) : rounded f false a b ≤ rounded f false c d := by
  apply rounded_mono hp hb hd
  rw [div_le_div_iff₀ (Nat.cast_pos.2 hb) (Nat.cast_pos.2 hd)]
  exact_mod_cast h

theorem rounded_natCast_mono (hp : 0 < f.precision) (h : a ≤ c) :
    rounded f false a 1 ≤ rounded f false c 1 :=
  rounded_mono_of_mul_le hp Nat.one_pos Nat.one_pos (by omega)

/-! ## Numbers that are written -/

/-- The number is finite, and this one. -/
inductive Writes : Binary f → ℚ → Prop where
  | finite (negative : Bool) (m : Nat) (q : Int) (h : f.Fits m q) :
    Writes (.finite negative m q h) (signed negative m * 2 ^ q)

/-- Numbers of a format are compared by what they are exactly. -/
theorem compare?_of_writes {x y : Binary f} {r s : ℚ} (hx : x.Writes r) (hy : y.Writes s) :
    x.compare? y = some (compareOfLessAndEq r s) := by
  cases hx
  cases hy
  exact compare?_finite _ _

/-- A number is its significand times a power of two. -/
theorem writes_ofParts (negative : Bool) {m : Nat} (h : f.Fits m q) :
    (ofParts f negative m q).Writes (signed negative m * 2 ^ q) := by
  rw [ofParts, dif_pos h]
  exact .finite negative m q h

theorem signed_two_mul (negative : Bool) (m : Nat) :
    signed negative (2 * m) = 2 * signed negative m := by
  cases negative <;> simp [signed]

/-- What is rounded up to a bit too many is written over the next power of two. -/
theorem writes_ofParts_next (negative : Bool) (hp : 0 < f.precision)
    (hleast : f.minExponent ≤ q) (hmax : q < f.maxExponent) :
    (ofParts f negative (2 ^ (f.precision - 1)) (q + 1)).Writes
      (signed negative (2 ^ f.precision) * 2 ^ q) := by
  have hfits : f.Fits (2 ^ (f.precision - 1)) (q + 1) :=
    ⟨Nat.pow_lt_pow_right (by decide) (by omega), by omega, by omega, .inl (Nat.le_refl _)⟩
  have htwice : 2 ^ f.precision = 2 * 2 ^ (f.precision - 1) := by
    rw [← Nat.pow_succ', Nat.succ_eq_add_one, Nat.sub_add_cancel hp]
  have hsame : (signed negative (2 ^ f.precision) : ℚ) * 2 ^ q =
      signed negative (2 ^ (f.precision - 1)) * 2 ^ (q + 1) := by
    rw [htwice, signed_two_mul, two_zpow_add]
    push_cast
    ring
  rw [hsame]
  exact writes_ofParts negative hfits

/-- A quotient that stays below the largest power of two is rounded to a finite number. -/
theorem writes_round (negative : Bool) (hp : 0 < f.precision) (hf : f.minExponent < f.maxExponent)
    (hb : 0 < b) (hmax : (a / b : ℚ) < 2 ^ (f.maxExponent + f.precision - 1)) :
    (round f negative a b).Writes (rounded f negative a b) := by
  rcases Nat.eq_zero_or_pos a with rfl | ha
  · have hfits : f.Fits 0 f.minExponent :=
      ⟨Nat.pow_pos (by decide), Int.le_refl _, hf.le, .inr rfl⟩
    rw [round, if_pos rfl, zero, rounded_zero f negative hb]
    convert writes_ofParts negative hfits
    cases negative <;> simp [signed]
  · have hscale : f.minExponent ≤ scaleOf f a b ∧ scaleOf f a b < f.maxExponent := by
      obtain ⟨e, he, hlow, -⟩ := scaleOf_eq f ha hb
      have hless := two_zpow_lt_iff.1 (hlow.trans_lt hmax)
      omega
    obtain ⟨hup, hdown⟩ := significandAt_bounds hp ha hb
    rw [round, if_neg (by omega)]
    change (if significandAt a b (scaleOf f a b) = 2 ^ f.precision then _
      else ofParts f negative (significandAt a b (scaleOf f a b)) _).Writes _
    rw [rounded]
    split
    · rename_i hnext
      rw [hnext]
      exact writes_ofParts_next negative hp hscale.1 hscale.2
    · exact writes_ofParts negative ⟨by omega, hscale.1, hscale.2.le, hdown⟩

end Binary

end EntityQuery
