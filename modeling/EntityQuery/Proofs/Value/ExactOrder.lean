import EntityQuery.Proofs.Fixture.Integers
import EntityQuery.Proofs.Number.Rounding
import EntityQuery.Proofs.Value.Order

/-! # The order of exact numbers

Integers of every width and decimals are compared as the rational numbers they are, with one
exception.  An integer beyond every decimal is compared with a decimal through doubles, and there
the integers just above 2⁹⁶ and the decimals just below it become one number, as do their
negatives.  Such a pair is called blurred: it is not told apart (`exact_numbers_ordered`).

Rounding keeps the order, so that both regions are found by rounding their ends. -/

namespace EntityQuery

/-! ## Signs -/

/-- A magnitude with its sign. -/
def withSign (negative : Bool) (r : ℚ) : ℚ := if negative then -r else r

theorem withSign_natAbs (n : Int) : withSign (n < 0) n.natAbs = n := by
  rw [withSign, ← Int.cast_natCast]
  split
  · rename_i hn
    rw [← Int.cast_neg, Int.ofNat_natAbs_of_nonpos (of_decide_eq_true hn).le, Int.neg_neg]
  · rename_i hn
    rw [Int.natAbs_of_nonneg (by simpa using hn)]

theorem withSign_injective (negative : Bool) : Function.Injective (withSign negative) := by
  cases negative with
  | false => exact fun _ _ h => h
  | true => exact fun _ _ h => neg_injective h

theorem compareOfLessAndEq_eq_gt_iff {r s : ℚ} : compareOfLessAndEq r s = .gt ↔ s < r :=
  compareOfLessAndEq_eq_gt le_antisymm le_total not_le r s

/-- Magnitudes that keep to their sides are compared as others that do, unless they meet. -/
theorem compare_withSign {s t : Bool} {x y m k : ℚ} (hy : 0 ≤ y) (hyx : y ≤ x) (hx : 0 < x)
    (hk : 0 ≤ k) (hkm : k < m) :
    compareOfLessAndEq (withSign s x) (withSign t y) =
      if s = t ∧ x = y then .eq else compareOfLessAndEq (withSign s m) (withSign t k) := by
  by_cases hmeet : s = t ∧ x = y
  · rw [if_pos hmeet, hmeet.1, hmeet.2]
    exact compareOfLessAndEq_eq_eq_iff.2 rfl
  · rw [if_neg hmeet]
    have hapart : s = t → y < x := fun hst => lt_of_le_of_ne hyx fun h => hmeet ⟨hst, h.symm⟩
    cases s with
    | false =>
      have hxy : withSign t y < x := by
        cases t with
        | false => exact hapart rfl
        | true => exact (neg_nonpos.2 hy).trans_lt hx
      have hmk : withSign t k < m := by
        cases t with
        | false => exact hkm
        | true => exact (neg_nonpos.2 hk).trans_lt (hk.trans_lt hkm)
      exact (compareOfLessAndEq_eq_gt_iff.2 hxy).trans (compareOfLessAndEq_eq_gt_iff.2 hmk).symm
    | true =>
      have hxy : -x < withSign t y := by
        cases t with
        | false => exact (neg_neg_of_pos hx).trans_le hy
        | true => exact neg_lt_neg (hapart rfl)
      have hmk : -m < withSign t k := by
        cases t with
        | false => exact (neg_neg_of_pos (hk.trans_lt hkm)).trans_le hk
        | true => exact neg_lt_neg hkm
      exact (compareOfLessAndEq_eq_lt.2 hxy).trans (compareOfLessAndEq_eq_lt.2 hmk).symm

/-! ## Numbers of exact types -/

namespace Decimal

theorem number_eq (d : Decimal) :
    d.number = withSign d.negative (d.coefficient / (10 ^ d.scale : Nat)) := by
  have hpow : ((10 ^ d.scale : Nat) : ℚ) = (10 : ℚ) ^ (d.scale : Int) :=
    (Nat.cast_pow 10 d.scale).trans (zpow_natCast 10 d.scale).symm
  rw [number, hpow, zpow_neg, ← div_eq_mul_inv, signed, Binary.signed, withSign]
  split
  · rw [Int.cast_neg, Int.cast_natCast, neg_div]
  · rw [Int.cast_natCast]

/-- A decimal is smaller than an integer beyond the decimals. -/
theorem magnitude_lt (d : Decimal) {n : Nat} (hn : 2 ^ (96 : Nat) ≤ n) :
    (d.coefficient / (10 ^ d.scale : Nat) : ℚ) < n := by
  have hten : 0 < 10 ^ d.scale := Nat.pow_pos (by decide)
  rw [div_lt_iff₀ (Nat.cast_pos.2 hten), ← Nat.cast_mul, Nat.cast_lt]
  calc d.coefficient < 2 ^ (96 : Nat) := d.fits.1
    _ ≤ n := hn
    _ ≤ n * 10 ^ d.scale := Nat.le_mul_of_pos_right _ hten

/-- An integer is as a decimal what it was. -/
theorem number_of_ofInt? {n : Int} {d : Decimal} (h : ofInt? n = some d) : d.number = n := by
  have hsigned : d.signed = n * 10 ^ d.scale := Scalar.denotes_of_ofInt? h
  have hpow : ((10 ^ d.scale : Int) : ℚ) = (10 : ℚ) ^ (d.scale : Int) :=
    (Int.cast_pow 10 d.scale).trans (zpow_natCast 10 d.scale).symm
  rw [number, hsigned, Int.cast_mul, hpow, mul_assoc, ← zpow_add₀ (by norm_num), add_neg_cancel,
    zpow_zero, mul_one]

end Decimal

namespace Scalar

/-- The number that a scalar of an exact type is. -/
def number? : Scalar → Option ℚ
  | .integer _ n => some n.val
  | .decimal d => some d.number
  | _ => none

/-- An integer just beyond the decimals and one of the last decimals, of one sign: as doubles, both
are 2⁹⁶ or both are -2⁹⁶. -/
def blurs : Scalar → Scalar → Bool
  | .integer _ n, .decimal d | .decimal d, .integer _ n =>
    decide (n.val < 0) = d.negative ∧
      (2 ^ (96 : Nat) ≤ n.val.natAbs ∧ n.val.natAbs ≤ 2 ^ (96 : Nat) + 2 ^ (43 : Nat)) ∧
      d.scale = 0 ∧ 2 ^ (96 : Nat) - 2 ^ (42 : Nat) ≤ d.coefficient
  | _, _ => false

theorem blurs_comm (a b : Scalar) : a.blurs b = b.blurs a := by
  cases a <;> cases b <;> rfl

end Scalar

/-! ## Rounding at the end of the decimals -/

namespace Binary

/-- A number is rounded at the scale of its leading digit. -/
theorem rounded_of_significandAt {f : FloatFormat} {a b m : Nat} {q : Int}
    (hq : scaleOf f a b = q) (hm : significandAt a b q = m) : rounded f false a b = m * 2 ^ q := by
  rw [rounded, hq, hm]
  rfl

/-- The end of the decimals is a double. -/
theorem rounded_end : rounded .double false (2 ^ (96 : Nat)) 1 = 2 ^ (96 : Int) := by
  rw [rounded_of_significandAt (m := 2 ^ (52 : Nat)) (q := 44) (by decide) (by decide)]
  norm_num

/-- An integer beyond the decimals is the end of them only if it is close to it. -/
theorem rounded_of_end_le {n : Nat} (hn : 2 ^ (96 : Nat) ≤ n) :
    2 ^ (96 : Int) ≤ rounded .double false n 1 ∧
      (rounded .double false n 1 = 2 ^ (96 : Int) ↔ n ≤ 2 ^ (96 : Nat) + 2 ^ (43 : Nat)) := by
  have hprecision : 0 < FloatFormat.double.precision := by decide
  have hlow : 2 ^ (96 : Int) ≤ rounded .double false n 1 := by
    rw [← rounded_end]
    exact rounded_natCast_mono hprecision hn
  refine ⟨hlow, ?_⟩
  by_cases hnear : n ≤ 2 ^ (96 : Nat) + 2 ^ (43 : Nat)
  · have hlast : rounded .double false (2 ^ (96 : Nat) + 2 ^ (43 : Nat)) 1 = 2 ^ (96 : Int) := by
      rw [rounded_of_significandAt (m := 2 ^ (52 : Nat)) (q := 44) (by decide) (by decide)]
      norm_num
    exact iff_of_true (le_antisymm (hlast ▸ rounded_natCast_mono hprecision hnear) hlow) hnear
  · have hnext : (2 : ℚ) ^ (96 : Int) <
        rounded .double false (2 ^ (96 : Nat) + 2 ^ (43 : Nat) + 1) 1 := by
      rw [rounded_of_significandAt (m := 2 ^ (52 : Nat) + 1) (q := 44) (by decide) (by decide)]
      norm_num
    have hless := hnext.trans_le (rounded_natCast_mono hprecision (c := n) (by omega))
    exact iff_of_false hless.ne' hnear

/-- A decimal is the end of them only if it is an integer close to it. -/
theorem rounded_of_lt_end {c s : Nat} (hc : c < 2 ^ (96 : Nat)) :
    rounded .double false c (10 ^ s) ≤ 2 ^ (96 : Int) ∧
      (rounded .double false c (10 ^ s) = 2 ^ (96 : Int) ↔
        s = 0 ∧ 2 ^ (96 : Nat) - 2 ^ (42 : Nat) ≤ c) := by
  have hprecision : 0 < FloatFormat.double.precision := by decide
  have hten : 0 < 10 ^ s := Nat.pow_pos (by decide)
  have hhigh : rounded .double false c (10 ^ s) ≤ 2 ^ (96 : Int) := by
    rw [← rounded_end]
    refine rounded_mono_of_mul_le hprecision hten Nat.one_pos ?_
    calc c * 1 = c := Nat.mul_one c
      _ ≤ 2 ^ (96 : Nat) := hc.le
      _ ≤ 2 ^ (96 : Nat) * 10 ^ s := Nat.le_mul_of_pos_right _ hten
  refine ⟨hhigh, ?_⟩
  by_cases hnear : s = 0 ∧ 2 ^ (96 : Nat) - 2 ^ (42 : Nat) ≤ c
  · have hfirst : rounded .double false (2 ^ (96 : Nat) - 2 ^ (42 : Nat)) 1 = 2 ^ (96 : Int) := by
      rw [rounded_of_significandAt (m := 2 ^ (53 : Nat)) (q := 43) (by decide) (by decide)]
      norm_num
    refine iff_of_true (le_antisymm hhigh ?_) hnear
    obtain ⟨rfl, hnear⟩ := hnear
    rw [← hfirst]
    exact rounded_natCast_mono hprecision hnear
  · have hprevious : rounded .double false (2 ^ (96 : Nat) - 2 ^ (42 : Nat) - 1) 1 <
        2 ^ (96 : Int) := by
      rw [rounded_of_significandAt (m := 2 ^ (53 : Nat) - 1) (q := 43) (by decide) (by decide)]
      norm_num
    have hbelow : c * 1 ≤ (2 ^ (96 : Nat) - 2 ^ (42 : Nat) - 1) * 10 ^ s := by
      cases s with
      | zero => omega
      | succ s =>
        have hplace : 0 < 10 ^ s := Nat.pow_pos (by decide)
        rw [Nat.pow_succ]
        omega
    have hless := (rounded_mono_of_mul_le hprecision hten Nat.one_pos hbelow).trans_lt hprevious
    exact iff_of_false hless.ne hnear

theorem rounded_eq_withSign (f : FloatFormat) (negative : Bool) (a b : Nat) :
    rounded f negative a b = withSign negative (rounded f false a b) := by
  cases negative with
  | false => rfl
  | true => exact rounded_true f a b

/-- Integers of 128 bits and decimals are far below the largest double. -/
theorem writes_round_double (negative : Bool) {a b : Nat} (hb : 0 < b)
    (h : a ≤ 2 ^ (128 : Nat) * b) :
    (round .double negative a b).Writes (withSign negative (rounded .double false a b)) := by
  rw [← rounded_eq_withSign]
  refine writes_round negative (by decide) (by decide) hb ?_
  have hb' : (0 : ℚ) < b := Nat.cast_pos.2 hb
  rw [div_lt_iff₀ hb']
  calc (a : ℚ) ≤ (2 ^ (128 : Nat) * b : Nat) := Nat.cast_le.2 h
    _ = 2 ^ ((128 : Nat) : Int) * b := by rw [Nat.cast_mul, natCast_two_pow]
    _ < 2 ^ (FloatFormat.double.maxExponent + FloatFormat.double.precision - 1) * b :=
      mul_lt_mul_of_pos_right (two_zpow_lt_iff.2 (by decide)) hb'

/-- An integer of up to 128 bits is rounded to a finite double. -/
theorem writes_ofInt {n : Int} (h : n.natAbs ≤ 2 ^ (128 : Nat)) :
    (ofInt .double n).Writes (withSign (n < 0) (rounded .double false n.natAbs 1)) := by
  have hround : ofInt .double n = round .double (n < 0) n.natAbs 1 := by
    rw [ofInt, roundScaled, if_pos (Int.le_refl 0), Int.toNat_zero, Nat.pow_zero, Nat.mul_one]
  rw [hround]
  exact writes_round_double _ Nat.one_pos (by omega)

end Binary

theorem Decimal.writes_toBinary (d : Decimal) :
    (d.toBinary .double).Writes
      (withSign d.negative (Binary.rounded .double false d.coefficient (10 ^ d.scale))) := by
  have hten : 0 < 10 ^ d.scale := Nat.pow_pos (by decide)
  refine Binary.writes_round_double d.negative hten ?_
  calc d.coefficient ≤ 2 ^ (128 : Nat) := d.fits.1.le.trans (by decide)
    _ ≤ 2 ^ (128 : Nat) * 10 ^ d.scale := Nat.le_mul_of_pos_right _ hten

/-! ## Comparing exact numbers -/

theorem BoundedInt.natAbs_le {w : IntWidth} (n : BoundedInt w) :
    n.val.natAbs ≤ 2 ^ (128 : Nat) := by
  obtain ⟨hlow, hhigh⟩ := n.inRange
  cases w with
  | byte | short | int | long | big =>
    simp only [IntWidth.bits] at hlow hhigh
    omega

namespace Scalar

variable {w : IntWidth} {n : BoundedInt w} {d : Decimal}

/-- An integer beyond the decimals is compared with one as a double. -/
theorem compareDouble?_integer_decimal (hn : 2 ^ (96 : Nat) ≤ n.val.natAbs) :
    compareDouble? (.integer w n) (.decimal d) =
      some (if blurs (.integer w n) (.decimal d) then .eq
        else compareOfLessAndEq (n.val : ℚ) d.number) := by
  have hcompare := Binary.compare?_of_writes (Binary.writes_ofInt n.natAbs_le) d.writes_toBinary
  obtain ⟨hlow, hlow_iff⟩ := Binary.rounded_of_end_le hn
  obtain ⟨hhigh, hhigh_iff⟩ := Binary.rounded_of_lt_end (s := d.scale) d.fits.1
  have hmeet : Binary.rounded .double false n.val.natAbs 1 =
        Binary.rounded .double false d.coefficient (10 ^ d.scale) ↔
      n.val.natAbs ≤ 2 ^ (96 : Nat) + 2 ^ (43 : Nat) ∧
        d.scale = 0 ∧ 2 ^ (96 : Nat) - 2 ^ (42 : Nat) ≤ d.coefficient := by
    rw [← hlow_iff, ← hhigh_iff]
    constructor
    · intro h
      exact ⟨le_antisymm (h ▸ hhigh) hlow, le_antisymm hhigh (h ▸ hlow)⟩
    · rintro ⟨h, h'⟩
      exact h.trans h'.symm
  change (Binary.ofInt .double n.val).compare? (d.toBinary .double) = _
  rw [hcompare, ← withSign_natAbs n.val, d.number_eq,
    compare_withSign (Binary.rounded_nonneg ..) (hhigh.trans hlow)
      ((Binary.two_zpow_pos 96).trans_le hlow)
      (div_nonneg (Nat.cast_nonneg _) (Nat.cast_nonneg _)) (d.magnitude_lt hn)]
  simp only [blurs, hmeet, hn, true_and, decide_eq_true_eq]

/-- An integer that has a decimal is compared as it. -/
theorem compareDecimal?_integer_decimal : compareDecimal? (.integer w n) (.decimal d) =
    (Decimal.ofInt? n.val).map fun x => x.compare d := by
  simp only [compareDecimal?, isDecimal, toDecimal?, Bool.or_true, if_true]
  cases Decimal.ofInt? n.val <;> rfl

/-- An integer and a decimal are compared exactly unless they blur. -/
theorem compare?_integer_decimal : (Scalar.integer w n).compare? (.decimal d) =
    some (if blurs (.integer w n) (.decimal d) then .eq
      else compareOfLessAndEq (n.val : ℚ) d.number) := by
  change (compareDecimal? (.integer w n) (.decimal d)).or
    (compareDouble? (.integer w n) (.decimal d)) = _
  rw [compareDecimal?_integer_decimal]
  by_cases hn : n.val.natAbs < 2 ^ (96 : Nat)
  · obtain ⟨x, hx⟩ : ∃ x, Decimal.ofInt? n.val = some x := ⟨_, dif_pos ⟨hn, Nat.zero_le 28⟩⟩
    have hclear : blurs (.integer w n) (.decimal d) = false :=
      decide_eq_false fun h => absurd h.2.1.1 (by omega)
    rw [hx, hclear, Option.map_some, x.compare_eq, Decimal.number_of_ofInt? hx]
    rfl
  · have hnone : Decimal.ofInt? n.val = none := dif_neg fun h => hn h.1
    rw [hnone, Option.map_none, Option.none_or, compareDouble?_integer_decimal (by omega)]

/-- Exact numbers are compared as the numbers they are, unless the pair is blurred. -/
theorem compare?_of_number? {a b : Scalar} {x y : ℚ} (ha : a.number? = some x)
    (hb : b.number? = some y) :
    a.compare? b = some (if a.blurs b then .eq else compareOfLessAndEq x y) := by
  cases a with
  | integer w n =>
    obtain rfl := Option.some.inj ha
    cases b with
    | integer v m =>
      obtain rfl := Option.some.inj hb
      exact congrArg some (compareOfLessAndEq_of_strictMono Int.cast_strictMono n.val m.val).symm
    | decimal d =>
      obtain rfl := Option.some.inj hb
      exact compare?_integer_decimal
    | bool | float | double | char | string | date | dateTime => cases hb
  | decimal d =>
    obtain rfl := Option.some.inj ha
    cases b with
    | integer w n =>
      obtain rfl := Option.some.inj hb
      rw [compare?_swap (.integer w n), compare?_integer_decimal, blurs_comm, Option.map_some,
        apply_ite Ordering.swap, ← compareOfLessAndEq_swap]
      rfl
    | decimal e =>
      obtain rfl := Option.some.inj hb
      exact congrArg some (d.compare_eq e)
    | bool | float | double | char | string | date | dateTime => cases hb
  | bool | float | double | char | string | date | dateTime => cases ha

/-- Numbers that blur are different. -/
theorem ne_of_blurs_integer_decimal (h : blurs (.integer w n) (.decimal d)) :
    (n.val : ℚ) ≠ d.number := by
  obtain ⟨hsign, ⟨hn, -⟩, -⟩ := of_decide_eq_true h
  rw [← withSign_natAbs n.val, d.number_eq, hsign]
  exact fun hsame => (d.magnitude_lt hn).ne' (withSign_injective _ hsame)

/-- The numbers of a blurred pair are different. -/
theorem ne_of_blurs {a b : Scalar} {x y : ℚ} (ha : a.number? = some x) (hb : b.number? = some y)
    (h : a.blurs b) : x ≠ y := by
  cases a with
  | integer w n =>
    obtain rfl := Option.some.inj ha
    cases b with
    | decimal d =>
      obtain rfl := Option.some.inj hb
      exact ne_of_blurs_integer_decimal h
    | bool | integer | float | double | char | string | date | dateTime => cases h
  | decimal d =>
    obtain rfl := Option.some.inj ha
    cases b with
    | integer w n =>
      obtain rfl := Option.some.inj hb
      exact (ne_of_blurs_integer_decimal (blurs_comm _ _ ▸ h)).symm
    | bool | float | double | decimal | char | string | date | dateTime => cases h
  | bool | float | double | char | string | date | dateTime => cases h

/-- The scalar does not come after the other one. -/
def AtMost (a b : Scalar) : Prop := ∃ o, (Value.scalar a).compare? (.scalar b) = some o ∧ o.isLE

theorem atMost_iff {a b : Scalar} {x y : ℚ} (ha : a.number? = some x) (hb : b.number? = some y) :
    a.AtMost b ↔ a.blurs b ∨ x ≤ y := by
  rw [AtMost, Value.compare?, compare?_of_number? ha hb]
  simp only [Option.some.injEq, exists_eq_left']
  split
  · rename_i hblurs
    exact iff_of_true (by decide) (.inl hblurs)
  · rename_i hclear
    rw [or_iff_right hclear]
    exact isLE_compareOfLessAndEq le_antisymm not_le le_total

end Scalar

/-- Integers and decimals are compared as the numbers they are, except that a blurred pair is taken
for one number; so what is not after a value that is not after a third is not after the third,
unless the value in between is blurred with one of the two. -/
theorem exact_numbers_ordered {a b : Scalar} {x y : ℚ} (ha : a.number? = some x)
    (hb : b.number? = some y) :
    (Value.scalar a).compare? (.scalar b) =
        some (if a.blurs b then .eq else compareOfLessAndEq x y) ∧
      (a.blurs b → x ≠ y) ∧ a.AtMost a ∧ (a.AtMost b ∨ b.AtMost a) ∧
      ∀ (c : Scalar) (z : ℚ), c.number? = some z → a.blurs b = false → b.blurs c = false →
        a.AtMost b → b.AtMost c → a.AtMost c := by
  refine ⟨?order, Scalar.ne_of_blurs ha hb, ?refl, ?total, ?trans⟩
  case order => exact Scalar.compare?_of_number? ha hb
  case refl => exact (Scalar.atMost_iff ha ha).2 (.inr le_rfl)
  case total =>
    rw [Scalar.atMost_iff ha hb, Scalar.atMost_iff hb ha]
    exact (le_total x y).imp .inr .inr
  case trans =>
    intro c z hc hab hbc
    rw [Scalar.atMost_iff ha hb, Scalar.atMost_iff hb hc, Scalar.atMost_iff ha hc, hab, hbc,
      or_iff_right Bool.false_ne_true, or_iff_right Bool.false_ne_true]
    exact fun hxy hyz => .inr (hxy.trans hyz)

/-- A byte, the decimal 1.50 and the first integer beyond the decimals. -/
theorem exact_numbers_ordered_across_types :
    (Scalar.integer .byte ⟨1, by decide⟩).number? = some (1 : Int) ∧
      (Scalar.decimal ⟨false, 150, 2, by decide⟩).number? =
        some (Decimal.number ⟨false, 150, 2, by decide⟩) ∧
      (Scalar.integer .big ⟨2 ^ (96 : Nat), by decide⟩).number? = some (2 ^ (96 : Nat) : Int) ∧
      (Scalar.integer .byte ⟨1, by decide⟩).AtMost (.integer .big ⟨2 ^ (96 : Nat), by decide⟩) := by
  refine ⟨rfl, rfl, rfl, ?_⟩
  obtain ⟨-, -, -, -, htrans⟩ := exact_numbers_ordered (a := .integer .byte ⟨1, by decide⟩)
    (b := .decimal ⟨false, 150, 2, by decide⟩) rfl rfl
  exact htrans (.integer .big ⟨2 ^ (96 : Nat), by decide⟩) _ rfl (by decide) (by decide)
    ⟨.lt, by decide +kernel, rfl⟩ ⟨.lt, by decide +kernel, rfl⟩

/-- The first integer beyond the decimals is not told apart from the last two decimals, which are:
so the last is at most the integer, the integer at most the one before, and the order does not
follow. -/
theorem not_exact_numbers_ordered :
    (¬∀ (a b : Scalar) (x y : ℚ), a.number? = some x → b.number? = some y →
      (Value.scalar a).compare? (.scalar b) = some (compareOfLessAndEq x y)) ∧
    ¬∀ a b c : Scalar, a.number?.isSome → b.number?.isSome → c.number?.isSome →
      a.AtMost b → b.AtMost c → a.AtMost c := by
  constructor
  · intro hall
    let n : Scalar := .integer .big ⟨2 ^ (96 : Nat), by decide⟩
    let d : Scalar := .decimal ⟨false, 2 ^ (96 : Nat) - 1, 0, by decide⟩
    have hsame : (Value.scalar n).compare? (.scalar d) = some .eq := by decide +kernel
    have heq := Option.some.inj (hsame.symm.trans (hall n d _ _ rfl rfl))
    exact Scalar.ne_of_blurs (a := n) (b := d) rfl rfl (by decide)
      (compareOfLessAndEq_eq_eq_iff.1 heq.symm)
  · intro hall
    obtain ⟨o, ho, hle⟩ := hall (.decimal ⟨false, 2 ^ (96 : Nat) - 1, 0, by decide⟩)
      (.integer .big ⟨2 ^ (96 : Nat), by decide⟩)
      (.decimal ⟨false, 2 ^ (96 : Nat) - 2, 0, by decide⟩) rfl rfl rfl
      ⟨.eq, by decide +kernel, rfl⟩ ⟨.eq, by decide +kernel, rfl⟩
    have hgt : some Ordering.gt = some o := (by decide +kernel : _ = some Ordering.gt).symm.trans ho
    cases hgt
    cases hle

end EntityQuery
