import EntityQuery.Number.Binary.Text

/-! # The digits of large doubles

Above 2⁵⁴ the doubles are integers, and so are the shortest decimals that read back as them: a
decimal of seventeen digits always reads back, and at this size it has no place behind the point.
The text of such a double is therefore the text of an integer, from the interval of the numbers that
round to the double (`Binary.text_of_integral`).

From this and from the distance of the double to the integer it was rounded from follows how far the
text of an integer of 64 bits strays on its way through a double (`Binary.text_ofInt_near`). -/

namespace EntityQuery

/-- Rounding is off by half at most. -/
theorem roundDiv_near (num : Nat) {den : Nat} (hden : 0 < den) :
    2 * (roundDiv num den * den) ≤ 2 * num + den ∧
      2 * num ≤ 2 * (roundDiv num den * den) + den := by
  have hnum := Nat.div_add_mod num den
  have hmod := Nat.mod_lt num hden
  rw [Nat.mul_comm] at hnum
  have hnext : (num / den + 1) * den = num / den * den + den := Nat.succ_mul _ _
  rw [roundDiv]
  split
  · omega
  · omega

namespace Binary

variable {f : FloatFormat} {tie : Tie} {m : Nat} {q : Int}

/-! ## The search -/

/-- The digits that are found read back. -/
theorem readsBack_of_onGrid? {s : Int} {c : Nat} (h : onGrid? f tie m q s = some c) :
    readsBack f m q c s = true := by
  unfold onGrid? at h
  dsimp only at h
  generalize (if s ≥ 0 then _ else _ : Nat) = a at h
  generalize (if s ≥ 0 then _ else _ : Nat) = b at h
  split at h
  · rename_i hlow hhigh
    split at h
    · obtain rfl := Option.some.inj h
      exact hlow
    · obtain rfl := Option.some.inj h
      exact hhigh
  · rename_i hlow _
    obtain rfl := Option.some.inj h
    exact hlow
  · rename_i _ hhigh
    obtain rfl := Option.some.inj h
    exact hhigh
  · cases h

/-- The search ends no later than with a grid that has a number. -/
theorem shortestFrom_of_isSome {lead : Int} {digits more j : Nat} (hj : j < more)
    (h : (onGrid? f tie m q (lead - (digits + j : Nat) + 1)).isSome) :
    ∃ c s, shortestFrom f tie m q lead digits more = (c, s) ∧
      lead - (digits + j : Nat) + 1 ≤ s ∧ readsBack f m q c s = true := by
  induction more generalizing digits j with
  | zero => exact absurd hj (Nat.not_lt_zero j)
  | succ more ih =>
    rw [shortestFrom]
    split
    · rename_i c hc
      exact ⟨c, _, rfl, by omega, readsBack_of_onGrid? hc⟩
    · rename_i hnone
      cases j with
      | zero =>
        rw [Nat.add_zero, hnone] at h
        cases h
      | succ j =>
        have hstep : digits + (j + 1) = digits + 1 + j := by omega
        rw [hstep] at h ⊢
        exact ih (Nat.lt_of_succ_lt_succ hj) h

/-- A grid has a number when one of the two around the double reads back. -/
theorem onGrid?_isSome {k t : Nat} (h : readsBack f m k (m * 2 ^ k / 10 ^ t) t = true ∨
    readsBack f m k (m * 2 ^ k / 10 ^ t + 1) t = true) : (onGrid? f tie m k t).isSome := by
  rw [onGrid?, ratio, if_pos (Int.natCast_nonneg k)]
  dsimp only
  rw [if_pos (Int.natCast_nonneg t), if_pos (Int.natCast_nonneg t), Nat.one_mul, Int.toNat_natCast,
    Int.toNat_natCast]
  rcases h with h | h
  · rw [h]
    split <;> trivial
  · rw [h]
    split <;> trivial

/-! ## Digits of integers -/

/-- Stripping zeros moves them into the power of ten. -/
theorem stripZeros_spec (fuel c t : Nat) (hc : 0 < c) :
    ∃ d u : Nat, stripZeros fuel c t = (d, (u : Int)) ∧ 0 < d ∧ d * 10 ^ u = c * 10 ^ t := by
  induction fuel generalizing c t with
  | zero => exact ⟨c, t, rfl, hc, rfl⟩
  | succ fuel ih =>
    rw [stripZeros]
    split
    · rename_i hzero
      obtain ⟨d, u, hstrip, hpos, heq⟩ := ih (c / 10) (t + 1) (by omega)
      have hten : c / 10 * 10 = c := by omega
      refine ⟨d, u, hstrip, hpos, ?_⟩
      rw [heq, Nat.pow_succ, Nat.mul_comm (10 ^ t), ← Nat.mul_assoc, hten]
    · exact ⟨c, t, rfl, hc, rfl⟩

/-- A power of ten adds zeros. -/
theorem toDigits_mul_pow {c : Nat} (hc : 0 < c) (t : Nat) :
    Nat.toDigits 10 (c * 10 ^ t) = Nat.toDigits 10 c ++ List.replicate t '0' := by
  induction t with
  | zero => simp
  | succ t ih =>
    have hpos : 0 < c * 10 ^ t := Nat.mul_pos hc (Nat.pow_pos (by decide))
    have hstep := Nat.toDigits_append_toDigits (b := 10) (n := c * 10 ^ t) (d := 0)
      (by decide) hpos (by decide)
    have hzero : Nat.toDigits 10 0 = ['0'] := by decide
    rw [Nat.add_zero, ih, hzero] at hstep
    rw [Nat.pow_succ, ← Nat.mul_assoc, Nat.mul_comm _ 10, ← hstep, List.append_assoc,
      List.replicate_succ']

/-- Without places behind the point, the positional notation is the text of an integer. -/
theorem positional_natCast {c : Nat} (hc : 0 < c) (t : Nat) :
    positional c t = Nat.toDigits 10 (c * 10 ^ t) := by
  rw [positional, if_pos (Int.natCast_nonneg t), Int.toNat_natCast, toDigits_mul_pow hc]

theorem lt_digitCount_iff {n k : Nat} (hk : 0 < k) : k < digitCount n ↔ 10 ^ k ≤ n := by
  rw [← Nat.not_le, digitCount, Nat.length_toDigits_le_iff (by decide) hk, Nat.not_lt]

/-! ## Seventeen digits -/

theorem ratio_natCast (n k : Nat) : ratio n k = (n * 2 ^ k, 1) := by
  rw [ratio, if_pos (Int.natCast_nonneg k), Int.toNat_natCast]

/-- A decimal without places reads back when it lies between the ends, which count for an even
significand. -/
theorem readsBack_natCast (k c t : Nat) : readsBack f m (k + 2 : Nat) c t =
    if m % 2 = 0 then
      decide ((roundingEnds f m (k + 2 : Nat)).1 * 2 ^ k ≤ c * 10 ^ t) &&
        decide (c * 10 ^ t ≤ (roundingEnds f m (k + 2 : Nat)).2 * 2 ^ k)
    else
      decide ((roundingEnds f m (k + 2 : Nat)).1 * 2 ^ k < c * 10 ^ t) &&
        decide (c * 10 ^ t < (roundingEnds f m (k + 2 : Nat)).2 * 2 ^ k) := by
  have hquarter : ((k + 2 : Nat) : Int) - 2 = k := by omega
  rw [readsBack, hquarter, ratio_natCast]
  dsimp only
  rw [if_pos (Int.natCast_nonneg t), if_pos (Int.natCast_nonneg t), Int.toNat_natCast, Nat.mul_one,
    Nat.one_mul]

/-- What reads back is between the halfway points to the neighbours. -/
theorem between_of_readsBack {k c t : Nat} (h : readsBack f m (k + 2 : Nat) c t = true) :
    (roundingEnds f m (k + 2 : Nat)).1 * 2 ^ k ≤ c * 10 ^ t ∧
      c * 10 ^ t ≤ (roundingEnds f m (k + 2 : Nat)).2 * 2 ^ k := by
  rw [readsBack_natCast] at h
  split at h
  · simpa only [Bool.and_eq_true, decide_eq_true_eq] using h
  · simp only [Bool.and_eq_true, decide_eq_true_eq] at h
    exact ⟨Nat.le_of_lt h.1, Nat.le_of_lt h.2⟩

/-- What is strictly between the halfway points reads back. -/
theorem readsBack_of_between {k c t : Nat}
    (hlow : (roundingEnds f m (k + 2 : Nat)).1 * 2 ^ k < c * 10 ^ t)
    (hhigh : c * 10 ^ t < (roundingEnds f m (k + 2 : Nat)).2 * 2 ^ k) :
    readsBack f m (k + 2 : Nat) c t = true := by
  rw [readsBack_natCast]
  simp only [hlow, hhigh, Nat.le_of_lt, decide_true, Bool.and_true, ite_self]

theorem roundingEnds_pos (hm : 0 < m) : 0 < (roundingEnds f m q).1 := by
  rw [roundingEnds]
  dsimp only
  split
  · omega
  · omega

/-- A number that strays from a double by no more than half of its seventeenth digit lies between
the ends. -/
theorem roundingEnds_double {k r : Nat} (hlow : 2 ^ (52 : Nat) ≤ m) (hhigh : m < 2 ^ (53 : Nat))
    (hr : 2 * (10 ^ (16 : Nat) * r) ≤ m * 2 ^ (k + 2)) :
    (roundingEnds .double m (k + 2 : Nat)).1 * 2 ^ k + r < m * 2 ^ (k + 2) ∧
      m * 2 ^ (k + 2) + r < (roundingEnds .double m (k + 2 : Nat)).2 * 2 ^ k := by
  have hunit : 0 < 2 ^ k := Nat.pow_pos (by decide)
  have hquarters : m * 2 ^ (k + 2) = 4 * m * 2 ^ k := by
    rw [Nat.pow_add, Nat.mul_comm (2 ^ k), ← Nat.mul_assoc, Nat.mul_comm m]
  have habove : m * 2 ^ k + 2 ^ k ≤ 2 ^ (53 : Nat) * 2 ^ k := by
    rw [← Nat.succ_mul]
    exact Nat.mul_le_mul_right _ hhigh
  rw [hquarters, Nat.mul_assoc] at hr
  rw [hquarters, roundingEnds]
  constructor
  · dsimp only
    split
    · rename_i hpower
      obtain ⟨rfl, -⟩ := hpower
      change (4 * 2 ^ (52 : Nat) - 1) * 2 ^ k + r < 4 * 2 ^ (52 : Nat) * 2 ^ k
      change 2 * (10 ^ (16 : Nat) * r) ≤ 4 * (2 ^ (52 : Nat) * 2 ^ k) at hr
      omega
    · have hless : (4 * m - 2) * 2 ^ k + 2 * 2 ^ k = 4 * m * 2 ^ k := by
        rw [← Nat.add_mul]
        congr 1
        omega
      rw [Nat.mul_assoc] at hless ⊢
      omega
  · dsimp only
    rw [Nat.add_mul, Nat.mul_assoc]
    omega

/-- Of the two numbers around a double with seventeen digits, the nearer one reads back. -/
theorem onGrid?_double {k t : Nat} (hlow : 2 ^ (52 : Nat) ≤ m) (hhigh : m < 2 ^ (53 : Nat))
    (ht : 10 ^ (16 : Nat) * 10 ^ t ≤ m * 2 ^ (k + 2)) :
    (onGrid? .double tie m (k + 2 : Nat) t).isSome := by
  have hdiv := Nat.div_add_mod (m * 2 ^ (k + 2)) (10 ^ t)
  have hmod := Nat.mod_lt (m * 2 ^ (k + 2)) (y := 10 ^ t) (Nat.pow_pos (by decide))
  rw [Nat.mul_comm] at hdiv
  apply onGrid?_isSome
  by_cases hnear : 2 * (m * 2 ^ (k + 2) % 10 ^ t) ≤ 10 ^ t
  · have hends := roundingEnds_double hlow hhigh (k := k) (r := m * 2 ^ (k + 2) % 10 ^ t) (by omega)
    exact .inl (readsBack_of_between (by omega) (by omega))
  · have hends := roundingEnds_double hlow hhigh (k := k) (r := 10 ^ t - m * 2 ^ (k + 2) % 10 ^ t)
      (by omega)
    exact .inr (readsBack_of_between (by rw [Nat.succ_mul]; omega) (by rw [Nat.succ_mul]; omega))

/-- The shortest digits of a double of at least 2⁵⁴ leave no place behind the point. -/
theorem shortest_double (tie : Tie) (k : Nat) (hlow : 2 ^ (52 : Nat) ≤ m)
    (hhigh : m < 2 ^ (53 : Nat)) :
    ∃ c t : Nat, shortest .double tie m (k + 2 : Nat) = (c, (t : Int)) ∧
      readsBack .double m (k + 2 : Nat) c t = true := by
  have hlarge : 2 ^ (54 : Nat) ≤ m * 2 ^ (k + 2) := by
    calc 2 ^ (54 : Nat) = 2 ^ (52 : Nat) * 2 ^ (2 : Nat) := by decide
      _ ≤ m * 2 ^ (k + 2) := Nat.mul_le_mul hlow (Nat.pow_le_pow_right (by decide) (by omega))
  have hpos : m * 2 ^ (k + 2) ≥ 1 := by omega
  have hlead : leadingExponent (m * 2 ^ (k + 2)) 1 = (digitCount (m * 2 ^ (k + 2)) : Int) - 1 := by
    rw [leadingExponent, if_pos hpos, Nat.div_one]
  have hdigits : 16 < digitCount (m * 2 ^ (k + 2)) :=
    (lt_digitCount_iff (by decide)).2 (by omega)
  -- The grid of the seventeenth digit is that of the units or a larger one.
  obtain ⟨t, ht⟩ : ∃ t, digitCount (m * 2 ^ (k + 2)) = 16 + t + 1 :=
    ⟨digitCount (m * 2 ^ (k + 2)) - 17, by omega⟩
  have hpow : 10 ^ (16 + t) ≤ m * 2 ^ (k + 2) := (lt_digitCount_iff (by omega)).1 (by omega)
  rw [Nat.pow_add] at hpow
  have hplace : (digitCount (m * 2 ^ (k + 2)) : Int) - 1 - (1 + 16 : Nat) + 1 = t := by omega
  have hgrid : (onGrid? .double tie m (k + 2 : Nat)
      ((digitCount (m * 2 ^ (k + 2)) : Int) - 1 - (1 + 16 : Nat) + 1)).isSome := by
    rw [hplace]
    exact onGrid?_double hlow hhigh hpow
  obtain ⟨c, s, hsearch, hs, hreads⟩ := shortestFrom_of_isSome (by decide : 16 < 17) hgrid
  obtain ⟨s, rfl⟩ := Int.eq_ofNat_of_zero_le (a := s) (by omega)
  refine ⟨c, s, ?_, hreads⟩
  rw [shortest, ratio_natCast]
  dsimp only
  rw [hlead, hsearch]

/-- The text of a double of at least 2⁵⁴ is that of an integer from the interval that rounds to the
double. -/
theorem text_of_integral {k : Nat} (fits : FloatFormat.double.Fits m (k + 2 : Nat))
    (hlow : 2 ^ (52 : Nat) ≤ m) :
    ∃ n : Nat, (finite false m (k + 2 : Nat) fits).text = toString n ∧
      (roundingEnds .double m (k + 2 : Nat)).1 * 2 ^ k ≤ n ∧
      n ≤ (roundingEnds .double m (k + 2 : Nat)).2 * 2 ^ k := by
  obtain ⟨c, t, hshortest, hreads⟩ := shortest_double .larger k hlow fits.1
  have hbetween := between_of_readsBack hreads
  have hc : 0 < c := by
    have hend : 0 < (roundingEnds .double m (k + 2 : Nat)).1 * 2 ^ k :=
      Nat.mul_pos (roundingEnds_pos (by omega)) (Nat.pow_pos (by decide))
    apply Nat.pos_of_ne_zero
    rintro rfl
    omega
  obtain ⟨d, u, hstrip, hd, heq⟩ := stripZeros_spec 17 c t hc
  refine ⟨c * 10 ^ t, ?_, hbetween⟩
  rw [text, if_neg (show m ≠ 0 by omega), if_neg Bool.false_ne_true, hshortest]
  dsimp only
  rw [hstrip]
  dsimp only
  rw [positional_natCast hd, heq]
  exact (Nat.repr_eq_ofList_toDigits).symm

/-! ## Integers of 64 bits -/

theorem scaleOf_natCast {n : Nat} (hn : n ≠ 0) :
    scaleOf f n 1 = max ((Nat.log2 n : Int) - f.precision + 1) f.minExponent := by
  have hone : Nat.log2 1 = 0 := by decide
  have hlow := Nat.log2_self_le hn
  have hbelow : ¬(if (Nat.log2 n : Int) ≥ 0 then n < 1 * 2 ^ (Nat.log2 n : Int).toNat
      else n * 2 ^ (-(Nat.log2 n : Int)).toNat < 1) := by
    rw [if_pos (Int.natCast_nonneg _), Int.toNat_natCast, Nat.one_mul]
    exact Nat.not_lt_of_le hlow
  rw [scaleOf, hone, Int.natCast_zero, Int.sub_zero, if_neg hbelow]

/-- An integer of 64 bits without a sign becomes a double in steps of 2¹¹. -/
theorem ofInt_double {n : Nat} (hlow : 2 ^ (63 : Nat) ≤ n) (hhigh : n < 2 ^ (64 : Nat)) :
    ∃ m : Nat, n ≤ m * 2 ^ (11 : Nat) + 2 ^ (10 : Nat) ∧ m * 2 ^ (11 : Nat) ≤ n + 2 ^ (10 : Nat) ∧
      ofInt .double n = if m = 2 ^ (53 : Nat) then ofParts .double false (2 ^ (52 : Nat)) 12
        else ofParts .double false m 11 := by
  obtain ⟨hup, hdown⟩ := roundDiv_near n (by decide : 0 < 2 ^ (11 : Nat))
  refine ⟨roundDiv n (2 ^ (11 : Nat)), by omega, by omega, ?_⟩
  have hlog : Nat.log2 n = 63 := (Nat.log2_eq_iff (by omega)).2 ⟨hlow, hhigh⟩
  have hscale : scaleOf .double n 1 = 11 := by
    rw [scaleOf_natCast (by omega), hlog]
    decide
  have hround : ofInt .double n = round .double false n 1 := by
    rw [ofInt, roundScaled, if_pos (Int.le_refl 0), decide_eq_false (by omega), Int.natAbs_natCast,
      Int.toNat_zero, Nat.pow_zero, Nat.mul_one]
  rw [hround, round, if_neg (by omega), hscale]
  rfl

/-- The text of an integer of 64 bits without a sign, after it has become a double, is that of an
integer no further than 2¹¹ away. -/
theorem text_ofInt_near {n : Nat} (hlow : 2 ^ (63 : Nat) ≤ n) (hhigh : n < 2 ^ (64 : Nat)) :
    ∃ k : Nat, (ofInt .double n).text = toString k ∧ 2 ^ (63 : Nat) ≤ k ∧
      n ≤ k + 2 ^ (11 : Nat) ∧ k ≤ n + 2 ^ (11 : Nat) := by
  obtain ⟨m, hup, hdown, heq⟩ := ofInt_double hlow hhigh
  rw [heq]
  -- From the two powers of two only a number above them is as short as possible.
  by_cases hfirst : m = 2 ^ (52 : Nat)
  · subst hfirst
    refine ⟨9223372036854776000, by decide +kernel, by decide, by omega, by omega⟩
  · by_cases hlast : m = 2 ^ (53 : Nat)
    · subst hlast
      refine ⟨18446744073709552000, by decide +kernel, by decide, by omega, by omega⟩
    · have hleast : 2 ^ (52 : Nat) ≤ m := by omega
      have hmost : m < 2 ^ (53 : Nat) := by omega
      have hfits : FloatFormat.double.Fits m (9 + 2 : Nat) :=
        ⟨hmost, by decide, by decide, .inl hleast⟩
      have hparts : ofParts .double false m 11 = finite false m (9 + 2 : Nat) hfits := dif_pos hfits
      obtain ⟨k, htext, hmin, hmax⟩ := text_of_integral hfits hleast
      rw [if_neg hlast, hparts, htext]
      rw [roundingEnds, if_neg (fun h => hfirst h.1)] at hmin hmax
      exact ⟨k, rfl, by omega, by omega, by omega⟩

end Binary

end EntityQuery
