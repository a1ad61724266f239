import EntityQuery.Number.Binary.Text
import EntityQuery.Number.Decimal.Text
import EntityQuery.Number.Integer
import EntityQuery.Text.Blank

/-! # Reading back integers

A numeral is digits after an optional sign, and numerals are what is read as integers
(`readInt?_eq_some_iff`).  The text of an integer is one.  It has no blanks to cut off, it is none
of the words for infinities and NaN, and its digits are read as the number they write, be it into an
integer, a floating-point number or a decimal. -/

namespace EntityQuery

/-! ## Digits -/

theorem digit?_of_isDigit {c : Char} (h : c.isDigit) : digit? c = some (c.toNat - '0'.toNat) := by
  rw [Char.isDigit_iff_toNat] at h
  exact if_pos h

/-- Digits are read as the number they write after those before them. -/
theorem digitsAfter?_of_isDigit {cs : List Char} (h : ∀ c ∈ cs, c.isDigit) (n : Nat) :
    digitsAfter? n cs = some (Nat.ofDigitChars 10 cs n) := by
  induction cs generalizing n with
  | nil => rw [digitsAfter?, Nat.ofDigitChars_nil]
  | cons c cs ih =>
    obtain ⟨hc, hcs⟩ := List.forall_mem_cons.1 h
    rw [digitsAfter?, digit?_of_isDigit hc, Option.bind_some, ih hcs, Nat.ofDigitChars_cons]

theorem le_ofDigitChars (n : Nat) (cs : List Char) : n ≤ Nat.ofDigitChars 10 cs n := by
  induction cs generalizing n with
  | nil => exact Nat.le_of_eq Nat.ofDigitChars_nil.symm
  | cons c cs ih =>
    rw [Nat.ofDigitChars_cons]
    exact Nat.le_trans (by omega) (ih _)

theorem isDigit_of_digit? {c : Char} {d : Nat} (h : digit? c = some d) : c.isDigit := by
  rw [Char.isDigit_iff_toNat]
  rw [digit?] at h
  split at h
  · assumption
  · cases h

/-- Only digits are read, and as the number that they write. -/
theorem isDigit_of_digitsAfter? {n k : Nat} {cs : List Char} (h : digitsAfter? n cs = some k) :
    (∀ c ∈ cs, c.isDigit) ∧ k = Nat.ofDigitChars 10 cs n := by
  induction cs generalizing n with
  | nil =>
    rw [Nat.ofDigitChars_nil]
    exact ⟨nofun, (Option.some.inj h).symm⟩
  | cons c cs ih =>
    obtain ⟨d, hd, h⟩ := Option.bind_eq_some_iff.1 h
    obtain ⟨hcs, rfl⟩ := ih h
    have hc := isDigit_of_digit? hd
    obtain rfl := Option.some.inj (hd.symm.trans (digit?_of_isDigit hc))
    rw [Nat.ofDigitChars_cons]
    exact ⟨List.forall_mem_cons.2 ⟨hc, hcs⟩, rfl⟩

theorem readNat?_of_ne_nil {cs : List Char} (h : cs ≠ []) : readNat? cs = digitsAfter? 0 cs := by
  cases cs with
  | nil => exact absurd rfl h
  | cons c cs => rfl

/-- Digits do not start with a sign. -/
theorem ne_cons_of_isDigit {cs : List Char} (h : ∀ c ∈ cs, c.isDigit) {sign : Char}
    (hsign : sign.isDigit = false) (rest : List Char) : cs ≠ sign :: rest := by
  rintro rfl
  exact absurd (h sign List.mem_cons_self) (by simp [hsign])

theorem append_ne_cons_of_isDigit {cs : List Char} (hne : cs ≠ []) (h : ∀ c ∈ cs, c.isDigit)
    (more : List Char) {sign : Char} (hsign : sign.isDigit = false) (rest : List Char) :
    cs ++ more ≠ sign :: rest := by
  obtain ⟨d, ds, rfl⟩ := List.exists_cons_of_ne_nil hne
  intro hcons
  obtain ⟨rfl, -⟩ := List.cons.inj hcons
  exact absurd (h d List.mem_cons_self) (by simp [hsign])

theorem isDigit_of_mem_digits {n : Nat} {c : Char} (h : c ∈ Nat.toDigits 10 n) : c.isDigit :=
  Nat.isDigit_of_mem_toDigits (by decide) (by decide) h

/-- The digits of a number are read as it. -/
theorem digitsAfter?_toDigits (n : Nat) : digitsAfter? 0 (Nat.toDigits 10 n) = some n := by
  rw [digitsAfter?_of_isDigit fun c => isDigit_of_mem_digits, Nat.ofDigitChars_ten_toDigits]

theorem digits_ne_nil (n : Nat) : Nat.toDigits 10 n ≠ [] :=
  List.ne_nil_of_length_pos Nat.length_toDigits_pos

/-- A run of digits ends before a character that is none, or where it is as long as it may be. -/
theorem spanDigits_append {ds rest : List Char} {limit : Nat} (h : ∀ c ∈ ds, c.isDigit)
    (hlimit : ds.length ≤ limit)
    (hrest : ds.length = limit ∨ ∀ c ∈ rest.head?, c.isDigit = false) :
    spanDigits limit (ds ++ rest) = (ds, rest) := by
  have hall : ∀ c ∈ ds, (digit? c).isSome := by
    intro c hc
    rw [digit?_of_isDigit (h c hc)]
    rfl
  have hnone : (rest.take (limit - ds.length)).takeWhile (fun c => (digit? c).isSome) = [] := by
    rcases hrest with hfull | hhead
    · rw [hfull, Nat.sub_self, List.take_zero, List.takeWhile_nil]
    · cases rest with
      | nil => rw [List.take_nil, List.takeWhile_nil]
      | cons c rest =>
        have hc : (digit? c).isSome = false := by
          rw [Option.isSome_eq_false_iff, Option.isNone_iff_eq_none]
          cases hd : digit? c with
          | none => rfl
          | some d => exact absurd (isDigit_of_digit? hd) (by simp [hhead c rfl])
        cases limit - ds.length with
        | zero => rw [List.take_zero, List.takeWhile_nil]
        | succ k => rw [List.take_succ_cons, List.takeWhile_cons_of_neg (by simp [hc])]
  have hrun : ((ds ++ rest).take limit).takeWhile (fun c => (digit? c).isSome) = ds := by
    rw [List.take_append, List.take_of_length_le hlimit, List.takeWhile_append_of_pos hall, hnone,
      List.append_nil]
  simp only [spanDigits, hrun, List.drop_left]

/-- A run of digits ends with the text. -/
theorem spanDigits_of_isDigit {cs : List Char} (h : ∀ c ∈ cs, c.isDigit) :
    spanDigits cs.length cs = (cs, []) := by
  have hspan : spanDigits cs.length (cs ++ []) = (cs, []) :=
    spanDigits_append h (Nat.le_refl cs.length) (.inl rfl)
  rwa [List.append_nil] at hspan

/-! ## Digits with zeros in front -/

theorem isDigit_of_mem_paddedDigits {width n : Nat} {c : Char} (h : c ∈ paddedDigits width n) :
    c.isDigit := by
  rcases List.mem_append.1 h with h | h
  · rw [List.eq_of_mem_replicate h]
    rfl
  · exact isDigit_of_mem_digits h

theorem paddedDigits_ne_nil (width n : Nat) : paddedDigits width n ≠ [] :=
  List.append_ne_nil_of_right_ne_nil _ (digits_ne_nil n)

/-- Zeros in front do not change the number that is written. -/
theorem ofDigitChars_paddedDigits (width n : Nat) :
    Nat.ofDigitChars 10 (paddedDigits width n) 0 = n := by
  rw [paddedDigits, Nat.ofDigitChars_append, Nat.ofDigitChars_replicate_zero, Nat.mul_zero,
    Nat.ofDigitChars_ten_toDigits]

/-- Padding does not change the number. -/
theorem readNat?_paddedDigits (width n : Nat) : readNat? (paddedDigits width n) = some n := by
  rw [readNat?_of_ne_nil (paddedDigits_ne_nil width n),
    digitsAfter?_of_isDigit fun c => isDigit_of_mem_paddedDigits, ofDigitChars_paddedDigits]

theorem le_length_paddedDigits (width n : Nat) : width ≤ (paddedDigits width n).length := by
  simp only [paddedDigits, List.length_append, List.length_replicate]
  omega

/-- A number that the width has room for takes exactly the width. -/
theorem length_paddedDigits {width n : Nat} (hwidth : 0 < width) (h : n < 10 ^ width) :
    (paddedDigits width n).length = width := by
  have hdigits := (Nat.length_toDigits_le_iff (b := 10) (by decide) hwidth).2 h
  simp only [paddedDigits, List.length_append, List.length_replicate]
  omega

/-! ## Numerals -/

/-- One digit at least, and nothing else. -/
def IsDigits (cs : List Char) : Prop := cs ≠ [] ∧ ∀ c ∈ cs, c.isDigit

/-- The text writes the integer in digits, with leading zeros or without, after an optional sign. -/
inductive Numeral : List Char → Int → Prop where
  | unsigned {ds : List Char} (h : IsDigits ds) : Numeral ds (Nat.ofDigitChars 10 ds 0)
  | plus {ds : List Char} (h : IsDigits ds) : Numeral ('+' :: ds) (Nat.ofDigitChars 10 ds 0)
  | minus {ds : List Char} (h : IsDigits ds) : Numeral ('-' :: ds) (-Nat.ofDigitChars 10 ds 0)

theorem isBlank_of_isDigit {c : Char} (h : c.isDigit) : Text.isBlank c = false := by
  rw [Char.isDigit_iff_toNat] at h
  have hlow : 48 ≤ c.toNat := h.1
  have hhigh : c.toNat ≤ 57 := h.2
  simp [Text.isBlank]
  omega

section Numerals

variable {cs : List Char} {n : Int}

/-- Digits are read, as the number that they write, and nothing else is. -/
theorem map_readNat?_eq_some_iff {f : Nat → Int} :
    (readNat? cs).map f = some n ↔ IsDigits cs ∧ f (Nat.ofDigitChars 10 cs 0) = n := by
  by_cases hne : cs = []
  · subst hne
    exact iff_of_false nofun fun h => h.1.1 rfl
  · rw [readNat?_of_ne_nil hne]
    constructor
    · intro h
      obtain ⟨k, hk, rfl⟩ := Option.map_eq_some_iff.1 h
      obtain ⟨hdigits, rfl⟩ := isDigit_of_digitsAfter? hk
      exact ⟨⟨hne, hdigits⟩, rfl⟩
    · rintro ⟨⟨-, hdigits⟩, rfl⟩
      rw [digitsAfter?_of_isDigit hdigits, Option.map_some]

/-- A numeral has a digit. -/
theorem Numeral.ne_nil (h : Numeral cs n) : cs ≠ [] := by
  cases h with
  | unsigned h => exact h.1
  | plus | minus => exact List.cons_ne_nil _ _

theorem Numeral.isBlank (h : Numeral cs n) : ∀ c ∈ cs, Text.isBlank c = false := by
  cases h with
  | unsigned h => exact fun c hc => isBlank_of_isDigit (h.2 c hc)
  | plus h | minus h =>
    exact List.forall_mem_cons.2 ⟨rfl, fun c hc => isBlank_of_isDigit (h.2 c hc)⟩

theorem readInt?_plus (ds : List Char) :
    readInt? ('+' :: ds) = (readNat? ds).map fun k : Nat => (k : Int) := by
  rw [readInt?]
  cases readNat? ds <;> rfl

theorem readInt?_minus (ds : List Char) :
    readInt? ('-' :: ds) = (readNat? ds).map fun k : Nat => -(k : Int) := by
  rw [readInt?]
  cases readNat? ds <;> rfl

theorem readInt?_unsigned (hplus : ∀ rest, cs ≠ '+' :: rest) (hminus : ∀ rest, cs ≠ '-' :: rest) :
    readInt? cs = (readNat? cs).map fun k : Nat => (k : Int) := by
  rw [readInt?]
  · cases readNat? cs <;> rfl
  · exact hminus
  · exact hplus

/-- Numerals are read, as the integers that they write, and nothing else is. -/
theorem readInt?_eq_some_iff : readInt? cs = some n ↔ Numeral cs n := by
  constructor
  · intro h
    by_cases hplus : ∃ ds, cs = '+' :: ds
    · obtain ⟨ds, rfl⟩ := hplus
      rw [readInt?_plus, map_readNat?_eq_some_iff] at h
      obtain ⟨hdigits, rfl⟩ := h
      exact .plus hdigits
    · by_cases hminus : ∃ ds, cs = '-' :: ds
      · obtain ⟨ds, rfl⟩ := hminus
        rw [readInt?_minus, map_readNat?_eq_some_iff] at h
        obtain ⟨hdigits, rfl⟩ := h
        exact .minus hdigits
      · rw [readInt?_unsigned (not_exists.1 hplus) (not_exists.1 hminus),
          map_readNat?_eq_some_iff] at h
        obtain ⟨hdigits, rfl⟩ := h
        exact .unsigned hdigits
  · intro h
    cases h with
    | unsigned h =>
      rw [readInt?_unsigned (ne_cons_of_isDigit h.2 rfl) (ne_cons_of_isDigit h.2 rfl),
        map_readNat?_eq_some_iff]
      exact ⟨h, rfl⟩
    | plus h =>
      rw [readInt?_plus, map_readNat?_eq_some_iff]
      exact ⟨h, rfl⟩
    | minus h =>
      rw [readInt?_minus, map_readNat?_eq_some_iff]
      exact ⟨h, rfl⟩

end Numerals

/-! ## The text of an integer -/

/-- The sign of a negative integer, and the digits. -/
theorem toList_toString_int (n : Int) : (toString n).toList =
    if n < 0 then '-' :: Nat.toDigits 10 n.natAbs else Nat.toDigits 10 n.natAbs := by
  rw [Int.toString_eq_repr, Int.repr_eq_if]
  by_cases hn : n < 0
  · have habs : (-n).toNat = n.natAbs := by omega
    rw [if_neg (by omega), if_pos hn, habs, Nat.repr_eq_ofList_toDigits]
    simp
  · have habs : n.toNat = n.natAbs := by omega
    rw [if_pos (by omega), if_neg hn, habs, Nat.repr_eq_ofList_toDigits, String.toList_ofList]

/-- An integer is written as its numeral. -/
theorem numeral_toString_int (n : Int) : Numeral (toString n).toList n := by
  have hdigits : IsDigits (Nat.toDigits 10 n.natAbs) :=
    ⟨digits_ne_nil _, fun c => isDigit_of_mem_digits⟩
  rw [toList_toString_int]
  split
  · have hnumeral := Numeral.minus hdigits
    have habs : -(n.natAbs : Int) = n := by omega
    rwa [Nat.ofDigitChars_ten_toDigits, habs] at hnumeral
  · have hnumeral := Numeral.unsigned hdigits
    have habs : (n.natAbs : Int) = n := by omega
    rwa [Nat.ofDigitChars_ten_toDigits, habs] at hnumeral

theorem trim_toString_int (n : Int) : Text.trim (toString n).toList = (toString n).toList :=
  Text.trim_eq_self (numeral_toString_int n).isBlank

/-- The text of an integer is read as the integer. -/
theorem readInt?_toString_int (n : Int) : readInt? (toString n).toList = some n :=
  readInt?_eq_some_iff.2 (numeral_toString_int n)

/-- A written integer is read back if it fits. -/
theorem BoundedInt.read?_toString_int (w : IntWidth) (n : Int) :
    read? w (toString n).toList = ofInt? w n := by
  rw [read?, readInt?_toString_int, Option.bind_some]

theorem toLower_of_isDigit {c : Char} (h : c.isDigit) : c.toLower = c := by
  rw [Char.isDigit_iff_toNat] at h
  have hhigh : c.toNat ≤ 57 := h.2
  refine dif_neg ?_
  rintro ⟨hlow, -⟩
  have hlow : 65 ≤ c.toNat := hlow
  omega

namespace Binary

/-- Digits are not the letters of a word, in any case. -/
theorem ofList_map_toLower_ne {cs : List Char} (h : ∀ c ∈ cs, c.isDigit) (hne : cs ≠ [])
    (word : String) (hword : word.toList.any Char.isDigit = false) :
    String.ofList (cs.map Char.toLower) ≠ word := by
  intro heq
  cases cs with
  | nil => exact hne rfl
  | cons c cs =>
    have hc : c.isDigit := h c List.mem_cons_self
    have hmem : c ∈ word.toList := by
      rw [← heq, String.toList_ofList, List.map_cons, toLower_of_isDigit hc]
      exact List.mem_cons_self
    exact List.any_eq_false.1 hword c hmem hc

/-- Digits alone are a decimal number without an exponent. -/
theorem readUnsigned?_digits (f : FloatFormat) (negative : Bool) (n : Nat) :
    readUnsigned? f negative (Nat.toDigits 10 n) = some (ofDecimal f negative n 0) := by
  have hdigits : ∀ c ∈ Nat.toDigits 10 n, c.isDigit := fun c => isDigit_of_mem_digits
  have hword := ofList_map_toLower_ne hdigits (digits_ne_nil n)
  have hnan := hword "nan" (by decide)
  have hinf := hword "inf" (by decide)
  have hinfinity := hword "infinity" (by decide)
  rw [readUnsigned?, if_neg hnan, if_neg (not_or_intro hinf hinfinity), readDecimal?,
    spanDigits_of_isDigit hdigits]
  simp [digits_ne_nil n, digitsAfter?_toDigits, readExponent?]

/-- The text of an integer is read as the nearest number of the format. -/
theorem read?_toString_int (f : FloatFormat) (n : Int) :
    read? f (toString n).toList = some (ofDecimal f (n < 0) n.natAbs 0) := by
  rw [toList_toString_int]
  split
  · rename_i hn
    rw [read?, readUnsigned?_digits]
    simp [hn]
  · rename_i hn
    rw [read?, readUnsigned?_digits]
    · simp [hn]
    · exact ne_cons_of_isDigit (fun c => isDigit_of_mem_digits) rfl
    · exact ne_cons_of_isDigit (fun c => isDigit_of_mem_digits) rfl

end Binary

namespace Decimal

/-- A digit is read where there is room for it. -/
theorem readPlaces?_digit {c : Char} (hc : c.isDigit) {point any : Bool} {n scale : Nat}
    (hplace : ¬(point ∧ scale = maxScale)) (hroom : 10 * n + (c.toNat - '0'.toNat) < capacity)
    (cs : List Char) :
    readPlaces? point any n scale (c :: cs) =
      readPlaces? point true (10 * n + (c.toNat - '0'.toNat)) (if point then scale + 1 else 0)
        cs := by
  have hseparator : c ≠ '_' := by
    rintro rfl
    cases hc
  have hpoint : c ≠ '.' := by
    rintro rfl
    cases hc
  rw [Nat.mul_comm] at hroom ⊢
  rw [readPlaces?, if_neg hplace, if_neg hseparator, if_neg hpoint, digit?_of_isDigit hc]
  dsimp only
  rw [if_pos hroom]

/-- Digits before the point are read up to the capacity of a decimal. -/
theorem readPlaces?_before {ds : List Char} (h : ∀ c ∈ ds, c.isDigit) {any : Bool} {n : Nat}
    (hfits : Nat.ofDigitChars 10 ds n < capacity) (rest : List Char) :
    readPlaces? false any n 0 (ds ++ rest) =
      readPlaces? false (any || !ds.isEmpty) (Nat.ofDigitChars 10 ds n) 0 rest := by
  induction ds generalizing any n with
  | nil =>
    rw [List.nil_append, Nat.ofDigitChars_nil, List.isEmpty_nil, Bool.not_true, Bool.or_false]
  | cons c ds ih =>
    obtain ⟨hc, hds⟩ := List.forall_mem_cons.1 h
    rw [Nat.ofDigitChars_cons] at hfits ⊢
    rw [List.cons_append, readPlaces?_digit hc (by simp)
      (Nat.lt_of_le_of_lt (le_ofDigitChars _ ds) hfits), if_neg Bool.false_ne_true, ih hds hfits]
    simp

/-- Digits behind the point are read as far as there are places for them. -/
theorem readPlaces?_behind {ds : List Char} (h : ∀ c ∈ ds, c.isDigit) {n scale : Nat}
    (hplaces : scale + ds.length ≤ maxScale) (hfits : Nat.ofDigitChars 10 ds n < capacity) :
    readPlaces? true true n scale ds = some (Nat.ofDigitChars 10 ds n, scale + ds.length) := by
  induction ds generalizing n scale with
  | nil => simp [readPlaces?, Nat.ofDigitChars_nil]
  | cons c ds ih =>
    obtain ⟨hc, hds⟩ := List.forall_mem_cons.1 h
    rw [Nat.ofDigitChars_cons] at hfits ⊢
    rw [List.length_cons] at hplaces ⊢
    rw [readPlaces?_digit hc (by simp; omega) (Nat.lt_of_le_of_lt (le_ofDigitChars _ ds) hfits),
      if_pos rfl, ih hds (by omega) hfits]
    congr 2
    omega

/-- A number below the capacity is read as a decimal without places. -/
theorem readPlaces?_toDigits {n : Nat} (h : n < capacity) :
    readPlaces? false false 0 0 (Nat.toDigits 10 n) = some (n, 0) := by
  have hread := Nat.ofDigitChars_ten_toDigits (n := n)
  have hbefore : readPlaces? false false 0 0 (Nat.toDigits 10 n ++ []) = _ :=
    readPlaces?_before (fun c => isDigit_of_mem_digits) (by rwa [hread]) []
  rw [List.append_nil, hread] at hbefore
  rw [hbefore, readPlaces?]
  simp [digits_ne_nil n]

/-- The text of an integer that a decimal has room for is read as the integer. -/
theorem read?_toString_int {n : Int} (h : n.natAbs < capacity) :
    read? (toString n).toList = ofInt? n := by
  have hparts : ∃ a, ofInt? n = some a := ⟨_, dif_pos ⟨h, Nat.zero_le 28⟩⟩
  obtain ⟨a, ha⟩ := hparts
  have hplain : readPlain? (toString n).toList = ofInt? n := by
    rw [toList_toString_int]
    split
    · rename_i hn
      rw [readPlain?]
      dsimp only
      rw [readPlaces?_toDigits h, ofInt?, decide_eq_true hn]
      rfl
    · rename_i hn
      rw [readPlain?]
      · dsimp only
        rw [readPlaces?_toDigits h, ofInt?, decide_eq_false hn]
        rfl
      · exact ne_cons_of_isDigit (fun c => isDigit_of_mem_digits) rfl
      · exact ne_cons_of_isDigit (fun c => isDigit_of_mem_digits) rfl
  rw [read?, hplain, ha, Option.some_or]

end Decimal

end EntityQuery
