import EntityQuery.Proofs.Number.Digits

/-! # Reading back decimals

The text of a decimal is its sign, its digits, and a point in front of as many of them as it has
places.  It is read as the same digits with the same places; a zero comes back without a sign. -/

namespace EntityQuery.Decimal

/-- The digits in front of the point; there is at least one. -/
def whole (a : Decimal) : List Char :=
  let ds := paddedDigits (a.scale + 1) a.coefficient
  ds.take (ds.length - a.scale)

/-- The digits behind the point. -/
def places (a : Decimal) : List Char :=
  let ds := paddedDigits (a.scale + 1) a.coefficient
  ds.drop (ds.length - a.scale)

/-- The digits with the point among them, if it has digits behind it. -/
def unsignedText (a : Decimal) : List Char :=
  if a.scale = 0 then a.whole else a.whole ++ '.' :: a.places

variable (a : Decimal)

/-- The digits of a decimal without its point. -/
theorem whole_append_places : a.whole ++ a.places = paddedDigits (a.scale + 1) a.coefficient :=
  List.take_append_drop _ _

theorem length_places : a.places.length = a.scale := by
  have hlength := le_length_paddedDigits (a.scale + 1) a.coefficient
  simp only [places, List.length_drop]
  omega

theorem whole_ne_nil : a.whole ≠ [] := by
  have hlength := le_length_paddedDigits (a.scale + 1) a.coefficient
  refine List.ne_nil_of_length_pos ?_
  simp only [whole, List.length_take]
  omega

theorem isDigit_of_mem_whole {c : Char} (h : c ∈ a.whole) : c.isDigit :=
  isDigit_of_mem_paddedDigits (List.mem_of_mem_take h)

theorem isDigit_of_mem_places {c : Char} (h : c ∈ a.places) : c.isDigit :=
  isDigit_of_mem_paddedDigits (List.mem_of_mem_drop h)

theorem toList_text : a.text.toList =
    if a.negative then '-' :: a.unsignedText else a.unsignedText := by
  have hbody : a.unsignedText =
      let ds := paddedDigits (a.scale + 1) a.coefficient
      if a.scale = 0 then ds
      else ds.take (ds.length - a.scale) ++ '.' :: ds.drop (ds.length - a.scale) := by
    rw [unsignedText]
    split
    · rename_i h
      rw [whole, h, Nat.sub_zero, List.take_length]
    · rfl
  rw [text, String.toList_ofList, hbody]

theorem isBlank_of_mem_unsignedText {c : Char} (h : c ∈ a.unsignedText) :
    Text.isBlank c = false := by
  rw [unsignedText] at h
  split at h
  · exact isBlank_of_isDigit (a.isDigit_of_mem_whole h)
  · rcases List.mem_append.1 h with h | h
    · exact isBlank_of_isDigit (a.isDigit_of_mem_whole h)
    · rcases List.mem_cons.1 h with rfl | h
      · rfl
      · exact isBlank_of_isDigit (a.isDigit_of_mem_places h)

theorem trim_text : Text.trim a.text.toList = a.text.toList := by
  refine Text.trim_eq_self fun c hc => ?_
  rw [toList_text] at hc
  split at hc
  · rcases List.mem_cons.1 hc with rfl | hc
    · rfl
    · exact a.isBlank_of_mem_unsignedText hc
  · exact a.isBlank_of_mem_unsignedText hc

/-- What is read in front of the point and behind it is the coefficient. -/
theorem ofDigitChars_places :
    Nat.ofDigitChars 10 a.places (Nat.ofDigitChars 10 a.whole 0) = a.coefficient := by
  rw [← Nat.ofDigitChars_append, whole_append_places, ofDigitChars_paddedDigits]

/-- The digits are read back with as many places as were written. -/
theorem readPlaces?_unsignedText :
    readPlaces? false false 0 0 a.unsignedText = some (a.coefficient, a.scale) := by
  have hcoefficient := a.ofDigitChars_places
  have hroom : Nat.ofDigitChars 10 a.whole 0 < capacity := by
    refine Nat.lt_of_le_of_lt (le_ofDigitChars _ a.places) ?_
    rw [hcoefficient]
    exact a.fits.1
  have hwhole : ∀ rest, readPlaces? false false 0 0 (a.whole ++ rest) =
      readPlaces? false true (Nat.ofDigitChars 10 a.whole 0) 0 rest := by
    intro rest
    have hsome : a.whole.isEmpty = false := List.isEmpty_eq_false_iff.2 a.whole_ne_nil
    rw [readPlaces?_before (fun c => a.isDigit_of_mem_whole) hroom, hsome]
    rfl
  rw [unsignedText]
  split
  · rename_i hscale
    have hnone : a.places = [] := List.eq_nil_of_length_eq_zero (by rw [length_places, hscale])
    rw [hnone, Nat.ofDigitChars_nil] at hcoefficient
    have hread := hwhole []
    rw [List.append_nil] at hread
    rw [hread, hcoefficient, hscale]
    rfl
  · rw [hwhole, readPlaces?, if_neg (by simp), if_neg (by decide), if_pos rfl,
      if_neg Bool.false_ne_true, readPlaces?_behind (fun c => a.isDigit_of_mem_places),
      hcoefficient, length_places, Nat.zero_add]
    · rw [length_places, Nat.zero_add]
      exact a.fits.2
    · rw [hcoefficient]
      exact a.fits.1

theorem unsignedText_ne_cons {c : Char} (hc : c.isDigit = false) (rest : List Char) :
    a.unsignedText ≠ c :: rest := by
  have hhead : ∀ more, a.whole ++ more ≠ c :: rest := fun more =>
    append_ne_cons_of_isDigit a.whole_ne_nil (fun d => a.isDigit_of_mem_whole) more hc rest
  rw [unsignedText]
  split
  · exact List.append_nil a.whole ▸ hhead []
  · exact hhead _

/-- The text of a decimal is read as its digits with its places, a zero without its sign. -/
theorem read?_text : read? a.text.toList =
    some ⟨a.negative && a.coefficient ≠ 0, a.coefficient, a.scale, a.fits⟩ := by
  have hplain : readPlain? a.text.toList = ofParts? a.negative a.coefficient a.scale := by
    rw [toList_text]
    cases hnegative : a.negative with
    | true =>
      rw [if_pos rfl, readPlain?]
      dsimp only
      rw [readPlaces?_unsignedText]
      rfl
    | false =>
      rw [if_neg Bool.false_ne_true, readPlain?]
      · dsimp only
        rw [readPlaces?_unsignedText]
        rfl
      · exact a.unsignedText_ne_cons rfl
      · exact a.unsignedText_ne_cons rfl
  rw [read?, hplain, ofParts?, dif_pos a.fits, Option.some_or]

end EntityQuery.Decimal
