import EntityQuery.Document.Number
import EntityQuery.Proofs.Number.Digits

/-! # Integers in JSON

A number that is written as an integer and fits into 64 bits, with a sign or without, is read as
this integer (`Document.readNumber?_of_readInt?`).  Only a zero with a sign is none: it is the
negative zero of the doubles. -/

namespace EntityQuery.Document

/-- The number that a text behind its sign writes. -/
def readMagnitude? (negative : Bool) (cs : List Char) : Option Document :=
  let (digits, rest) := spanDigits cs.length cs
  if digits = [] ∨ (digits.head? = some '0' ∧ digits.length > 1) then none
  else
    let (significand, dropped) := takeDigits 0 digits
    readTail? negative significand dropped.length rest

theorem readNumber?_minus (cs : List Char) : readNumber? ('-' :: cs) = readMagnitude? true cs :=
  rfl

theorem readNumber?_of_ne {cs : List Char} (h : ∀ rest, cs ≠ '-' :: rest) :
    readNumber? cs = readMagnitude? false cs := by
  rw [readNumber?, readMagnitude?]
  exact h

/-- Digits are taken to the last as long as their number fits. -/
theorem takeDigits_of_isDigit {cs : List Char} (h : ∀ c ∈ cs, c.isDigit) {n : Nat}
    (hfits : Nat.ofDigitChars 10 cs n < 2 ^ (64 : Nat)) :
    takeDigits n cs = (Nat.ofDigitChars 10 cs n, []) := by
  induction cs generalizing n with
  | nil => rw [takeDigits, Nat.ofDigitChars_nil]
  | cons c cs ih =>
    obtain ⟨hc, hcs⟩ := List.forall_mem_cons.1 h
    rw [Nat.ofDigitChars_cons] at hfits ⊢
    rw [takeDigits, digit?_of_isDigit hc]
    dsimp only
    rw [if_pos (Nat.lt_of_le_of_lt (le_ofDigitChars _ cs) hfits)]
    exact ih hcs hfits

/-- Digits of a number of 64 bits are taken whole. -/
theorem readMagnitude?_of_readNat? {negative : Bool} {cs : List Char} {d : Document} {n : Nat}
    (hd : readMagnitude? negative cs = some d) (hn : readNat? cs = some n)
    (hfits : n < 2 ^ (64 : Nat)) : d = ofSignificand negative n := by
  have hne : cs ≠ [] := by
    rintro rfl
    cases hn
  rw [readNat?_of_ne_nil hne] at hn
  obtain ⟨hdigits, rfl⟩ := isDigit_of_digitsAfter? hn
  rw [readMagnitude?, spanDigits_of_isDigit hdigits] at hd
  dsimp only at hd
  split at hd
  · cases hd
  · rw [takeDigits_of_isDigit hdigits hfits] at hd
    exact (Option.some.inj hd).symm

/-- The negative zero of the doubles. -/
def negativeZero : Document := .double (Binary.neg (.ofInt .double 0))

/-- Behind a minus, the number is an integer unless it is zero. -/
theorem ofSignificand_true {n : Nat} (h : n ≤ 2 ^ (63 : Nat)) :
    ofSignificand true n = if n = 0 then negativeZero else .integer (-(n : Int)) := by
  rw [ofSignificand, if_pos rfl]
  by_cases hzero : n = 0
  · subst hzero
    rfl
  · rw [if_pos ⟨Nat.pos_of_ne_zero hzero, h⟩, if_neg hzero]

/-- A number that is written as an integer of 64 bits is this integer, or the negative zero. -/
theorem readNumber?_of_readInt? {cs : List Char} {d : Document} {n : Int}
    (hd : readNumber? cs = some d) (hn : readInt? cs = some n)
    (hlow : -2 ^ (63 : Nat) ≤ n) (hhigh : n < 2 ^ (64 : Nat)) :
    d = .integer n ∨ n = 0 ∧ d = negativeZero := by
  unfold readInt? at hn
  split at hn
  · obtain ⟨_, hk, rfl⟩ := Option.map_eq_some_iff.1 hn
    obtain ⟨k, hread, hcast⟩ := Option.bind_eq_some_iff.1 hk
    obtain rfl := Option.some.inj hcast
    obtain rfl := readMagnitude?_of_readNat? (readNumber?_minus _ ▸ hd) hread (by omega)
    rw [ofSignificand_true (by omega)]
    split
    · rename_i hzero
      exact .inr ⟨by rw [hzero]; rfl, rfl⟩
    · exact .inl rfl
  · -- JSON has no plus sign.
    cases hd
  · rename_i hminus _
    obtain ⟨_, hk, rfl⟩ := Option.map_eq_some_iff.1 hn
    obtain ⟨k, hread, hcast⟩ := Option.bind_eq_some_iff.1 hk
    obtain rfl := Option.some.inj hcast
    obtain rfl := readMagnitude?_of_readNat? (readNumber?_of_ne hminus ▸ hd) hread (by omega)
    exact .inl rfl

end EntityQuery.Document
