import EntityQuery.Proofs.Number.Decimals
import EntityQuery.Proofs.Time.Reading
import EntityQuery.Proofs.Value.Equality

/-! # Casts to text and back

Every scalar but a floating-point number is cast to a text that writes it: cast back to the type of
the scalar, the text gives an equal one, a decimal with the places that it had
(`text_cast_inverts`). -/

namespace EntityQuery

/-- Without its sign, the zero that a decimal may be is the same number. -/
theorem Decimal.equals_unsignedZero (a : Decimal) :
    equals ⟨a.negative && a.coefficient ≠ 0, a.coefficient, a.scale, a.fits⟩ a := by
  refine equals_iff.2 ?_
  by_cases hzero : a.coefficient = 0
  · simp [number, signed, Binary.signed, hzero]
  · simp [number, signed, hzero]

namespace Scalar

/-- The places of a decimal. -/
def places? : Scalar → Option Nat
  | .decimal d => some d.scale
  | _ => none

theorem ofText?_bool (b : Bool) :
    ofText? .bool (bool b).text.toList = some (bool b) := by
  cases b with
  | true => decide
  | false => decide

theorem ofText?_integer {w : IntWidth} (n : BoundedInt w) :
    ofText? (.integer w) (integer w n).text.toList = some (integer w n) := by
  rw [text, BoundedInt.text, ofText?, trim_toString_int, BoundedInt.read?_toString_int,
    BoundedInt.ofInt?_val, Option.map_some]

/-- A decimal is read back with its scale, but a negative zero loses its sign. -/
theorem ofText?_decimal (d : Decimal) : ofText? .decimal (decimal d).text.toList =
    some (decimal ⟨d.negative && d.coefficient ≠ 0, d.coefficient, d.scale, d.fits⟩) := by
  rw [text, ofText?, d.trim_text, d.read?_text, Option.map_some]

/-- A character stands as it is, a blank one too. -/
theorem ofText?_char (c : Char) : ofText? .char (char c).text.toList = some (char c) := by
  rw [text, String.toList_ofList]
  rfl

theorem ofText?_string (s : String) : ofText? .string (string s).text.toList = some (string s) := by
  rw [text, ofText?, String.ofList_toList]

theorem ofText?_date (d : Date) : ofText? .date (date d).text.toList = some (date d) := by
  rw [text, ofText?, d.trim_text, d.read?_text, Option.map_some]

theorem ofText?_dateTime (t : DateTime) :
    ofText? .dateTime (dateTime t).text.toList = some (dateTime t) := by
  rw [text, ofText?, t.trim_text, t.read?_text, Option.map_some]

/-- The text of a scalar is read as the scalar, but for the sign of a zero. -/
theorem exists_ofText?_text {s : Scalar} (h : s.type.isFloating = false) :
    ∃ r, ofText? s.type s.text.toList = some r ∧ r.equals s ∧ r.places? = s.places? := by
  -- All but the decimals come back as they were.
  have same : ofText? s.type s.text.toList = some s → s.isNaN = false →
      ∃ r, ofText? s.type s.text.toList = some r ∧ r.equals s ∧ r.places? = s.places? :=
    fun hread hnan => ⟨s, hread, equals_self_iff.2 hnan, rfl⟩
  cases s with
  | float | double => exact Bool.noConfusion h
  | bool b => exact same (ofText?_bool b) rfl
  | integer w n => exact same (ofText?_integer n) rfl
  | char c => exact same (ofText?_char c) rfl
  | string s => exact same (ofText?_string s) rfl
  | date d => exact same (ofText?_date d) rfl
  | dateTime t => exact same (ofText?_dateTime t) rfl
  | decimal d => exact ⟨_, ofText?_decimal d, d.equals_unsignedZero, rfl⟩

/-- A text is cast by reading it. -/
theorem cast?_text (s : Scalar) : cast? s.type (string s.text) = ofText? s.type s.text.toList := by
  cases s with
  | string s => exact (cast?_self (string s)).trans (ofText?_string s).symm
  | bool | integer | float | double | decimal | char | date | dateTime => rfl

/-- Every scalar can be cast to its text. -/
theorem cast_string (s : Scalar) : s.cast .string = .ok (string s.text) := by
  cases s with
  | string s => rfl
  | bool | integer | float | double | decimal | char | date | dateTime =>
    simp only [cast, cast?, type, reduceCtorEq, if_false, ofText?, String.ofList_toList]

end Scalar

/-- A scalar that is no floating-point number is cast to its text, and the text to a scalar of the
same type that is equal to it and has as many places. -/
theorem text_cast_inverts {s : Scalar} (h : s.type.isFloating = false) :
    ∃ text r, (Value.scalar s).cast .string = .ok (.string text) ∧
      (Value.scalar (.string text)).cast s.type = .ok r ∧
      r.type = s.type ∧ (Value.scalar r).equals (.scalar s) ∧ r.places? = s.places? := by
  obtain ⟨r, hread, hequal, hplaces⟩ := Scalar.exists_ofText?_text h
  refine ⟨s.text, r, s.cast_string, ?_, Scalar.type_of_ofText? hread, hequal, hplaces⟩
  rw [Value.cast, Scalar.cast, Scalar.cast?_text, hread]

/-- A time within the second that was inserted at the end of 2016. -/
def lastSecond : DateTime :=
  ⟨⟨2016, 12, 31, by decide⟩, ⟨23, 59, 59, 1000250000, by decide⟩⟩

/-- A negative decimal that ends on a zero, a blank character, and a second 60 with a fraction. -/
theorem text_cast_inverts_of_samples :
    (∃ text r, (Value.scalar (.decimal ⟨true, 150, 2, by decide⟩)).cast .string =
        .ok (.string text) ∧
      (Value.scalar (.string text)).cast .decimal = .ok r ∧ r.type = .decimal ∧
      (Value.scalar r).equals (.scalar (.decimal ⟨true, 150, 2, by decide⟩)) ∧
      r.places? = some 2) ∧
    (∃ text r, (Value.scalar (.char '\t')).cast .string = .ok (.string text) ∧
      (Value.scalar (.string text)).cast .char = .ok r ∧ r.type = .char ∧
      (Value.scalar r).equals (.scalar (.char '\t')) ∧ r.places? = none) ∧
    ∃ text r, (Value.scalar (.dateTime lastSecond)).cast .string = .ok (.string text) ∧
      (Value.scalar (.string text)).cast .dateTime = .ok r ∧ r.type = .dateTime ∧
      (Value.scalar r).equals (.scalar (.dateTime lastSecond)) ∧ r.places? = none :=
  ⟨text_cast_inverts (s := Scalar.decimal ⟨true, 150, 2, by decide⟩) rfl,
    text_cast_inverts (s := .char '\t') rfl, text_cast_inverts (s := .dateTime lastSecond) rfl⟩

end EntityQuery
