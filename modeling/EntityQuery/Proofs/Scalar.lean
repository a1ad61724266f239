import EntityQuery.Evaluation.Comparison
import EntityQuery.Proofs.Success

/-! # Scalars of one type

A cast comes out at its target.  Within one type other than the floating-point ones every two
scalars have an order, so that nothing but null keeps a comparison from being decided. -/

namespace EntityQuery

namespace Scalar

theorem type_of_ofText? {target : ScalarType} {raw : List Char} {s : Scalar}
    (h : ofText? target raw = some s) : s.type = target := by
  cases target with
  | string | bool =>
    obtain rfl := Option.some.inj h
    rfl
  | integer | float | double | decimal | char | date | dateTime =>
    obtain ⟨x, -, rfl⟩ := Option.map_eq_some_iff.1 h
    rfl

/-- What is cast is of the type it is cast to. -/
theorem type_of_cast? {target : ScalarType} {s r : Scalar} (h : cast? target s = some r) :
    r.type = target := by
  unfold cast? at h
  split at h
  · rename_i hs
    obtain rfl := Option.some.inj h
    exact hs
  · split at h
    · obtain rfl := Option.some.inj h
      rfl
    · obtain rfl := Option.some.inj h
      rfl
    · exact type_of_ofText? h

theorem type_of_cast {target : ScalarType} {s r : Scalar} (h : s.cast target = .ok r) :
    r.type = target := by
  rw [cast] at h
  split at h
  · rename_i hs
    obtain rfl := Except.ok.inj h
    exact type_of_cast? hs
  · exact absurd h nofun

end Scalar

/-- The types with a value that is not even equal to itself. -/
def ScalarType.isFloating : ScalarType → Bool
  | .float | .double => true
  | _ => false

/-- Scalars of one type are ordered, but for numbers with a floating point. -/
theorem Scalar.compare?_isSome {a b : Scalar} (ht : a.type = b.type)
    (hf : a.type.isFloating = false) : (a.compare? b).isSome := by
  cases a with
  | float | double => exact Bool.noConfusion hf
  | bool | integer | decimal | char | string | date | dateTime =>
    cases b with
    | bool | integer | float | double | decimal | char | string | date | dateTime =>
      first
        | rfl
        | exact absurd ht nofun

namespace Value

theorem scalarType?_of_cast {target : ScalarType} {v : Value} {s : Scalar}
    (h : v.cast target = .ok s) : s.type = target := by
  cases v with
  | scalar r => exact Scalar.type_of_cast h
  | null | list | record | object => exact absurd h nofun

/-- Null or of the type. -/
def HasType (v : Value) (type : ScalarType) : Prop := v = .null ∨ v.scalarType? = some type

/-- Only scalars have a type. -/
theorem exists_scalar_of_scalarType? {v : Value} {type : ScalarType}
    (h : v.scalarType? = some type) : ∃ s : Scalar, v = .scalar s ∧ s.type = type := by
  cases v with
  | scalar s => exact ⟨s, rfl, Option.some.inj h⟩
  | null | list | record | object => exact absurd h nofun

/-- Between values of one type, floating-point numbers apart, only null is unknown. -/
theorem eq_null_of_compareTruth_eq_unknown {a b : Value} {type : ScalarType}
    {comparator : Comparator} (ha : a.HasType type) (hb : b.HasType type)
    (hf : type.isFloating = false) (h : a.compareTruth comparator b = .unknown) :
    a = .null ∨ b = .null := by
  rcases ha with rfl | ha
  · exact .inl rfl
  · rcases hb with rfl | hb
    · exact .inr rfl
    · obtain ⟨s, rfl, hs⟩ := exists_scalar_of_scalarType? ha
      obtain ⟨r, rfl, hr⟩ := exists_scalar_of_scalarType? hb
      obtain ⟨o, ho⟩ := Option.isSome_iff_exists.1
        (Scalar.compare?_isSome (hs.trans hr.symm) (hs ▸ hf))
      have hdecided : compareTruth (.scalar s) comparator (.scalar r) =
          .ofBool (comparator.admits o) := by
        simp [compareTruth, isNull, compare?, ho]
      rw [hdecided] at h
      cases hadmits : comparator.admits o <;> rw [hadmits] at h <;> exact absurd h nofun

end Value

end EntityQuery
