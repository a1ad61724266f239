import EntityQuery.Proofs.Number.Rational
import EntityQuery.Proofs.Scalar
import EntityQuery.Proofs.Value.Order

/-! # Equality of values

Equality of values is symmetric and transitive.  A value is equal to itself unless there is a NaN in
it, however deep inside lists and records; so among values without NaN it is an equivalence. -/

namespace EntityQuery

/-! ## Numbers -/

namespace Binary

variable {f : FloatFormat}

/-- An infinity or a rational number; a NaN is neither. -/
def number? : Binary f → Option (Bool ⊕ ℚ)
  | .nan => none
  | .infinite s => some (.inl s)
  | .finite s m q _ => some (.inr (signed s m * 2 ^ q))

/-- Numbers of a format are equal if both are numbers and the same one. -/
theorem equals_iff {x y : Binary f} : x.equals y ↔ x.number?.isSome ∧ x.number? = y.number? := by
  rw [equals, decide_eq_true_iff]
  cases x with
  | nan => cases y <;> simp [compare?, number?]
  | infinite s =>
    cases y with
    | nan => simp [compare?, number?]
    | infinite t => cases s <;> cases t <;> simp [compare?, compareInt, signed, number?] <;> decide
    | finite t n r hn => cases s <;> simp [compare?, number?]
  | finite s m q hm =>
    cases y with
    | nan => simp [compare?, number?]
    | infinite t => cases t <;> simp [compare?, number?]
    | finite t n r hn =>
      rw [compare?_finite, Option.some_inj, compareOfLessAndEq_eq_eq_iff]
      simp [number?]

/-- Only NaN does not equal itself. -/
theorem equals_self_iff {x : Binary f} : x.equals x ↔ x ≠ .nan := by
  rw [equals_iff]
  cases x <;> simp [number?]

theorem equals_trans {x y z : Binary f} (hxy : x.equals y) (hyz : y.equals z) : x.equals z := by
  rw [equals_iff] at hxy hyz ⊢
  exact ⟨hxy.1, hxy.2.trans hyz.2⟩

end Binary

namespace Decimal

variable {a b c : Decimal}

theorem equals_iff : a.equals b ↔ a.number = b.number := by
  rw [equals, decide_eq_true_iff, compare_eq, compareOfLessAndEq_eq_eq_iff]

theorem equals_trans (hab : a.equals b) (hbc : b.equals c) : a.equals c := by
  rw [equals_iff] at hab hbc ⊢
  exact hab.trans hbc

end Decimal

/-! ## Scalars -/

namespace Scalar

/-- The scalar is NaN, of either width. -/
def isNaN : Scalar → Bool
  | .float x => x = .nan
  | .double x => x = .nan
  | _ => false

theorem equals_self_iff {s : Scalar} : s.equals s ↔ s.isNaN = false := by
  cases s with
  | float x | double x =>
    rw [equals, isNaN, Binary.equals_self_iff, decide_eq_false_iff_not]
  | decimal d => exact ⟨fun _ => rfl, fun _ => Decimal.equals_iff.2 rfl⟩
  | bool | integer | char | string | date | dateTime => simp [equals, isNaN]

theorem equals_trans {a b c : Scalar} (hab : a.equals b) (hbc : b.equals c) : a.equals c := by
  cases a <;> cases b <;> first
    | exact Bool.noConfusion hab
    | cases c <;> first
      | exact Bool.noConfusion hbc
      | exact Binary.equals_trans hab hbc
      | exact Decimal.equals_trans hab hbc
      | simp only [equals, Bool.and_eq_true, decide_eq_true_iff] at hab hbc ⊢
        simp only [hab, hbc, and_self]

/-- Only numbers can be equal without being the same: zeros of either sign, and decimals that are
written with more or fewer places. -/
theorem eq_of_equals {a b : Scalar} (hf : a.type.isFloating = false) (hd : a.type ≠ .decimal)
    (h : a.equals b) : a = b := by
  cases a with
  | float | double => exact Bool.noConfusion hf
  | decimal => exact absurd rfl hd
  | integer w n =>
    cases b with
    | integer v m =>
      simp only [equals, Bool.and_eq_true, decide_eq_true_iff] at h
      obtain ⟨rfl, h⟩ := h
      obtain ⟨n, hn⟩ := n
      obtain rfl : n = m.val := h
      rfl
    | bool | float | double | decimal | char | string | date | dateTime =>
      exact Bool.noConfusion h
  | bool | char | string | date | dateTime =>
    cases b <;> first
      | exact Bool.noConfusion h
      | exact congrArg _ (of_decide_eq_true h)

end Scalar

/-! ## Values -/

namespace Value

mutual

/-- There is a NaN in the value. -/
def hasNaN : Value → Bool
  | .scalar s => s.isNaN
  | .list items => anyNaN items
  | .record _ fields => anyFieldNaN fields
  | .null | .object _ => false

def anyNaN : List Value → Bool
  | [] => false
  | v :: vs => hasNaN v || anyNaN vs

def anyFieldNaN : List (String × Value) → Bool
  | [] => false
  | (_, v) :: fields => hasNaN v || anyFieldNaN fields

end

mutual

theorem equals_self_iff (v : Value) : v.equals v ↔ v.hasNaN = false := by
  match v with
  | .null => exact ⟨fun _ => rfl, fun _ => rfl⟩
  | .scalar s => exact Scalar.equals_self_iff
  | .list items => exact equalLists_self_iff items
  | .record e fields =>
    rw [equals, hasNaN, ← equalFields_self_iff fields]
    simp
  | .object o => simp [equals, hasNaN]

theorem equalLists_self_iff (vs : List Value) : equalLists vs vs ↔ anyNaN vs = false := by
  match vs with
  | [] => exact ⟨fun _ => rfl, fun _ => rfl⟩
  | v :: vs =>
    rw [equalLists, anyNaN, Bool.and_eq_true, Bool.or_eq_false_iff, equals_self_iff v,
      equalLists_self_iff vs]

theorem equalFields_self_iff (fields : List (String × Value)) :
    equalFields fields fields ↔ anyFieldNaN fields = false := by
  match fields with
  | [] => exact ⟨fun _ => rfl, fun _ => rfl⟩
  | (k, v) :: fields =>
    rw [equalFields, anyFieldNaN, Bool.and_eq_true, Bool.and_eq_true, Bool.or_eq_false_iff,
      equals_self_iff v, equalFields_self_iff fields]
    simp

end

mutual

theorem equals_trans {a b c : Value} (hab : a.equals b) (hbc : b.equals c) : a.equals c := by
  match b with
  | .null =>
    cases a with
    | null => exact hbc
    | scalar | list | record | object => exact absurd hab nofun
  | .scalar s =>
    cases a with
    | scalar r =>
      cases c with
      | scalar u => exact Scalar.equals_trans hab hbc
      | null | list | record | object => exact absurd hbc nofun
    | null | list | record | object => exact absurd hab nofun
  | .list bs =>
    cases a with
    | list as =>
      cases c with
      | list cs => exact equalLists_trans hab hbc
      | null | scalar | record | object => exact absurd hbc nofun
    | null | scalar | record | object => exact absurd hab nofun
  | .record f bs =>
    cases a with
    | record e as =>
      cases c with
      | record g cs =>
        rw [equals, Bool.and_eq_true, decide_eq_true_iff] at hab hbc ⊢
        exact ⟨hab.1.trans hbc.1, equalFields_trans hab.2 hbc.2⟩
      | null | scalar | list | object => exact absurd hbc nofun
    | null | scalar | list | object => exact absurd hab nofun
  | .object p =>
    cases a with
    | object o =>
      cases c with
      | object r =>
        rw [equals, decide_eq_true_iff] at hab hbc ⊢
        exact hab.trans hbc
      | null | scalar | list | record => exact absurd hbc nofun
    | null | scalar | list | record => exact absurd hab nofun

theorem equalLists_trans {as bs cs : List Value} (hab : equalLists as bs)
    (hbc : equalLists bs cs) : equalLists as cs := by
  match as, bs, cs with
  | [], [], cs => exact hbc
  | a :: as, b :: bs, c :: cs =>
    rw [equalLists, Bool.and_eq_true] at hab hbc ⊢
    exact ⟨equals_trans hab.1 hbc.1, equalLists_trans hab.2 hbc.2⟩

theorem equalFields_trans {as bs cs : List (String × Value)} (hab : equalFields as bs)
    (hbc : equalFields bs cs) : equalFields as cs := by
  match as, bs, cs with
  | [], [], cs => exact hbc
  | (k, a) :: as, (l, b) :: bs, (m, c) :: cs =>
    simp only [equalFields, Bool.and_eq_true, decide_eq_true_iff] at hab hbc ⊢
    exact ⟨⟨hab.1.1.trans hbc.1.1, equals_trans hab.1.2 hbc.1.2⟩, equalFields_trans hab.2 hbc.2⟩

end

end Value

end EntityQuery
