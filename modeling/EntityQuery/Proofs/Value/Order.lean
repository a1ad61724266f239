import EntityQuery.Evaluation.Comparison
import Mathlib.Data.String.Basic
import Mathlib.Order.Defs.LinearOrder

/-! # The order of values from both sides

What comes first from one side comes last from the other, whatever types the two values have, and
what has an order from one side has one from the other.  So a comparison says the same as its
converse with the sides exchanged, and one for equality says the same both ways. -/

namespace EntityQuery

theorem compareOfLessAndEq_swap {α : Type} [LinearOrder α] (a b : α) :
    compareOfLessAndEq b a = (compareOfLessAndEq a b).swap :=
  compareOfLessAndEq_eq_swap le_antisymm le_total not_le

/-! ## Numbers -/

namespace Binary

theorem compareInt_swap (a b : Int) : compareInt b a = (compareInt a b).swap :=
  compareOfLessAndEq_swap a b

/-- Aligning does not depend on which number comes first. -/
theorem aligned_swap (a q b r : Int) : aligned b r a q = (aligned a q b r).swap := by
  rw [aligned, aligned, min_comm r q]
  rfl

theorem compare?_swap {f : FloatFormat} (x y : Binary f) :
    y.compare? x = (x.compare? y).map Ordering.swap := by
  cases x with
  | nan => cases y <;> rfl
  | infinite s =>
    cases y with
    | nan => rfl
    | infinite t => exact congrArg some (compareInt_swap _ _)
    | finite t n r h => cases s <;> rfl
  | finite s m q h =>
    cases y with
    | nan => rfl
    | infinite t => cases t <;> rfl
    | finite t n r h' =>
      rw [compare?, compare?, aligned_swap, Option.map_some, ← compareInt_swap]
      rfl

theorem equals_comm {f : FloatFormat} (x y : Binary f) : x.equals y = y.equals x := by
  rw [equals, equals, compare?_swap x y]
  rcases x.compare? y with _ | o
  · rfl
  · cases o <;> rfl

end Binary

namespace Decimal

theorem compare_swap (a b : Decimal) : b.compare a = (a.compare b).swap :=
  Binary.compareInt_swap _ _

theorem equals_comm (a b : Decimal) : a.equals b = b.equals a := by
  rw [equals, equals, compare_swap a b]
  cases a.compare b <;> rfl

end Decimal

/-! ## Dates and times -/

theorem Date.compare_swap (a b : Date) : b.compare a = (a.compare b).swap := by
  simp only [compare, Ordering.swap_then, ← compareOfLessAndEq_swap]

theorem TimeOfDay.compare_swap (a b : TimeOfDay) : b.compare a = (a.compare b).swap := by
  simp only [compare, Ordering.swap_then, ← compareOfLessAndEq_swap]

theorem DateTime.compare_swap (a b : DateTime) : b.compare a = (a.compare b).swap := by
  simp only [compare, Ordering.swap_then, ← Date.compare_swap, ← TimeOfDay.compare_swap]

/-! ## Scalars -/

namespace Scalar

theorem compareText_swap (a b : String) : compareText b a = (compareText a b).swap :=
  compareOfLessAndEq_swap a b

theorem compareDecimal?_swap (a b : Scalar) :
    compareDecimal? b a = (compareDecimal? a b).map Ordering.swap := by
  rw [compareDecimal?, compareDecimal?, Bool.or_comm]
  split
  · cases a.toDecimal? with
    | none => cases b.toDecimal? <;> rfl
    | some x =>
      cases b.toDecimal? with
      | none => rfl
      | some y => exact congrArg some (Decimal.compare_swap x y)
  · rfl

theorem compareDouble?_swap (a b : Scalar) :
    compareDouble? b a = (compareDouble? a b).map Ordering.swap := by
  rw [compareDouble?, compareDouble?]
  cases a.toDouble? with
  | none => cases b.toDouble? <;> rfl
  | some x =>
    cases b.toDouble? with
    | none => rfl
    | some y => exact Binary.compare?_swap x y

theorem compareNumber?_swap (a b : Scalar) :
    compareNumber? b a = (compareNumber? a b).map Ordering.swap := by
  have hother : (compareDecimal? b a).or (compareDouble? b a) =
      ((compareDecimal? a b).or (compareDouble? a b)).map Ordering.swap := by
    rw [compareDecimal?_swap, compareDouble?_swap]
    cases compareDecimal? a b <;> rfl
  rw [compareNumber?, compareNumber?]
  cases a.toInt? with
  | none => cases b.toInt? <;> exact hother
  | some x =>
    cases b.toInt? with
    | none => exact hother
    | some y => exact congrArg some (Binary.compareInt_swap x y)

/-- Within one type the order is the same from both sides. -/
theorem compareTyped?_swap (a b : Scalar) :
    compareTyped? b a = (compareTyped? a b).map Ordering.swap := by
  cases a <;> cases b <;> simp only [compareTyped?, Option.map_some] <;>
    first
      | exact compareNumber?_swap _ _
      | exact congrArg some (compareOfLessAndEq_swap _ _)
      | exact congrArg some (Date.compare_swap _ _)
      | exact congrArg some (DateTime.compare_swap _ _)

/-- A string is cast to the type beside it on whichever side it stands. -/
theorem compare?_swap (a b : Scalar) : b.compare? a = (a.compare? b).map Ordering.swap := by
  have hleft : ∀ (r? : Option Scalar) (c : Scalar), (r?.bind fun r => compareTyped? r c) =
      (r?.bind fun r => compareTyped? c r).map Ordering.swap := by
    rintro (_ | r) c
    · rfl
    · exact compareTyped?_swap c r
  have hright : ∀ (r? : Option Scalar) (c : Scalar), (r?.bind fun r => compareTyped? c r) =
      (r?.bind fun r => compareTyped? r c).map Ordering.swap := by
    rintro (_ | r) c
    · rfl
    · exact compareTyped?_swap r c
  cases a <;> cases b <;> simp only [compare?, Option.map_some] <;>
    first
      | exact compareTyped?_swap _ _
      | exact congrArg some (compareText_swap _ _)
      | exact hleft _ _
      | exact hright _ _

theorem equals_comm (a b : Scalar) : a.equals b = b.equals a := by
  cases a <;> cases b <;> simp only [equals] <;>
    first
      | exact Binary.equals_comm _ _
      | exact Decimal.equals_comm _ _
      | exact congrArg₂ (· && ·) (decide_eq_decide.2 eq_comm) (decide_eq_decide.2 eq_comm)
      | exact decide_eq_decide.2 eq_comm

end Scalar

/-! ## Values -/

namespace Comparator

/-- The comparator that says the same with the sides exchanged. -/
def converse : Comparator → Comparator
  | .equal => .equal
  | .notEqual => .notEqual
  | .less => .greater
  | .lessOrEqual => .greaterOrEqual
  | .greater => .less
  | .greaterOrEqual => .lessOrEqual

/-- A comparison admits an ordering if its converse admits the opposite one. -/
theorem admits_converse (c : Comparator) (o : Ordering) :
    c.converse.admits o.swap = c.admits o := by
  cases c <;> cases o <;> rfl

end Comparator

namespace Value

theorem compare?_swap (a b : Value) : b.compare? a = (a.compare? b).map Ordering.swap := by
  cases a with
  | scalar s =>
    cases b with
    | scalar r => exact Scalar.compare?_swap s r
    | null | list | record | object => rfl
  | null | list | record | object => cases b <;> rfl

mutual

theorem equals_comm (a b : Value) : a.equals b = b.equals a := by
  match a with
  | .null => cases b <;> rfl
  | .scalar s =>
    cases b with
    | scalar r => exact Scalar.equals_comm s r
    | null | list | record | object => rfl
  | .list as =>
    cases b with
    | list bs => exact equalLists_comm as bs
    | null | scalar | record | object => rfl
  | .record e as =>
    cases b with
    | record f bs =>
      exact congrArg₂ (· && ·) (decide_eq_decide.2 eq_comm) (equalFields_comm as bs)
    | null | scalar | list | object => rfl
  | .object o =>
    cases b with
    | object p => exact decide_eq_decide.2 eq_comm
    | null | scalar | list | record => rfl

theorem equalLists_comm (as bs : List Value) : equalLists as bs = equalLists bs as := by
  match as, bs with
  | [], [] | [], _ :: _ | _ :: _, [] => rfl
  | a :: as, b :: bs => exact congrArg₂ (· && ·) (equals_comm a b) (equalLists_comm as bs)

theorem equalFields_comm (as bs : List (String × Value)) :
    equalFields as bs = equalFields bs as := by
  match as, bs with
  | [], [] | [], _ :: _ | _ :: _, [] => rfl
  | (k, a) :: as, (l, b) :: bs =>
    exact congrArg₂ (· && ·)
      (congrArg₂ (· && ·) (decide_eq_decide.2 eq_comm) (equals_comm a b)) (equalFields_comm as bs)

end

/-- Equality is symmetric, and of an order nothing is known from either side. -/
theorem unorderedTruth_converse (a : Value) (c : Comparator) (b : Value) :
    b.unorderedTruth c.converse a = a.unorderedTruth c b := by
  cases c with
  | equal => exact congrArg Truth.ofBool (equals_comm b a)
  | notEqual => exact congrArg (fun equal : Bool => Truth.ofBool !equal) (equals_comm b a)
  | less | lessOrEqual | greater | greaterOrEqual => rfl

/-- A comparison has the same truth as its converse with the sides exchanged. -/
theorem compareTruth_converse (a : Value) (c : Comparator) (b : Value) :
    b.compareTruth c.converse a = a.compareTruth c b := by
  rw [compareTruth, compareTruth, Bool.or_comm, compare?_swap a b]
  split
  · rfl
  · cases a.compare? b with
    | none => exact unorderedTruth_converse a c b
    | some o => exact congrArg Truth.ofBool (Comparator.admits_converse c o)

/-- A value equals another one exactly as that one equals it, and so it is with what is unknown. -/
theorem compareTruth_equal_comm (a b : Value) :
    a.compareTruth .equal b = b.compareTruth .equal a :=
  compareTruth_converse b .equal a

end Value

end EntityQuery
