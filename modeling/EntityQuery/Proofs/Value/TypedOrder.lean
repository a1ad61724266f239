import EntityQuery.Evaluation.Sort
import EntityQuery.Proofs.Number.Rational
import EntityQuery.Proofs.Scalar
import EntityQuery.Proofs.Value.Order

/-! # The order of values of one type

Between values of one type other than the floating-point ones, comparison is a total preorder, and
what it does not tell apart is equal.  So it is for the keys of a sort, among which there may be
nulls, and for lists of keys, each of which has its own type and its own direction. -/

namespace EntityQuery

/-! ## Transitive comparisons -/

section

variable {α β : Type}

/-- What is compared by something that is compared transitively is compared transitively. -/
theorem transCmp_comap (cmp : β → β → Ordering) [Std.TransCmp cmp] (key : α → β) :
    Std.TransCmp fun a b => cmp (key a) (key b) where
  eq_swap := Std.OrientedCmp.eq_swap
  isLE_trans := Std.TransCmp.isLE_trans

/-- An order by a key is transitive. -/
theorem transCmp_of_key [LinearOrder β] (key : α → β) :
    Std.TransCmp fun a b => compareOfLessAndEq (key a) (key b) :=
  have : Std.TransCmp fun x y : β => compareOfLessAndEq x y :=
    Std.TransOrd.compareOfLessAndEq_of_antisymm_of_trans_of_total_of_not_le
      le_antisymm le_trans le_total not_le
  transCmp_comap (fun x y : β => compareOfLessAndEq x y) key

/-- Two steps upwards are one, and a proper one if either of them is. -/
theorem compare_eq_then (cmp : α → α → Ordering) [Std.TransCmp cmp] {a b c : α}
    (hab : (cmp a b).isLE) (hbc : (cmp b c).isLE) : cmp a c = (cmp a b).then (cmp b c) := by
  cases ho : cmp a b with
  | lt =>
    cases hp : cmp b c with
    | lt => exact Std.TransCmp.lt_trans ho hp
    | eq => exact Std.TransCmp.lt_of_lt_of_eq ho hp
    | gt => simp [hp] at hbc
  | eq =>
    cases hp : cmp b c with
    | lt => exact Std.TransCmp.lt_of_eq_of_lt ho hp
    | eq => exact Std.TransCmp.eq_trans ho hp
    | gt => simp [hp] at hbc
  | gt => simp [ho] at hab

/-- Two lexicographic steps upwards are one. -/
theorem then_then_eq {o p r s rest : Ordering} (hab : (o.then r).isLE) (hbc : (p.then s).isLE)
    (hrest : r.isLE → s.isLE → rest = r.then s) :
    (o.then p).then rest = (o.then r).then (p.then s) := by
  cases o with
  | lt => rfl
  | gt => exact absurd hab nofun
  | eq =>
    cases p with
    | eq => exact hrest hab hbc
    | gt => exact absurd hbc nofun
    | lt =>
      cases r with
      | lt | eq => rfl
      | gt => exact absurd hab nofun

end

instance : Std.TransCmp Binary.compareInt := transCmp_of_key id

instance : Std.TransCmp Decimal.compare := by
  have h := transCmp_of_key Decimal.number
  simp only [← Decimal.compare_eq] at h
  exact h

instance : Std.TransCmp Date.compare :=
  have := transCmp_of_key Date.year
  have := transCmp_of_key Date.month
  have := transCmp_of_key Date.day
  inferInstanceAs (Std.TransCmp (compareLex _ (compareLex _ _)))

instance : Std.TransCmp TimeOfDay.compare :=
  have := transCmp_of_key TimeOfDay.hour
  have := transCmp_of_key TimeOfDay.minute
  have := transCmp_of_key TimeOfDay.second
  have := transCmp_of_key TimeOfDay.nano
  inferInstanceAs (Std.TransCmp (compareLex _ (compareLex _ (compareLex _ _))))

instance : Std.TransCmp DateTime.compare :=
  have := transCmp_comap Date.compare DateTime.date
  have := transCmp_comap TimeOfDay.compare DateTime.time
  inferInstanceAs (Std.TransCmp (compareLex _ _))

/-! ## No difference -/

theorem Date.compare_eq_eq_iff {a b : Date} : a.compare b = .eq ↔ a = b := by
  obtain ⟨y, m, d, _⟩ := a
  obtain ⟨y', m', d', _⟩ := b
  simp only [compare, Ordering.then_eq_eq, compareOfLessAndEq_eq_eq_iff, Date.mk.injEq]

theorem TimeOfDay.compare_eq_eq_iff {a b : TimeOfDay} : a.compare b = .eq ↔ a = b := by
  obtain ⟨h, m, s, n, _⟩ := a
  obtain ⟨h', m', s', n', _⟩ := b
  simp only [compare, Ordering.then_eq_eq, compareOfLessAndEq_eq_eq_iff, TimeOfDay.mk.injEq]

theorem DateTime.compare_eq_eq_iff {a b : DateTime} : a.compare b = .eq ↔ a = b := by
  obtain ⟨d, t⟩ := a
  obtain ⟨d', t'⟩ := b
  simp only [compare, Ordering.then_eq_eq, Date.compare_eq_eq_iff, TimeOfDay.compare_eq_eq_iff,
    DateTime.mk.injEq]

/-! ## Scalars of one type -/

namespace Scalar

instance : Std.TransCmp compareBool := transCmp_of_key Bool.toNat

instance : Std.TransCmp compareChar := transCmp_of_key Char.toNat

instance : Std.TransCmp compareText := transCmp_of_key id

theorem compareBool_eq_eq_iff {a b : Bool} : compareBool a b = .eq ↔ a = b := by
  cases a <;> cases b <;> decide

theorem compareChar_eq_eq_iff {a b : Char} : compareChar a b = .eq ↔ a = b := by
  rw [compareChar, compareOfLessAndEq_eq_eq_iff, Char.toNat_inj]

variable {a b c : Scalar}

/-- Within a type, no difference is equality. -/
theorem compare?_eq_some_eq_iff (ht : a.type = b.type) (hf : a.type.isFloating = false) :
    a.compare? b = some .eq ↔ a.equals b := by
  have hsome : ∀ o : Ordering, some o = some .eq ↔ o = .eq := fun _ => Option.some_inj
  cases a with
  | float | double => exact Bool.noConfusion hf
  | bool | char | string | date | dateTime =>
    cases b <;> cases ht
    refine (hsome _).trans (Iff.trans ?_ decide_eq_true_iff.symm)
    first
      | exact compareBool_eq_eq_iff
      | exact compareChar_eq_eq_iff
      | exact Date.compare_eq_eq_iff
      | exact DateTime.compare_eq_eq_iff
      | exact compareOfLessAndEq_eq_eq_iff
  | decimal =>
    cases b <;> cases ht
    exact (hsome _).trans decide_eq_true_iff.symm
  | integer w n =>
    cases b <;> cases ht
    refine (hsome _).trans (compareOfLessAndEq_eq_eq_iff.trans ?_)
    simp [equals]

/-- Along a chain of values the first step that is not equal decides. -/
theorem compare?_chain {o p : Ordering} (hab : a.type = b.type) (hbc : b.type = c.type)
    (hf : a.type.isFloating = false) (ho : a.compare? b = some o) (hp : b.compare? c = some p)
    (hole : o.isLE) (hple : p.isLE) : a.compare? c = some (o.then p) := by
  cases a with
  | float | double => exact Bool.noConfusion hf
  | bool | integer | decimal | char | string | date | dateTime =>
    cases b <;> cases hab
    cases c <;> cases hbc
    cases ho
    cases hp
    exact congrArg some (compare_eq_then _ hole hple)

end Scalar

namespace Value

/-! ## Keys of one type -/

theorem isNull_iff {v : Value} : v.isNull ↔ v = .null := by
  cases v with
  | null => exact ⟨fun _ => rfl, fun _ => rfl⟩
  | scalar | list | record | object => exact ⟨nofun, nofun⟩

instance (v : Value) (type : ScalarType) : Decidable (v.HasType type) :=
  decidable_of_iff (v.isNull ∨ v.scalarType? = some type) (or_congr_left isNull_iff)

instance (vs : List Value) (types : List ScalarType) :
    Decidable (List.Forall₂ HasType vs types) :=
  decidable_of_iff (vs.length = types.length ∧ ∀ p ∈ vs.zip types, p.1.HasType p.2)
    (Iff.symm (List.forall₂_iff_zip.trans
      (and_congr_right fun _ => ⟨fun h _ hp => h hp, fun h _ _ hp => h _ hp⟩)))

/-- Keys are compared alike from both sides. -/
theorem compareKey_swap (a b : Value) : compareKey b a = (compareKey a b).swap := by
  rw [compareKey, compareKey, compare?_swap a b]
  cases a.isNull with
  | true => cases b.isNull <;> rfl
  | false =>
    cases b.isNull with
    | true => rfl
    | false => cases a.compare? b <;> rfl

section

variable {a b c : Value} {type : ScalarType}

/-- Of values of one type, what a sort goes by is their order. -/
theorem compare?_eq_some_compareKey (ha : a.scalarType? = some type)
    (hb : b.scalarType? = some type) (hf : type.isFloating = false) :
    a.compare? b = some (compareKey a b) := by
  obtain ⟨s, rfl, hs⟩ := exists_scalar_of_scalarType? ha
  obtain ⟨r, rfl, hr⟩ := exists_scalar_of_scalarType? hb
  obtain ⟨o, ho⟩ := Option.isSome_iff_exists.1
    (Scalar.compare?_isSome (hs.trans hr.symm) (hs ▸ hf))
  change s.compare? r = some ((s.compare? r).getD .eq)
  rw [ho, Option.getD_some]

theorem compareKey_eq_eq_iff (ha : a.HasType type) (hb : b.HasType type)
    (hf : type.isFloating = false) : compareKey a b = .eq ↔ a.equals b := by
  rcases ha with rfl | ha
  · rcases hb with rfl | hb
    · exact ⟨fun _ => rfl, fun _ => rfl⟩
    · obtain ⟨r, rfl, -⟩ := exists_scalar_of_scalarType? hb
      simp [compareKey, isNull, equals]
  · obtain ⟨s, rfl, hs⟩ := exists_scalar_of_scalarType? ha
    rcases hb with rfl | hb
    · simp [compareKey, isNull, equals]
    · have hsome := compare?_eq_some_compareKey ha hb hf
      obtain ⟨r, rfl, hr⟩ := exists_scalar_of_scalarType? hb
      have heq := Scalar.compare?_eq_some_eq_iff (hs.trans hr.symm) (hs ▸ hf)
      change (s.compare? r) = _ at hsome
      rw [hsome, Option.some_inj] at heq
      exact heq

/-- Nulls come first, so that only the first steps upwards may start at one. -/
theorem compareKey_eq_then (ha : a.HasType type) (hb : b.HasType type) (hc : c.HasType type)
    (hf : type.isFloating = false) (hab : (compareKey a b).isLE) (hbc : (compareKey b c).isLE) :
    compareKey a c = (compareKey a b).then (compareKey b c) := by
  rcases hb with rfl | hb
  · rcases ha with rfl | ha
    · rfl
    · obtain ⟨s, rfl, -⟩ := exists_scalar_of_scalarType? ha
      exact absurd hab nofun
  · rcases hc with rfl | hc
    · obtain ⟨r, rfl, -⟩ := exists_scalar_of_scalarType? hb
      exact absurd hbc nofun
    · have hbc' := compare?_eq_some_compareKey hb hc hf
      obtain ⟨r, rfl, hr⟩ := exists_scalar_of_scalarType? hb
      rcases ha with rfl | ha
      · obtain ⟨u, rfl, -⟩ := exists_scalar_of_scalarType? hc
        rfl
      · have hab' := compare?_eq_some_compareKey ha hb hf
        have hac' := compare?_eq_some_compareKey ha hc hf
        obtain ⟨s, rfl, hs⟩ := exists_scalar_of_scalarType? ha
        obtain ⟨u, rfl, hu⟩ := exists_scalar_of_scalarType? hc
        have hchain := Scalar.compare?_chain (hs.trans hr.symm) (hr.trans hu.symm) (hs ▸ hf)
          hab' hbc' hab hbc
        exact Option.some_inj.1 (hac'.symm.trans hchain)

end

/-! ## Lists of keys -/

/-- The order of keys in a direction. -/
def compareAlong : SortOrder → Value → Value → Ordering
  | .asc, a, b => compareKey a b
  | .desc, a, b => (compareKey a b).swap

theorem compareAlong_swap (sort : SortOrder) (a b : Value) :
    compareAlong sort b a = (compareAlong sort a b).swap := by
  cases sort <;> rw [compareAlong, compareAlong, compareKey_swap a b]

theorem compareAlong_self (sort : SortOrder) (a : Value) : compareAlong sort a a = .eq := by
  have hswap := compareAlong_swap sort a a
  cases h : compareAlong sort a a with
  | eq => rfl
  | lt | gt =>
    rw [h] at hswap
    exact absurd hswap nofun

/-- The first values decide unless they are equal. -/
theorem compareKeys_cons (sort : SortOrder) (sorts : List SortOrder) (a b : Value)
    (as bs : List Value) : compareKeys (sort :: sorts) (a :: as) (b :: bs) =
      (compareAlong sort a b).then (compareKeys sorts as bs) := by
  cases sort <;> rfl

theorem compareKeys_swap (sorts : List SortOrder) (as bs : List Value) :
    compareKeys sorts bs as = (compareKeys sorts as bs).swap := by
  induction sorts generalizing as bs with
  | nil => rfl
  | cons sort sorts ih =>
    cases as with
    | nil => cases bs <;> rfl
    | cons a as =>
      cases bs with
      | nil => rfl
      | cons b bs =>
        rw [compareKeys_cons, compareKeys_cons, Ordering.swap_then, compareAlong_swap sort a b, ih]

section

variable {type : ScalarType}

theorem compareAlong_eq_eq_iff {a b : Value} (ha : a.HasType type) (hb : b.HasType type)
    (hf : type.isFloating = false) (sort : SortOrder) :
    compareAlong sort a b = .eq ↔ a.equals b := by
  cases sort with
  | asc => exact compareKey_eq_eq_iff ha hb hf
  | desc => rw [compareAlong, Ordering.swap_eq_eq, compareKey_eq_eq_iff ha hb hf]

/-- Along either direction, comparisons chain. -/
theorem compareAlong_eq_then {a b c : Value} (ha : a.HasType type) (hb : b.HasType type)
    (hc : c.HasType type) (hf : type.isFloating = false) {sort : SortOrder}
    (hab : (compareAlong sort a b).isLE) (hbc : (compareAlong sort b c).isLE) :
    compareAlong sort a c = (compareAlong sort a b).then (compareAlong sort b c) := by
  cases sort with
  | asc => exact compareKey_eq_then ha hb hc hf hab hbc
  | desc =>
    simp only [compareAlong, ← compareKey_swap] at hab hbc ⊢
    rw [compareKey_eq_then hc hb ha hf hbc hab]
    revert hab hbc
    cases compareKey c b <;> cases compareKey b a <;> decide

theorem isLE_compareAlong_trans {a b c : Value} (ha : a.HasType type) (hb : b.HasType type)
    (hc : c.HasType type) (hf : type.isFloating = false) {sort : SortOrder}
    (hab : (compareAlong sort a b).isLE) (hbc : (compareAlong sort b c).isLE) :
    (compareAlong sort a c).isLE := by
  rw [compareAlong_eq_then ha hb hc hf hab hbc]
  exact Ordering.isLE_then_iff_and.2 ⟨hab, .inr hbc⟩

end

variable {as bs cs : List Value} {types : List ScalarType} {sorts : List SortOrder}

/-- Lists of typed keys without a difference are equal, if there is a direction for every key. -/
theorem compareKeys_eq_eq_iff (hf : ∀ type ∈ types, type.isFloating = false)
    (has : List.Forall₂ HasType as types) (hbs : List.Forall₂ HasType bs types)
    (hlength : sorts.length = types.length) :
    compareKeys sorts as bs = .eq ↔ equalLists as bs := by
  induction has generalizing sorts bs with
  | nil =>
    cases hbs
    obtain rfl := List.length_eq_zero_iff.1 hlength
    exact ⟨fun _ => rfl, fun _ => rfl⟩
  | cons ha _ ih =>
    obtain ⟨hft, hf⟩ := List.forall_mem_cons.1 hf
    obtain ⟨sort, sorts, rfl⟩ := List.exists_cons_of_length_eq_add_one hlength
    cases hbs with
    | cons hb hbs =>
      rw [compareKeys_cons, Ordering.then_eq_eq, compareAlong_eq_eq_iff ha hb hft,
        ih hf hbs (Nat.succ.inj hlength), equalLists, Bool.and_eq_true]

/-- Comparisons of whole keys chain. -/
theorem compareKeys_eq_then (hf : ∀ type ∈ types, type.isFloating = false)
    (has : List.Forall₂ HasType as types) (hbs : List.Forall₂ HasType bs types)
    (hcs : List.Forall₂ HasType cs types) (hab : (compareKeys sorts as bs).isLE)
    (hbc : (compareKeys sorts bs cs).isLE) :
    compareKeys sorts as cs = (compareKeys sorts as bs).then (compareKeys sorts bs cs) := by
  induction has generalizing sorts bs cs with
  | nil => cases sorts <;> cases hbs <;> rfl
  | @cons a type as types ha _ ih =>
    obtain ⟨hft, hf⟩ := List.forall_mem_cons.1 hf
    cases sorts with
    | nil => rfl
    | cons sort sorts =>
      cases hbs with
      | @cons b _ bs _ hb hbs =>
        cases hcs with
        | @cons c _ cs _ hc hcs =>
          simp only [compareKeys_cons] at hab hbc ⊢
          rw [compareAlong_eq_then ha hb hc hft (Ordering.isLE_then_iff_and.1 hab).1
            (Ordering.isLE_then_iff_and.1 hbc).1]
          exact then_then_eq hab hbc (ih hf hbs hcs)

/-- Keys of the same types are ordered transitively. -/
theorem isLE_compareKeys_trans (hf : ∀ type ∈ types, type.isFloating = false)
    (has : List.Forall₂ HasType as types) (hbs : List.Forall₂ HasType bs types)
    (hcs : List.Forall₂ HasType cs types) (hab : (compareKeys sorts as bs).isLE)
    (hbc : (compareKeys sorts bs cs).isLE) : (compareKeys sorts as cs).isLE := by
  rw [compareKeys_eq_then hf has hbs hcs hab hbc]
  exact Ordering.isLE_then_iff_and.2 ⟨hab, .inr hbc⟩

end Value

end EntityQuery
