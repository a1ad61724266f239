import EntityQuery.Proofs.Evaluation.Membership

/-! # Complements and converses

An operator has its opposite in two ways.  The complement denies what the operator says: the two
conditions are refused together, and where they are not, one has the negated truth of the other in
strong Kleene logic (`complementary_operators_negate`).  There are five ways in which a complement
is made, be it another comparator, another test for null, a negated pattern, a negated membership or
another comparison of a position with zero.

The converse says the same with the sides exchanged.  What comes first from one side comes last from
the other, and what has no order from one side has none from the other (`comparison_antisymmetric`).
-/

namespace EntityQuery

/-! ## Pairs of operators -/

namespace Operator

/-- The operator that denies what this one says. -/
def complement : Operator → Operator
  | .equal => .diff
  | .diff => .equal
  | .less => .greaterOrEqual
  | .greaterOrEqual => .less
  | .greater => .lessOrEqual
  | .lessOrEqual => .greater
  | .isIn => .notIn
  | .notIn => .isIn
  | .like => .notLike
  | .notLike => .like
  | .isNull => .isNotNull
  | .isNotNull => .isNull
  | .findInSet => .notFindInSet
  | .notFindInSet => .findInSet

end Operator

namespace Comparator

/-- The comparison that holds of all other orderings. -/
def complement : Comparator → Comparator
  | .equal => .notEqual
  | .notEqual => .equal
  | .less => .greaterOrEqual
  | .greaterOrEqual => .less
  | .greater => .lessOrEqual
  | .lessOrEqual => .greater

theorem admits_complement (c : Comparator) (o : Ordering) :
    c.complement.admits o = !c.admits o := by
  cases c <;> cases o <;> rfl

end Comparator

namespace Truth

@[simp] theorem not_not (a : Truth) : a.not.not = a := by
  cases a <;> rfl

theorem ofBool_not (b : Bool) : ofBool (!b) = (ofBool b).not := by
  cases b <;> rfl

theorem signed_not (positive : Bool) (a : Truth) :
    a.signed (!positive) = (a.signed positive).not := by
  cases positive with
  | true => rfl
  | false => exact (not_not a).symm

/-- Negating twice changes nothing, also where there is nothing to negate. -/
theorem map_not_not (r : Result Truth) : (r.map Truth.not).map Truth.not = r := by
  cases r with
  | error e => rfl
  | ok a => exact congrArg Except.ok (not_not a)

end Truth

namespace Value

/-- Of values without an order, only equality is known or its denial. -/
theorem unorderedTruth_complement (a : Value) (c : Comparator) (b : Value) :
    a.unorderedTruth c.complement b = (a.unorderedTruth c b).not := by
  cases c with
  | equal => exact Truth.ofBool_not _
  | notEqual => exact (Truth.not_not _).symm.trans (congrArg Truth.not (Truth.ofBool_not _).symm)
  | less | lessOrEqual | greater | greaterOrEqual => rfl

/-- The complement of a comparison has the opposite truth, null or not. -/
theorem compareTruth_complement (a : Value) (c : Comparator) (b : Value) :
    a.compareTruth c.complement b = (a.compareTruth c b).not := by
  rw [compareTruth, compareTruth]
  split
  · rfl
  · cases a.compare? b with
    | none => exact unorderedTruth_complement a c b
    | some o =>
      dsimp only
      rw [Comparator.admits_complement, Truth.ofBool_not]

/-- A number that has no order is neither less than another one nor at least it. -/
example : (Value.scalar (.double .nan)).compareTruth .less (long 1) = .unknown ∧
    (Value.scalar (.double .nan)).compareTruth .greaterOrEqual (long 1) = .unknown := by
  decide

/-- What is at least zero equals zero exactly if it is not greater; beyond the longs is null. -/
theorem compareTruth_long_zero (n : Nat) :
    (Value.long n).compareTruth .equal (.scalar (.integer .int (.zero .int))) =
      ((Value.long n).compareTruth .greater (.scalar (.integer .int (.zero .int)))).not := by
  rw [long]
  cases hn : BoundedInt.ofInt? .long n with
  | none => rfl
  | some b =>
    have hval := BoundedInt.ofInt?_eq_some_iff.1 hn
    change Truth.ofBool (Comparator.equal.admits (Binary.compareInt b.val 0)) =
      (Truth.ofBool (Comparator.greater.admits (Binary.compareInt b.val 0))).not
    rw [hval, Binary.compareInt, compareOfLessAndEq, if_neg (Int.not_lt.2 (Int.natCast_nonneg n))]
    split <;> rfl

/-- A negated pattern has the opposite truth, or is refused as well. -/
theorem likeTruth_complement (v pattern : Value) (negated : Bool) :
    v.likeTruth pattern (!negated) = (v.likeTruth pattern negated).map Truth.not := by
  rw [likeTruth, likeTruth]
  split
  · rfl
  · split
    · rfl
    · rw [Bool.bne_not, Truth.ofBool_not]
      rfl

end Value

/-! ## Predicates that negate each other -/

namespace Predicate

variable {ρ : Type} {p q : Predicate ρ}

/-- Whatever the queries inside them mean, the second predicate has on every tuple the negated truth
of the first, and fails where the first one does. -/
def Negates (p q : Predicate ρ) : Prop :=
  ∀ (meaning : ρ → Meaning) (frames : Frames) (t : Tuple),
    (q.map meaning).test frames t = ((p.map meaning).test frames t).map Truth.not

theorem Negates.symm (h : p.Negates q) : q.Negates p := by
  intro meaning frames t
  rw [h meaning frames t, Truth.map_not_not]

/-- Complementary comparisons negate each other. -/
theorem negates_compare (left : Expression) (c : Comparator) (right : Expression) :
    (compare left c right : Predicate ρ).Negates (compare left c.complement right) := by
  intro meaning frames t
  simp only [map, test, Value.compareTruth_complement]
  cases left.evaluate frames t with
  | error e => rfl
  | ok a => cases right.evaluate frames t <;> rfl

/-- A pattern negates its negation. -/
theorem negates_like (subject pattern : Expression) (negated : Bool) :
    (like subject pattern negated : Predicate ρ).Negates (like subject pattern !negated) := by
  intro meaning frames t
  simp only [map, test, Value.likeTruth_complement]
  cases subject.evaluate frames t with
  | error e => rfl
  | ok v => cases pattern.evaluate frames t <;> rfl

/-- The tests for null negate each other. -/
theorem negates_isNull (e : Expression) : (isNull e : Predicate ρ).Negates (isNotNull e) := by
  intro meaning frames t
  simp only [map, test, Truth.ofBool_not]
  cases e.evaluate frames t <;> rfl

theorem negates_signed (positive : Bool) (p : Predicate ρ) :
    (signed positive p).Negates (signed (!positive) p) := by
  intro meaning frames t
  rw [test_signed, test_signed]
  cases (p.map meaning).test frames t with
  | error e => rfl
  | ok a => exact congrArg Except.ok (Truth.signed_not positive a)

/-- A position in a set is null or at least zero, so it is zero exactly if it is not greater. -/
theorem negates_findInSet (path : Path) (v : Value) :
    (findInSet path .greater v : Predicate ρ).Negates (findInSet path .equal v) := by
  intro meaning frames t
  change (Expression.callFunction "find_in_set" [.string v.text, path.value frames t] >>= _) =
    (Expression.callFunction "find_in_set" [.string v.text, path.value frames t] >>= _).map _
  rw [Expression.callFunction]
  split
  · rfl
  · exact congrArg Except.ok (Value.compareTruth_long_zero _)

/-! ## Translations that are refused together -/

/-- Two translations of which either both are refused, or both succeed with predicates that negate
each other. -/
inductive Opposed : Result (Predicate ρ) → Result (Predicate ρ) → Prop where
  | refused (e e' : Error) : Opposed (.error e) (.error e')
  | negated {p q : Predicate ρ} (h : p.Negates q) : Opposed (.ok p) (.ok q)

/-- What comes first is the same on both sides, so it is refused on both or on neither. -/
theorem Opposed.bind {α : Type} (x : Result α) {f g : α → Result (Predicate ρ)}
    (h : ∀ a, Opposed (f a) (g a)) : Opposed (x >>= f) (x >>= g) := by
  cases x with
  | error e => exact .refused e e
  | ok a => exact h a

theorem Opposed.symm {x y : Result (Predicate ρ)} (h : Opposed x y) : Opposed y x := by
  cases h with
  | refused e e' => exact .refused e' e
  | negated h => exact .negated h.symm

/-- The operand of an ordering is cast alike, whichever way the order is asked for. -/
theorem opposed_ordered (path : Path) (c : Comparator) (v : Value) :
    Opposed (ordered path c v : Result (Predicate ρ)) (ordered path c.complement v) := by
  rw [ordered, ordered]
  cases orderingOperand path v with
  | error e => exact .refused e e
  | ok v => exact .negated (negates_compare _ c _)

/-- Complementary operators are opposed on every value. -/
theorem opposed_compareValue (path : Path) (operator : Operator) (v : Value) :
    Opposed (compareValue path operator v : Result (Predicate ρ))
      (compareValue path operator.complement v) := by
  cases operator with
  | isNull => exact .negated (negates_isNull _)
  | isNotNull => exact .negated (negates_isNull _).symm
  | equal =>
    cases v with
    | null => exact .negated (negates_isNull _)
    | scalar | list | record | object => exact .negated (negates_compare _ .equal _)
  | diff =>
    cases v with
    | null => exact .negated (negates_isNull _).symm
    | scalar | list | record | object => exact .negated (negates_compare _ .notEqual _)
  | less => exact opposed_ordered path .less v
  | lessOrEqual => exact opposed_ordered path .lessOrEqual v
  | greater => exact opposed_ordered path .greater v
  | greaterOrEqual => exact opposed_ordered path .greaterOrEqual v
  | like => exact .negated (negates_like _ _ false)
  | notLike => exact .negated (negates_like _ _ true)
  | isIn =>
    cases v with
    | list values => exact .negated (negates_signed true _)
    | null | scalar | record | object => exact .refused _ _
  | notIn =>
    cases v with
    | list values => exact .negated (negates_signed false _)
    | null | scalar | record | object => exact .refused _ _
  | findInSet => exact .negated (negates_findInSet path v)
  | notFindInSet => exact .negated (negates_findInSet path v).symm

/-- Two fields are compared by an operator exactly if they are by its complement. -/
theorem between?_complement (operator : Operator) :
    (between? operator = (none : Option (_ → _ → Predicate ρ)) ∧
      between? operator.complement = (none : Option (_ → _ → Predicate ρ))) ∨
    ∃ build build' : Expression → Expression → Predicate ρ, between? operator = some build ∧
      between? operator.complement = some build' ∧ ∀ e e', (build e e').Negates (build' e e') := by
  cases operator with
  | equal => exact .inr ⟨_, _, rfl, rfl, fun e => negates_compare e .equal⟩
  | diff => exact .inr ⟨_, _, rfl, rfl, fun e => negates_compare e .notEqual⟩
  | less => exact .inr ⟨_, _, rfl, rfl, fun e => negates_compare e .less⟩
  | lessOrEqual => exact .inr ⟨_, _, rfl, rfl, fun e => negates_compare e .lessOrEqual⟩
  | greater => exact .inr ⟨_, _, rfl, rfl, fun e => negates_compare e .greater⟩
  | greaterOrEqual => exact .inr ⟨_, _, rfl, rfl, fun e => negates_compare e .greaterOrEqual⟩
  | like => exact .inr ⟨_, _, rfl, rfl, fun e e' => negates_like e e' false⟩
  | notLike => exact .inr ⟨_, _, rfl, rfl, fun e e' => negates_like e e' true⟩
  | isIn | notIn | isNull | isNotNull | findInSet | notFindInSet => exact .inl ⟨rfl, rfl⟩

end Predicate

variable {E : Type}

namespace GraphClause

open Predicate

/-- The sub query is built and run alike, whether its values are wanted or not. -/
theorem opposed_isIn (scope : Scope E) (path : Path) (sub : SubQuery E) :
    Opposed (inSubQuery scope path .isIn sub) (inSubQuery scope path .notIn sub) := by
  have hisIn : ¬¬(Operator.isIn = .isIn ∨ Operator.isIn = .notIn) := by decide
  have hnotIn : ¬¬(Operator.notIn = .isIn ∨ Operator.notIn = .notIn) := by decide
  rw [inSubQuery, inSubQuery, if_neg hisIn, if_neg hnotIn]
  split
  · exact .refused _ _
  · split
    · exact .refused _ _
    · exact .bind _ fun query => .negated (negates_signed true _)

/-- Complementary operators are opposed on every sub query. -/
theorem opposed_inSubQuery (scope : Scope E) (path : Path) (operator : Operator)
    (sub : SubQuery E) :
    Opposed (inSubQuery scope path operator sub)
      (inSubQuery scope path operator.complement sub) := by
  cases operator with
  | isIn => exact opposed_isIn scope path sub
  | notIn => exact (opposed_isIn scope path sub).symm
  | equal | diff | less | lessOrEqual | greater | greaterOrEqual | like | notLike | isNull
  | isNotNull | findInSet | notFindInSet => exact .refused _ _

variable [Schema E]

/-- Complementary operators are opposed on every two fields. -/
theorem opposed_betweenFields (scope : Scope E) (field : String) (operator : Operator)
    (second : String) :
    Opposed (betweenFields scope field operator second)
      (betweenFields scope field operator.complement second) := by
  rw [betweenFields, betweenFields]
  rcases between?_complement (ρ := GraphQuery E) operator with
    ⟨hnone, hnone'⟩ | ⟨build, build', hbuild, hbuild', hnegates⟩
  · rw [hnone, hnone']
    exact .refused _ _
  · rw [hbuild, hbuild']
    exact .bind _ fun left => .bind _ fun right => .negated (hnegates _ _)

end GraphClause

variable [Schema E]

/-- Join conditions are translated like conditions on values, but do not look into sets, and take a
single value for the list of it. -/
theorem JoinCondition.opposed_predicate (rows : Entry E) (field : String) (operator : Operator)
    (v : Value) (attach : Connective) :
    Predicate.Opposed (predicate ⟨field, operator, v, attach⟩ rows)
      (predicate ⟨field, operator.complement, v, attach⟩ rows) := by
  refine .bind _ fun path => ?_
  cases operator with
  | findInSet | notFindInSet => exact .refused _ _
  | isIn => exact .negated (Predicate.negates_signed true _)
  | notIn => exact .negated (Predicate.negates_signed false _)
  | equal | diff | less | lessOrEqual | greater | greaterOrEqual | like | notLike | isNull
  | isNotNull => exact Predicate.opposed_compareValue path _ v

open GraphClause in
/-- A condition and the one with the complementary operator, be it on a value, on a list, on a sub
query or on a second field, at any depth of nesting, or inline in a join, are refused together or
have negated truths on every tuple. -/
theorem complementary_operators_negate (operator : Operator) :
    (∀ (scope : Scope E) field v, Predicate.Opposed
      (leafPredicate scope (.value field operator v))
      (leafPredicate scope (.value field operator.complement v))) ∧
    (∀ (scope : Scope E) field sub, Predicate.Opposed
      (leafPredicate scope (.subQuery field operator sub))
      (leafPredicate scope (.subQuery field operator.complement sub))) ∧
    (∀ (scope : Scope E) field second, Predicate.Opposed
      (leafPredicate scope (.fields field operator second))
      (leafPredicate scope (.fields field operator.complement second))) ∧
    ∀ (rows : Entry E) field v attach, Predicate.Opposed
      (JoinCondition.predicate ⟨field, operator, v, attach⟩ rows)
      (JoinCondition.predicate ⟨field, operator.complement, v, attach⟩ rows) := by
  refine ⟨fun scope field v => ?_, fun scope field sub => ?_, fun scope field second => ?_,
    fun rows field v attach => JoinCondition.opposed_predicate rows field operator v attach⟩
  · exact .bind _ fun path => Predicate.opposed_compareValue path operator v
  · exact .bind _ fun path => opposed_inSubQuery scope path operator sub
  · exact opposed_betweenFields scope field operator second

/-! ## Sides exchanged -/

/-- A comparison has a truth where both sides have values. -/
theorem Predicate.test_compare_eq_ok {left right : Expression} {c : Comparator} {frames : Frames}
    {t : Tuple} {truth : Truth} : test frames t (.compare left c right) = .ok truth ↔
      ∃ a b, left.evaluate frames t = .ok a ∧ right.evaluate frames t = .ok b ∧
        a.compareTruth c b = truth := by
  rw [test, Result.bind_eq_ok]
  refine exists_congr fun a => ?_
  rw [Result.bind_eq_ok, ← exists_and_left]
  exact exists_congr fun b => and_congr_right fun _ => and_congr_right fun _ => Result.pure_eq_ok

/-- The order of two values is the reverse of their order from the other side, and there is none
from one side if there is none from the other.  So a comparison and its converse have the same
truth, be it of two values or of two expressions on a tuple. -/
theorem comparison_antisymmetric :
    (∀ a b : Value, b.compare? a = (a.compare? b).map Ordering.swap) ∧
    (∀ (a b : Value) (c : Comparator), b.compareTruth c.converse a = a.compareTruth c b) ∧
    ∀ (left right : Expression) (c : Comparator) (frames : Frames) (t : Tuple) (truth : Truth),
      Predicate.test frames t (.compare right c.converse left) = .ok truth ↔
        Predicate.test frames t (.compare left c right) = .ok truth := by
  refine ⟨Value.compare?_swap, fun a b c => Value.compareTruth_converse a c b,
    fun left right c frames t truth => ?_⟩
  simp only [Predicate.test_compare_eq_ok]
  constructor
  · rintro ⟨b, a, hb, ha, rfl⟩
    exact ⟨a, b, ha, hb, (Value.compareTruth_converse a c b).symm⟩
  · rintro ⟨a, b, ha, hb, rfl⟩
    exact ⟨b, a, hb, ha, Value.compareTruth_converse a c b⟩

end EntityQuery
