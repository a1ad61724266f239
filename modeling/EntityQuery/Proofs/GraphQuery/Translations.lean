import EntityQuery.GraphQuery.Condition
import EntityQuery.Proofs.Success

/-! # Conditions that are translated

What a condition was translated from, if it was: the fields have their paths, the operator is one of
its kind, and a sub query has its one column and a type for it. -/

namespace EntityQuery.GraphClause

variable {E : Type} {scope : Scope E} {operator : Operator} {p : Predicate (GraphQuery E)}

/-- A sub query is compared with by membership only, and needs one column of a known type. -/
theorem inSubQuery_eq_ok {path : Path} {sub : SubQuery E} :
    inSubQuery scope path operator sub = .ok p ↔
      (operator = .isIn ∨ operator = .notIn) ∧ sub.outline.selects.length = 1 ∧
      sub.outline.resultType?.isSome ∧
      ∃ q, sub.query scope = .ok q ∧
        Predicate.signed (operator = .isIn) (.inSubQuery (.path path) q) = p := by
  rw [inSubQuery]
  by_cases hoperator : operator = .isIn ∨ operator = .notIn
  · by_cases hone : sub.outline.selects.length = 1
    · cases htype : sub.outline.resultType? with
      | none => simp [hoperator, hone]
      | some type =>
        simp only [hoperator, hone, not_true_eq_false, ne_eq, if_false, Option.isNone_some,
          Bool.false_eq_true, Option.isSome_some, true_and, Result.bind_eq_ok, Result.pure_eq_ok]
    · simp [hoperator, hone]
  · simp [hoperator]

variable [Schema E]

/-- The second field may be one of the query around. -/
theorem betweenFields_eq_ok {field second : String} :
    betweenFields scope field operator second = .ok p ↔
      ∃ build, Predicate.between? operator = some build ∧
      ∃ left, scope.resolve field = .ok left ∧
      ∃ right, scope.resolveOuter second = .ok right ∧
        build (.path left) (.path right) = p := by
  rw [betweenFields]
  cases Predicate.between? operator with
  | none => simp
  | some build =>
    simp only [Result.bind_eq_ok, Result.pure_eq_ok, Option.some.injEq, exists_eq_left']

end EntityQuery.GraphClause
