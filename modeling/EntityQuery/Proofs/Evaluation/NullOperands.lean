import EntityQuery.Proofs.Evaluation.Runs
import EntityQuery.Proofs.Kennel

/-! # Comparisons with null

A condition whose operand is null is refused, or nothing is known of it on any tuple, since every
comparison with null is unknown.  Apart are the four operators that test for null, and those that
take their operand as text: they are given the text of null, four letters like any other, and so
they are known wherever the field is not null itself. -/

namespace EntityQuery

namespace Operator

/-- The operators for which null is a value like others. -/
def nullTests : List Operator := [.equal, .diff, .isNull, .isNotNull]

/-- The operand is written as a text before it is compared. -/
def takesText : Operator → Bool
  | .like | .notLike | .findInSet | .notFindInSet => true
  | _ => false

end Operator

/-! ## Null among values -/

namespace Value

/-- No pattern is known to match null. -/
theorem likeTruth_null (pattern : Value) (negated : Bool) :
    Value.null.likeTruth pattern negated = .ok .unknown := rfl

/-- Null is not known to be in any list, nor out of it. -/
theorem memberTruth_null (candidates : List Value) :
    Value.null.memberTruth candidates = .unknown := rfl

/-- Nothing equals null, and anything might. -/
theorem memberTruth_singleton_null (v : Value) : v.memberTruth [.null] = .unknown := by
  cases v with
  | null | scalar | list | record | object => simp [memberTruth, compareTruth, isNull]

end Value

/-! ## Predicates of conditions with null -/

namespace Predicate

variable {ρ : Type} {path : Path} {operator : Operator} {p : Predicate ρ}

/-- Nothing is known of the predicate on a tuple, whatever the queries inside it mean. -/
def IsUnknownOn (p : Predicate ρ) (frames : Frames) (t : Tuple) : Prop :=
  ∀ meaning : ρ → Meaning, (p.map meaning).test frames t = .ok .unknown

/-- The opposite of what is unknown is unknown. -/
theorem IsUnknownOn.signed {frames : Frames} {t : Tuple} (h : p.IsUnknownOn frames t)
    (positive : Bool) : (signed positive p).IsUnknownOn frames t := by
  intro meaning
  cases positive with
  | true => exact h meaning
  | false =>
    change ((p.map meaning).test frames t).map Truth.not = _
    rw [h meaning]
    rfl

/-- What becomes of a comparison with null. -/
structure ComparesNull (p : Predicate ρ) (path : Path) (operator : Operator) : Prop where
  unknown : operator.takesText = false → ∀ frames t, p.IsUnknownOn frames t
  /-- Where the path is null as well, not even its text is known. -/
  absent : ∀ frames t, path.value frames t = .null → p.IsUnknownOn frames t
  text : operator.takesText → compareValue path operator (.string "null") = .ok p

/-- A path is not compared with null by an operator that takes values as they are. -/
theorem takesText_of_compareValue_null (hop : operator ∉ Operator.nullTests)
    (h : compareValue path operator .null = .ok p) : operator.takesText := by
  cases operator with
  | equal | diff | isNull | isNotNull => simp [Operator.nullTests] at hop
  | less | lessOrEqual | greater | greaterOrEqual | isIn | notIn => exact absurd h nofun
  | like | notLike | findInSet | notFindInSet => rfl

/-- An operator that takes text makes no difference between null and the text of null. -/
theorem compareValue_null_eq_text (h : operator.takesText) :
    (compareValue path operator .null : Result (Predicate ρ)) =
      compareValue path operator (.string "null") := by
  cases operator with
  | like | notLike | findInSet | notFindInSet => rfl
  | equal | diff | less | lessOrEqual | greater | greaterOrEqual | isIn | notIn | isNull
  | isNotNull => exact absurd h nofun

/-- The comparison of a null path with a text is unknown. -/
theorem isUnknownOn_of_takesText {v : Value} (htext : operator.takesText)
    (h : compareValue path operator v = .ok p) {frames : Frames} {t : Tuple}
    (hnull : path.value frames t = .null) : p.IsUnknownOn frames t := by
  intro meaning
  cases operator with
  | like | notLike =>
    obtain rfl := Except.ok.inj h
    change (path.value frames t).likeTruth (.string v.text) _ = _
    rw [hnull, Value.likeTruth_null]
  | findInSet | notFindInSet =>
    obtain rfl := Except.ok.inj h
    have hcall : Expression.callFunction "find_in_set" [.string v.text, path.value frames t] =
        .ok .null := by
      rw [hnull]
      rfl
    change (do
      let a ← Expression.callFunction "find_in_set" [.string v.text, path.value frames t]
      return a.compareTruth _ _) = _
    rw [hcall]
    rfl
  | equal | diff | less | lessOrEqual | greater | greaterOrEqual | isIn | notIn | isNull
  | isNotNull => exact absurd htext nofun

/-- A comparison with null is unknown, or else one with the text of null. -/
theorem ComparesNull.of_compareValue (hop : operator ∉ Operator.nullTests)
    (h : compareValue path operator .null = .ok p) : p.ComparesNull path operator where
  unknown hother := by
    rw [takesText_of_compareValue_null hop h] at hother
    exact absurd hother nofun
  absent _ _ hnull := isUnknownOn_of_takesText (takesText_of_compareValue_null hop h) h hnull
  text htext := (compareValue_null_eq_text htext).symm.trans h

/-- A list of which only null is known might hold any value. -/
theorem ComparesNull.of_membership (hother : operator.takesText = false) (positive : Bool) :
    (membership path [.null] positive : Predicate ρ).ComparesNull path operator where
  unknown _ frames t := by
    refine IsUnknownOn.signed (fun meaning => ?_) positive
    change Except.ok ((path.value frames t).memberTruth [.null]) = _
    rw [Value.memberTruth_singleton_null]
  absent frames t hnull := by
    refine IsUnknownOn.signed (fun meaning => ?_) positive
    change Except.ok ((path.value frames t).memberTruth [.null]) = _
    rw [hnull, Value.memberTruth_null]
  text htext := absurd (hother.symm.trans htext) nofun

end Predicate

/-! ## Conditions of queries and of joins -/

variable {E : Type} [Schema E]

theorem GraphClause.comparesNull_of_leafPredicate {scope : Scope E} {field : String}
    {operator : Operator} {p : Predicate (GraphQuery E)} (hop : operator ∉ Operator.nullTests)
    (h : leafPredicate scope (.value field operator .null) = .ok p) :
    ∃ path, scope.resolve field = .ok path ∧ p.ComparesNull path operator := by
  obtain ⟨path, hpath, h⟩ := Result.bind_eq_ok.1 h
  exact ⟨path, hpath, .of_compareValue hop h⟩

theorem JoinCondition.comparesNull_of_predicate {rows : Entry E} {c : JoinCondition}
    {p : Predicate Empty} (hop : c.operator ∉ Operator.nullTests) (hnull : c.value = .null)
    (h : c.predicate rows = .ok p) :
    ∃ path, rows.resolve c.field = .ok path ∧ p.ComparesNull path c.operator := by
  obtain ⟨field, operator, value, attach⟩ := c
  obtain rfl : value = .null := hnull
  obtain ⟨path, hpath, h⟩ := Result.bind_eq_ok.1 h
  refine ⟨path, hpath, ?_⟩
  cases operator with
  | findInSet | notFindInSet => exact absurd h nofun
  | isIn | notIn =>
    -- A single value stands for the list of it, and here this value is null.
    obtain rfl := Except.ok.inj h
    exact .of_membership rfl _
  | equal | diff | less | lessOrEqual | greater | greaterOrEqual | like | notLike | isNull
  | isNotNull => exact .of_compareValue hop h

/-- Of a condition with a null operand, on a field of a query at any depth of nesting or on the rows
of a join, nothing is known on any tuple, unless it is refused or the operator tests for null or
takes text.  With text it is the condition on the text of null, unknown where the field is null. -/
theorem null_operand_unknown_or_text {operator : Operator}
    (hop : operator ∉ Operator.nullTests) :
    (∀ (scope : Scope E) field p,
      GraphClause.leafPredicate scope (.value field operator .null) = .ok p →
      ∃ path, scope.resolve field = .ok path ∧ p.ComparesNull path operator) ∧
    ∀ (rows : Entry E) field attach p,
      JoinCondition.predicate ⟨field, operator, .null, attach⟩ rows = .ok p →
      ∃ path, rows.resolve field = .ok path ∧ p.ComparesNull path operator := by
  constructor
  · intro scope field p h
    exact GraphClause.comparesNull_of_leafPredicate hop h
  · intro rows field attach p h
    exact JoinCondition.comparesNull_of_predicate hop rfl h

/-! ## Names like nothing, and names like the text of null -/

namespace Kennel

/-- Where owners are asked for. -/
abbrev ownerScope : Scope Kennel := .ofRoot .owner

/-- The dogs that a first join leads to. -/
abbrev joinedDogs : Entry Kennel := ⟨⟨0, .join 0⟩, .dog⟩

/-- Nothing is known of a dog whose name is not null, and nothing of a name that is absent, even if
it is compared with a text. -/
theorem null_operand_unknown_or_text_of_name :
    (Operator.notIn ∉ Operator.nullTests ∧ Operator.notLike ∉ Operator.nullTests) ∧
    (∃ p, JoinCondition.predicate ⟨"name", .notIn, .null, .and⟩ joinedDogs = .ok p ∧
      p.IsUnknownOn [] [none, some ⟨"Dog", [("name", .string "Rex")]⟩]) ∧
    ∃ p, GraphClause.leafPredicate ownerScope (.value "name" .notLike .null) = .ok p ∧
      p.IsUnknownOn [] [some ⟨"Owner", []⟩] := by
  have hnotIn : Operator.notIn ∉ Operator.nullTests := by decide
  have hnotLike : Operator.notLike ∉ Operator.nullTests := by decide
  refine ⟨⟨hnotIn, hnotLike⟩, ⟨_, rfl, ?_⟩, _, rfl, ?_⟩
  · obtain ⟨_, _, h⟩ := (null_operand_unknown_or_text hnotIn).2 joinedDogs "name" .and _ rfl
    exact h.unknown rfl _ _
  · obtain ⟨path, hpath, h⟩ :=
      (null_operand_unknown_or_text hnotLike).1 ownerScope "name" _ rfl
    obtain rfl := Except.ok.inj hpath
    exact h.absent _ _ rfl

/-- An owner with a name of four letters. -/
def ownerNull : Record := ⟨"Owner", [("name", .string "null")]⟩

/-- Owners whose name is like null. -/
def ownersLikeNull : Draft Kennel (ScopedCondition Kennel) where
  outline := { root := .owner }
  conditions := [.leaf .and (.value "name" .like .null)]

/-- The pattern of four letters finds the owner who has them for a name. -/
theorem not_null_operand_unknown :
    (∃ p, GraphClause.leafPredicate ownerScope (.value "name" .like .null) = .ok p ∧
      ¬p.IsUnknownOn [] [some ownerNull]) ∧
    ∃ q rows, GraphQuery.ofDraft .rows ownersLikeNull = .ok q ∧
      q.run ⟨[("Owner", [ownerNull])]⟩ = .ok rows ∧ rows.length = 1 := by
  constructor
  · refine ⟨_, rfl, fun h => ?_⟩
    exact absurd (h fun _ _ => .ok []) (by decide +kernel)
  · exact GraphQuery.exists_rows_of_length (by decide +kernel)

end Kennel

end EntityQuery
