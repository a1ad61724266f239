import EntityQuery.Proofs.GraphQuery.Lookup
import EntityQuery.Proofs.GraphQuery.Parts
import EntityQuery.Proofs.GraphQuery.Translations

/-! # Types of the columns of sub queries

The type of the values that a field is looked for in is inferred before it is known where the sub
query stands and what it joins: it is that of the selected field in the schema.  This is the type
of the column unless the field starts with a name, of a join or of the root, for rows that the
schema does not lead to by an attribute of that name (`GraphQuery.column_type_inferred`). -/

namespace EntityQuery

variable {E : Type} [Schema E]

/-- The type of an expression that is a path. -/
def Expression.pathType? : Expression → Option ScalarType
  | .path p => p.type?
  | _ => none

/-- Only a path has a type. -/
theorem Expression.pathType?_eq_some {e : Expression} {type : ScalarType} :
    e.pathType? = some type ↔ ∃ p, e = .path p ∧ p.type? = some type := by
  cases e with
  | path p => simp [pathType?]
  | literal v => simp [pathType?]
  | call name arguments => simp [pathType?]
  | aggregate f e => simp [pathType?]

namespace Draft

theorem withInferredType_eq {κ : Type} {d : Draft E κ} (h : d.outline.resultType? = none) :
    d.withInferredType = d.withResultType d.inferredType := by
  rw [withInferredType, h]

/-- The type in the schema of the only field that is selected. -/
theorem inferredType_eq {κ : Type} {d : Draft E κ} {s : Select} (h : d.outline.selects = [s]) :
    d.inferredType =
      ((Schema.resolvePath? d.outline.root s.field).bind Attribute.type?).getD
        (.integer .long) := by
  rw [inferredType, h]
  rfl

end Draft

namespace Scope

/-- A field starts at the root, or with a name for rows that the attribute of this name leads to
from the root. -/
def FollowsSchema (scope : Scope E) (field : String) : Prop :=
  ∀ name rest rows, Text.splitFirst? '.' field = some (name, rest) →
    scope.entry? name = some rows →
    (Schema.attribute? scope.root name).bind Attribute.target? = some rows.entity

/-- A dotted path goes on at the target of its first relationship. -/
theorem resolvePath?_of_target {e target : E} {field name rest : String}
    (h : Text.splitFirst? '.' field = some (name, rest))
    (ht : (Schema.attribute? e name).bind Attribute.target? = some target) :
    Schema.resolvePath? e field = Schema.resolvePath? target rest := by
  rw [Schema.resolvePath?, Text.split_of_splitFirst? h, Schema.resolvePath?]
  obtain ⟨a, ha, ht⟩ := Option.bind_eq_some_iff.1 ht
  rw [Schema.follow?, ha]
  · simp only [Option.bind_eq_bind, Option.bind_some, ht]
  · exact mt List.map_eq_nil_iff.1 (Text.pieces_ne_nil '.' rest.toList)

/-- The path of such a field has the type that it has in the schema. -/
theorem type?_of_resolve {scope : Scope E} {field : String} {p : Path}
    (hfield : scope.FollowsSchema field) (h : scope.resolve field = .ok p) :
    p.type? = (Schema.resolvePath? scope.root field).bind Attribute.type? := by
  rw [resolve, resolveFrom] at h
  split at h
  · rw [Entry.eq_of_resolve h]
    rfl
  · rename_i name rest hfirst
    cases hrows : scope.entry? name with
    | none =>
      rw [hrows] at h
      rw [Entry.eq_of_resolve h]
      rfl
    | some rows =>
      rw [hrows] at h
      rw [Entry.eq_of_resolve h, resolvePath?_of_target hfirst (hfield name rest rows hfirst hrows)]

end Scope

/-- A selection that has a type is not of whole rows. -/
theorem Select.resolve_of_typed {s : Select} {scope : Scope E} {p : Path} {type : ScalarType}
    (h : s.path scope = .ok p) (ht : p.type? = some type) : scope.resolve s.field = .ok p := by
  rw [path] at h
  split at h
  · split at h
    · cases hrows : scope.rows? _ with
      | none => rw [hrows] at h; cases h
      | some rows =>
        rw [hrows] at h
        obtain ⟨entry, -, rfl⟩ := Option.map_eq_some_iff.1 hrows
        obtain rfl := Except.ok.inj h
        cases ht
    · obtain rfl := Except.ok.inj h
      cases ht
  · exact h

/-- The column of a sub query is a path with a type only if it is the path of its field. -/
theorem Selection.resolve_of_ofColumn_typed {s : Select} {scope : Scope E} {column : Selection}
    {p : Path} {type : ScalarType} (h : Selection.ofColumn scope [s] = .ok column)
    (hp : column.expression = .path p) (ht : p.type? = some type) :
    scope.resolve s.field = .ok p := by
  obtain ⟨e, he, rfl⟩ := Result.map_eq_ok.1 h
  obtain ⟨p', hp', he⟩ := Result.map_eq_ok.1 he
  cases hfunction : s.function? with
  | none =>
    rw [hfunction] at he
    obtain rfl := Expression.path.inj (he.trans hp)
    exact Select.resolve_of_typed hp' ht
  | some f =>
    rw [hfunction] at he
    cases he.trans hp

namespace GraphQuery

open GraphClause

variable {scope : Scope E} {own : Connective} {attach? : Option Connective} {field : String}
  {operator : Operator} {d : Draft E (ScopedCondition E)}
  {c : Clause (Draft E (ScopedCondition E)) (ScopedCondition E)}
  {p? : Option (Predicate (GraphQuery E))}

/-- The type of an untyped sub query that a field is looked for in is that of the selected field in
the schema, a 64-bit integer if it has none there.  Whenever the column is a path with a type, this
is its type, unless the selected field starts with a name for rows that the schema does not lead to
by an attribute of that name. -/
theorem column_type_inferred (huntyped : d.outline.resultType? = none)
    (hc : c ∈ (Call.leaf attach? (.subQuery field operator d.withInferredType)).clauses own)
    (hp : predicate? scope (Draft.interpretClause subQuery c) = .ok p?) :
    ∃ path q s column known,
      p? = some (Predicate.signed (operator = .isIn) (.inSubQuery (.path path) q)) ∧
      d.outline.selects = [s] ∧ q.plan.selections = [column] ∧
      Join.attachAll ⟨[], scope.child d.outline.root⟩ (scope.child d.outline.root).rootEntry
        d.outline.joins = .ok ⟨q.plan.joins, known⟩ ∧
      q.plan.resultType? = some
        (((Schema.resolvePath? d.outline.root s.field).bind Attribute.type?).getD
          (.integer .long)) ∧
      ∀ p type, column.expression = .path p → p.type? = some type →
        known.FollowsSchema s.field → q.plan.resultType? = some type := by
  obtain rfl := List.mem_singleton.1 hc
  obtain ⟨p, hleaf, rfl⟩ := Result.map_eq_ok.1 hp
  obtain ⟨path, -, hin⟩ := Result.bind_eq_ok.1 hleaf
  obtain ⟨-, hone, -, q, hq, rfl⟩ := inSubQuery_eq_ok.1 hin
  rw [outline_subQuery, Draft.withInferredType_eq huntyped] at hone
  rw [query_subQuery, Draft.withInferredType_eq huntyped] at hq
  obtain ⟨s, hs⟩ := List.length_eq_one_iff.1 hone
  have hselects : d.outline.selects = [s] := hs
  obtain ⟨known, hk⟩ := ofLevel_eq_ok.1 hq
  have hroot : known.root = d.outline.root :=
    ((Join.attachAll_pushes hk.joins).over (Joining.over_start _)).root
  have htype : q.plan.resultType? = some
      (((Schema.resolvePath? d.outline.root s.field).bind Attribute.type?).getD
        (.integer .long)) := by
    rw [hk.resultType, ← Draft.inferredType_eq hselects]
    rfl
  obtain ⟨column, hcolumn, hcolumns⟩ := Result.map_eq_ok.1 hk.selections
  refine ⟨path, q, s, column, known, rfl, hselects, hcolumns.symm, hk.joins, htype, ?_⟩
  intro p type hpath hptype hfield
  rw [hs] at hcolumn
  have hresolve := Selection.resolve_of_ofColumn_typed hcolumn hpath hptype
  rw [htype, ← hroot, ← Scope.type?_of_resolve hfield hresolve, hptype]
  rfl

end GraphQuery

/-! ## Owners among the owners of dogs -/

namespace Kennel

/-- The condition that a field has a value of a sub query, or has none of them. -/
def among (field : String) (operator : Operator) (d : Draft Kennel (ScopedCondition Kennel)) :
    Clause (Draft Kennel (ScopedCondition Kennel)) (ScopedCondition Kennel) :=
  .leaf .and (.subQuery field operator d.withInferredType)

/-- The translation of such a condition on owners. -/
def ownersAmong (field : String) (operator : Operator)
    (d : Draft Kennel (ScopedCondition Kennel)) :
    Result (Option (Predicate (GraphQuery Kennel))) :=
  GraphClause.predicate? (.ofRoot owner)
    (Draft.interpretClause GraphQuery.subQuery (among field operator d))

/-- The type of each column that is a path, for each sub query of a condition, and the type that its
values are said to have. -/
def columnTypes (p : Predicate (GraphQuery Kennel)) :
    List (List (Option ScalarType) × Option ScalarType) :=
  p.queries.map fun q => (q.plan.selections.map fun s => s.expression.pathType?, q.plan.resultType?)

/-- The ages of the owners of dogs. -/
def agesOfOwners : Draft Kennel (ScopedCondition Kennel) where
  outline := { root := .dog, joins := [Join.ofTable "owner"], selects := [.ofField "owner.age"] }

/-- The joined owners are those that the attribute `owner` of a dog leads to. -/
theorem followsSchema_agesOfOwners {js : Joining Kennel}
    (hjs : Join.attachAll ⟨[], (Scope.ofRoot owner).child dog⟩
      ((Scope.ofRoot owner).child dog).rootEntry [Join.ofTable "owner"] = .ok js) :
    js.scope.FollowsSchema "owner.age" := by
  have hknown : (Join.attachAll ⟨[], (Scope.ofRoot owner).child dog⟩
      ((Scope.ofRoot owner).child dog).rootEntry [Join.ofTable "owner"]).map
        (fun js => (js.scope.root, (js.scope.entry? "owner").map Entry.entity)) =
      .ok (dog, some owner) := by
    decide +kernel
  rw [hjs] at hknown
  obtain ⟨hroot, howner⟩ := Prod.mk.inj (Except.ok.inj hknown)
  intro name rest rows hfirst hrows
  have hpoint : Text.splitFirst? '.' "owner.age" = some ("owner", "age") := by decide
  obtain ⟨rfl, rfl⟩ : "owner" = name ∧ "age" = rest :=
    Prod.mk.inj (Option.some.inj (hpoint.symm.trans hfirst))
  rw [hrows] at howner
  rw [hroot, Option.some.inj howner]
  rfl

/-- The ages of the joined owners are found to be 32-bit integers. -/
theorem column_type_inferred_of_agesOfOwners : agesOfOwners.outline.resultType? = none ∧
    ∃ path q, ownersAmong "age" .notIn agesOfOwners =
        .ok (some (.not (.inSubQuery (.path path) q))) ∧
      q.plan.resultType? = some (.integer .int) := by
  have hrun : (ownersAmong "age" .notIn agesOfOwners).map (Option.map columnTypes) =
      .ok (some [([some (.integer .int)], some (.integer .int))]) := by
    decide +kernel
  obtain ⟨p?, hp, htypes⟩ := Result.map_eq_ok.1 hrun
  have hclause : among "age" .notIn agesOfOwners ∈
      (Call.leaf none (.subQuery "age" .notIn agesOfOwners.withInferredType)).clauses .and :=
    List.mem_singleton_self _
  obtain ⟨path, q, s, column, known, rfl, hs, hcolumn, hjoins, -, htype⟩ :=
    GraphQuery.column_type_inferred rfl hclause hp
  obtain rfl : Select.ofField "owner.age" = s := List.singleton_inj.1 hs
  obtain ⟨hpathType, -⟩ : column.expression.pathType? = some (.integer .int) ∧
      q.plan.resultType? = some (.integer .int) := by
    simpa [columnTypes, Predicate.signed, Predicate.queries, hcolumn] using htypes
  obtain ⟨p, hpath, hptype⟩ := Expression.pathType?_eq_some.1 hpathType
  exact ⟨rfl, path, q, hp, htype p _ hpath hptype (followsSchema_agesOfOwners hjoins)⟩

/-- The names of the dogs of owners. -/
def namesOfDogs : Draft Kennel (ScopedCondition Kennel) where
  outline := {
    root := .owner
    joins := [{ Join.ofTable "dogs" with alias? := some "d" }]
    selects := [.ofField "d.name"] }

/-- Owners have no attribute `d`, so the names of their dogs `d` are said to be integers. -/
theorem not_column_type_inferred : namesOfDogs.outline.resultType? = none ∧
    ∃ p q path, ownersAmong "name" .isIn namesOfDogs = .ok (some p) ∧ p.queries = [q] ∧
      q.plan.selections.map Selection.expression = [.path path] ∧ path.type? = some .string ∧
      q.plan.resultType? = some (.integer .long) := by
  have hrun : (ownersAmong "name" .isIn namesOfDogs).map (Option.map columnTypes) =
      .ok (some [([some .string], some (.integer .long))]) := by
    decide +kernel
  obtain ⟨p?, hp, htypes⟩ := Result.map_eq_ok.1 hrun
  obtain ⟨p, rfl, hqueries⟩ := Option.map_eq_some_iff.1 htypes
  obtain ⟨q, hq, hcolumns⟩ := List.map_eq_singleton_iff.1 hqueries
  obtain ⟨hcolumn, htype⟩ := Prod.mk.inj hcolumns
  obtain ⟨column, hcolumn, hpathType⟩ := List.map_eq_singleton_iff.1 hcolumn
  obtain ⟨path, hpath, hptype⟩ := Expression.pathType?_eq_some.1 hpathType
  exact ⟨rfl, p, q, path, hp, hq, by rw [hcolumn, List.map_singleton, hpath], hptype, htype⟩

end Kennel

end EntityQuery
