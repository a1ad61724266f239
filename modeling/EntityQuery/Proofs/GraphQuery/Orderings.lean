import EntityQuery.Proofs.Condition.Grouping
import EntityQuery.Proofs.GraphQuery.Parts

/-! # Orderings in a query graph

The places where a graph orders a path against a literal, as they come in it: those in the
conditions of the joins first, and then those of the condition, with those of a sub query in its
place. -/

namespace EntityQuery

variable {E ρ σ : Type}

/-- A path that the query at a depth orders against a literal. -/
structure GraphOrdering where
  depth : Nat
  path : Path
  comparator : Comparator
  literal : Value

/-- The path is one of the query that orders it, and not of a query around that. -/
def GraphOrdering.IsOwn (o : GraphOrdering) : Prop := o.path.origin.depth = o.depth

/-! ## Predicates -/

namespace Predicate

/-- The orderings in a predicate from left to right, given those in each query inside it. -/
def orderings (inside : ρ → List GraphOrdering) (depth : Nat) : Predicate ρ → List GraphOrdering
  | .compare (.path p) comparator (.literal v) =>
    if comparator.isOrdering then [⟨depth, p, comparator, v⟩] else []
  | .inSubQuery _ query | .exist query => inside query
  | .not p => orderings inside depth p
  | .and p q | .or p q => orderings inside depth p ++ orderings inside depth q
  | _ => []

variable (inside : ρ → List GraphOrdering) (depth : Nat)

/-- Orderings do not depend on what stands for the queries inside. -/
theorem orderings_map (inside : σ → List GraphOrdering) (f : ρ → σ) (p : Predicate ρ) :
    (p.map f).orderings inside depth = p.orderings (inside ∘ f) depth := by
  induction p with
  | compare left comparator right =>
    cases left with
    | path p => cases right <;> rfl
    | literal | call | aggregate => rfl
  | not p ih => exact ih
  | and p q ihp ihq | or p q ihp ihq => simp only [map, orderings, ihp, ihq]
  | like | isNull | isNotNull | isIn | inSubQuery | exist => rfl

@[simp] theorem orderings_signed (positive : Bool) (p : Predicate ρ) :
    (signed positive p).orderings inside depth = p.orderings inside depth := by
  cases positive <;> rfl

/-- Two fields are not ordered against a value. -/
theorem orderings_between? {operator : Operator} {build : Expression → Expression → Predicate ρ}
    (h : between? operator = some build) (left right : Path) :
    (build (.path left) (.path right)).orderings inside depth = [] := by
  cases operator with
  | equal | diff | less | lessOrEqual | greater | greaterOrEqual | like | notLike =>
    obtain rfl := Option.some.inj h
    rfl
  | isIn | notIn | isNull | isNotNull | findInSet | notFindInSet => cases h

/-- The orderings of a formula are those of its leaves, in their order. -/
theorem orderings_formula (f : Formula (Predicate ρ)) :
    f.predicate.orderings inside depth = f.leaves.flatMap (orderings inside depth) := by
  induction f with
  | atom p => exact (List.flatMap_singleton _ p).symm
  | and f g ihf ihg | or f g ihf ihg =>
    rw [Formula.predicate, orderings, ihf, ihg, Formula.leaves, List.flatMap_append]

/-- However conditions are attached, their orderings come one after the other. -/
theorem orderings_fold_formulas (fs : List (Connective × Formula (Predicate ρ))) :
    (fold (fs.map fun f => (f.1, f.2.predicate))).elim [] (orderings inside depth) =
      (fs.flatMap fun f => f.2.leaves).flatMap (orderings inside depth) := by
  rw [← Formula.predicate_fold, ← Formula.leaves_fold]
  cases Formula.fold fs with
  | none => rfl
  | some f => exact orderings_formula inside depth f

theorem orderings_fold (items : List (Connective × Predicate ρ)) :
    (fold items).elim [] (orderings inside depth) =
      items.flatMap fun p => p.2.orderings inside depth := by
  have h := orderings_fold_formulas inside depth (items.map fun p => (p.1, Formula.atom p.2))
  rw [List.map_map, List.flatMap_map] at h
  simp only [Formula.leaves, List.flatMap_assoc, List.flatMap_singleton] at h
  rw [← h]
  congr 1
  exact (congrArg fold (List.map_id items)).symm

end Predicate

/-! ## Graphs -/

/-- The orderings in the condition of a join. -/
def JoinNode.orderings (depth : Nat) (n : JoinNode E) : List GraphOrdering :=
  n.on?.elim [] (Predicate.orderings Empty.elim depth)

namespace GraphQuery

/-- The orderings in a graph, as they come in it. -/
def orderings : GraphQuery E → List GraphOrdering :=
  interpret fun plan condition? =>
    plan.joins.flatMap (JoinNode.orderings plan.depth) ++
      condition?.elim [] (Predicate.orderings id plan.depth)

/-- The orderings of a query: those of its joins, and behind them those of its condition. -/
theorem orderings_eq (q : GraphQuery E) :
    q.orderings = q.plan.joins.flatMap (JoinNode.orderings q.plan.depth) ++
      q.condition?.elim [] (Predicate.orderings orderings q.plan.depth) := by
  obtain ⟨plan, condition?⟩ := q
  cases condition? with
  | none => rfl
  | some p =>
    rw [orderings, interpret, interpretCondition, interpretPredicate_eq_map]
    exact congrArg (_ ++ ·) (Predicate.orderings_map plan.depth id _ p)

end GraphQuery

/-- A level's condition orders what its leaves order. -/
theorem GraphClause.orderings_foldPredicate [Schema E] {scope : Scope E}
    {cs : List (GraphClause E)} {p? : Option (Predicate (GraphQuery E))}
    (inside : GraphQuery E → List GraphOrdering) (depth : Nat)
    (h : foldPredicate scope cs = .ok p?) :
    ∃ leaves, (Clause.leavesAll cs).mapM (leafPredicate scope) = .ok leaves ∧
      p?.elim [] (Predicate.orderings inside depth) =
        leaves.flatMap (Predicate.orderings inside depth) := by
  obtain ⟨items, hi, rfl⟩ := Result.map_eq_ok.1 h
  obtain ⟨leaves, fs, hl, hf, rfl⟩ := predicates_fits hi
  refine ⟨leaves, hl, ?_⟩
  rw [Predicate.orderings_fold_formulas, hf.leaves]

end EntityQuery
