import EntityQuery.Proofs.GraphQuery.Joins
import EntityQuery.Proofs.GraphQuery.Orderings
import EntityQuery.Proofs.TextQuery.ValueConditions

/-! # Orderings alike

A text query casts what a field is ordered against to the type it knows for the field, and a query
graph to the type of the path.  Where both types are the same, the operands are, too. -/

namespace EntityQuery

/-! ## Orderings alike -/

/-- The comparison of an ordering operator. -/
def Operator.comparator? : Operator → Option Comparator
  | .less => some .less
  | .lessOrEqual => some .lessOrEqual
  | .greater => some .greater
  | .greaterOrEqual => some .greaterOrEqual
  | _ => none

namespace ValueCondition

/-- The condition orders its field as the graph does, and if the graph finds the field in the query
itself, it orders it against the same operand. -/
structure OrdersAlike (c : ValueCondition) (o : GraphOrdering) : Prop where
  comparator : c.operator.comparator? = some o.comparator
  attributes : o.path.attributes <:+ Text.split '.' c.field
  operand : o.IsOwn → c.operand = .ok o.literal

/-- The conditions that order values. -/
def orderings (cs : List ValueCondition) : List ValueCondition :=
  cs.filter fun c => c.operator.isOrdering

/-- The orderings among value conditions are those of a graph, one by one. -/
def OrderAlike (cs : List ValueCondition) (os : List GraphOrdering) : Prop :=
  List.Forall₂ OrdersAlike (orderings cs) os

variable {cs cs' : List ValueCondition} {os os' : List GraphOrdering}

theorem OrderAlike.nil : OrderAlike [] [] := List.Forall₂.nil

theorem OrderAlike.append (h : OrderAlike cs os) (h' : OrderAlike cs' os') :
    OrderAlike (cs ++ cs') (os ++ os') := by
  rw [OrderAlike, orderings, List.filter_append]
  exact List.rel_append h h'

theorem OrderAlike.flatMap {α β : Type} {f : α → List ValueCondition} {g : β → List GraphOrdering}
    {as : List α} {bs : List β} (h : List.Forall₂ (fun a b => OrderAlike (f a) (g b)) as bs) :
    OrderAlike (as.flatMap f) (bs.flatMap g) := by
  induction h with
  | nil => exact .nil
  | cons h _ ih => exact h.append ih

end ValueCondition

open ValueCondition (OrderAlike)

/-! ## Comparisons -/

section Comparisons

variable {depth : Nat} {field : String} {type? : Option ScalarType} {operator : Operator}
  {v w : Value} {path : Path}

/-- A comparison orders values if its operator does. -/
theorem Comparison.orderings_valueConditions (field : String) (type? : Option ScalarType)
    (operator : Operator) (v : Value) :
    ValueCondition.orderings (valueConditions field type? operator v) =
      if operator.isOrdering then [⟨field, operator, v, type?⟩] else [] := by
  cases operator with
  | equal | diff =>
    rw [valueConditions]
    split <;> rfl
  | _ => rfl

namespace Predicate

/-- A graph casts the operand of an ordering as a text does. -/
theorem operand_of_orderingOperand (ho : operator.isOrdering)
    (h : orderingOperand path v = .ok w) :
    ValueCondition.operand ⟨field, operator, v, path.type?⟩ = .ok w := by
  rw [ValueCondition.operand, ho]
  rw [orderingOperand] at h
  split at h
  · cases h
  · cases ht : path.type? with
    | none =>
      rw [ht] at h
      exact h
    | some type =>
      rw [ht] at h
      exact h

/-- An ordering in a graph is one in the text, with the same operand and, in the query itself, the
same type. -/
theorem orderAlike_ordered {ρ : Type} {inside : ρ → List GraphOrdering} {q : Predicate ρ}
    {comparator : Comparator} (hc : operator.comparator? = some comparator)
    (ho : comparator.isOrdering) (h : ordered path comparator v = .ok q)
    (ha : path.attributes <:+ Text.split '.' field)
    (ht : path.origin.depth = depth → path.type? = type?) :
    OrderAlike (Comparison.valueConditions field type? operator v) (q.orderings inside depth) := by
  obtain ⟨w, hw, rfl⟩ := Result.map_eq_ok.1 h
  have hoperator : operator.isOrdering := by
    cases operator <;> first | rfl | cases hc
  rw [OrderAlike, Comparison.orderings_valueConditions, if_pos hoperator, compareLiteral, orderings,
    if_pos ho]
  refine .cons ⟨hc, ha, fun hown => ?_⟩ .nil
  rw [← ht hown]
  exact operand_of_orderingOperand hoperator hw

/-- A path of the type that the text takes the field for is compared alike; one of a query around
may have any type. -/
theorem orderAlike_compareValue {ρ : Type} {inside : ρ → List GraphOrdering} {q : Predicate ρ}
    (h : compareValue path operator v = .ok q) (ha : path.attributes <:+ Text.split '.' field)
    (ht : path.origin.depth = depth → path.type? = type?) :
    OrderAlike (Comparison.valueConditions field type? operator v) (q.orderings inside depth) := by
  cases operator with
  | less | lessOrEqual | greater | greaterOrEqual => exact orderAlike_ordered rfl rfl h ha ht
  | equal | diff =>
    obtain rfl := Except.ok.inj h
    rw [OrderAlike, Comparison.orderings_valueConditions]
    cases v.isNull <;> exact .nil
  | isIn | notIn =>
    rw [compareValue] at h
    split at h
    · obtain rfl := Except.ok.inj h
      exact .nil
    · cases h
  | _ =>
    obtain rfl := Except.ok.inj h
    exact .nil

end Predicate

end Comparisons

/-! ## Conditions of joins -/

/-- The condition of a join orders alike in a text and in a graph. -/
theorem JoinCondition.orderAlike_predicate {E : Type} [Schema E] {c : JoinCondition}
    {rows : Entry E} {p : Predicate Empty} (depth : Nat) (h : c.predicate rows = .ok p) :
    OrderAlike (Comparison.valueConditions c.field
        ((Schema.resolvePath? rows.entity c.field).bind Attribute.type?) c.operator c.value)
      (p.orderings Empty.elim depth) := by
  obtain ⟨field, operator, value, attach⟩ := c
  obtain ⟨path, hpath, h⟩ := Result.bind_eq_ok.1 h
  obtain rfl := Entry.eq_of_resolve hpath
  dsimp only at h ⊢
  split at h
  · cases h
  · cases h
  · obtain rfl := Except.ok.inj h
    exact .nil
  · obtain rfl := Except.ok.inj h
    exact .nil
  · exact Predicate.orderAlike_compareValue h (List.suffix_refl _) fun _ => rfl

end EntityQuery
