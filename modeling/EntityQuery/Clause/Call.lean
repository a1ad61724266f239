import EntityQuery.Clause.Condition

/-! # Calls that add conditions

Conditions are added by calls.  A call either says how its condition is attached or leaves that to
the builder it is made on: a query attaches with AND, a group with its own connective.  Comparisons
with null, empty lists and groups in which nothing is left add nothing. -/

namespace EntityQuery

variable {σ κ : Type}

/-- A call that adds a condition to a draft.  Without a connective it is attached by `and`. -/
inductive Call (σ κ : Type) where
  | compare (attach? : Option Connective) (field : String) (operator : Operator) (value : Value)
  | membership (attach? : Option Connective) (field : String) (operator : Operator)
      (values : List Value)
  /-- Conditions that are never left out. -/
  | leaf (attach? : Option Connective) (leaf : Leaf σ κ)
  | clause (clause : Clause σ κ)
  | group (attach? : Option Connective) (members : List (Clause σ κ))
  /-- A group of what the calls add to a builder that attaches with `inner`. -/
  | gather (attach? : Option Connective) (inner : Connective) (calls : List (Call σ κ))

namespace Call

mutual

/-- What a call adds to a builder that attaches with `own`. -/
def clauses (own : Connective) : Call σ κ → List (Clause σ κ)
  | .compare attach? field operator value =>
    if value.isNull then [] else [.leaf (attach?.getD own) (.value field operator value)]
  | .membership attach? field operator values =>
    if values.isEmpty then []
    else [.leaf (attach?.getD own) (.value field operator (.list values))]
  | .leaf attach? l => [.leaf (attach?.getD own) l]
  | .clause c => [c]
  | .group attach? members => [.group (attach?.getD own) members]
  | .gather attach? inner calls =>
    match collect inner calls with
    | [] => []
    | c :: cs => [.group (attach?.getD own) (c :: cs)]

/-- What calls add one after the other. -/
def collect (own : Connective) : List (Call σ κ) → List (Clause σ κ)
  | [] => []
  | call :: calls => clauses own call ++ collect own calls

end

end Call

end EntityQuery
