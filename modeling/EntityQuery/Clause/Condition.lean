import EntityQuery.Value

/-! # Conditions

The conditions of a query are a list of trees.  A leaf compares, tests or quotes; a group stands
for its members in parentheses; each is attached to what stands before it with AND or OR.  The type
`σ` is that of sub queries and `κ` that of the conditions only one kind of query knows. -/

namespace EntityQuery

variable {σ τ κ : Type}

/-- A condition on a field, on two fields or on a sub query, or one in the words of the backend. -/
inductive Leaf (σ κ : Type) where
  | value (field : String) (operator : Operator) (value : Value)
  | subQuery (field : String) (operator : Operator) (query : σ)
  | fields (field : String) (operator : Operator) (second : String)
  | exist (query : σ) (positive : Bool)
  | custom (condition : κ)

/-- A condition, or several of them in a group, attached to what is before it. -/
inductive Clause (σ κ : Type) where
  | leaf (attach : Connective) (leaf : Leaf σ κ)
  | group (attach : Connective) (members : List (Clause σ κ))

/-- The same condition over other sub queries. -/
def Leaf.map (f : σ → τ) : Leaf σ κ → Leaf τ κ
  | .value field operator v => .value field operator v
  | .subQuery field operator query => .subQuery field operator (f query)
  | .fields field operator second => .fields field operator second
  | .exist query positive => .exist (f query) positive
  | .custom c => .custom c

namespace Clause

/-- How a clause is attached to what is before it; the first of a list is attached to nothing. -/
def attach : Clause σ κ → Connective
  | .leaf a _ => a
  | .group a _ => a

mutual

/-- How many nodes a tree has. -/
def size : Clause σ κ → Nat
  | .leaf .. => 1
  | .group _ members => 1 + sizes members

def sizes : List (Clause σ κ) → Nat
  | [] => 0
  | c :: cs => size c + sizes cs

end

mutual

/-- A tree holds a leaf. -/
def hasLeaf : Clause σ κ → Bool
  | .leaf .. => true
  | .group _ members => anyLeaf members

/-- Some of the clauses have a leaf. -/
def anyLeaf : List (Clause σ κ) → Bool
  | [] => false
  | c :: cs => hasLeaf c || anyLeaf cs

end

end Clause

end EntityQuery
