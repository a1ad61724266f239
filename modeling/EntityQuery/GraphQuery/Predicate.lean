import EntityQuery.GraphQuery.Path
import EntityQuery.Value

/-! # Predicates

A predicate is a condition in which every field is a path.  The type `ρ` is that of the queries
inside it. -/

namespace EntityQuery

/-- What has a value for a tuple, or for a group of tuples. -/
inductive Expression where
  | path (p : Path)
  | literal (v : Value)
  /-- A function of the database, by its name. -/
  | call (name : String) (arguments : List Expression)
  | aggregate (function : Aggregate) (argument : Expression)

/-- The expression is of a group and not of a tuple. -/
def Expression.isAggregate : Expression → Bool
  | .aggregate .. => true
  | _ => false

/-- The six comparisons of two values. -/
inductive Comparator where
  | equal
  | notEqual
  | less
  | lessOrEqual
  | greater
  | greaterOrEqual
deriving DecidableEq, Repr

/-- A condition of which the paths are resolved.  The queries in it are of any type `ρ`. -/
inductive Predicate (ρ : Type) where
  | compare (left : Expression) (comparator : Comparator) (right : Expression)
  | like (subject pattern : Expression) (negated : Bool)
  | isNull (e : Expression)
  | isNotNull (e : Expression)
  | isIn (e : Expression) (values : List Value)
  | inSubQuery (e : Expression) (query : ρ)
  | exist (query : ρ)
  | not (p : Predicate ρ)
  | and (p q : Predicate ρ)
  | or (p q : Predicate ρ)

namespace Predicate

variable {ρ σ : Type}

/-- The same condition over other queries. -/
def map (f : ρ → σ) : Predicate ρ → Predicate σ
  | .compare left comparator right => .compare left comparator right
  | .like subject pattern negated => .like subject pattern negated
  | .isNull e => .isNull e
  | .isNotNull e => .isNotNull e
  | .isIn e values => .isIn e values
  | .inSubQuery e query => .inSubQuery e (f query)
  | .exist query => .exist (f query)
  | .not p => .not (map f p)
  | .and p q => .and (map f p) (map f q)
  | .or p q => .or (map f p) (map f q)

/-- What is attached stands on the right, so a list of conditions leans to the left. -/
def attach (connective : Connective) (p q : Predicate ρ) : Predicate ρ :=
  match connective with
  | .and => .and p q
  | .or => .or p q

/-- Conditions attached from left to right; the connective of the first one has no say. -/
def fold : List (Connective × Predicate ρ) → Option (Predicate ρ)
  | [] => none
  | first :: rest => some (rest.foldl (fun p next => attach next.1 p next.2) first.2)

/-- Both conditions, as far as there are any. -/
def both : Option (Predicate ρ) → Option (Predicate ρ) → Option (Predicate ρ)
  | some p, some q => some (.and p q)
  | some p, none => some p
  | none, q => q

/-- The condition itself or its negation. -/
def signed (positive : Bool) (p : Predicate ρ) : Predicate ρ := if positive then p else .not p

end Predicate

end EntityQuery
