import EntityQuery.Draft

/-! # The meaning of a draft

A draft is read level by level.  `interpret level` gives every sub query inside the conditions its
meaning first; `level` then reads the outline and the conditions, in which meanings stand for the
sub queries. -/

namespace EntityQuery.Draft

variable {E κ τ : Type}

mutual

/-- A draft is read level by level: `level` says what an outline and its conditions come to once
every sub query among them has been read. -/
def interpret (level : Outline E → List (Clause τ κ) → τ) : Draft E κ → τ
  | ⟨outline, conditions⟩ => level outline (interpretAll level conditions)

def interpretAll (level : Outline E → List (Clause τ κ) → τ) :
    List (Clause (Draft E κ) κ) → List (Clause τ κ)
  | [] => []
  | c :: cs => interpretClause level c :: interpretAll level cs

def interpretClause (level : Outline E → List (Clause τ κ) → τ) :
    Clause (Draft E κ) κ → Clause τ κ
  | .leaf a l => .leaf a (interpretLeaf level l)
  | .group a members => .group a (interpretAll level members)

def interpretLeaf (level : Outline E → List (Clause τ κ) → τ) : Leaf (Draft E κ) κ → Leaf τ κ
  | .value field operator v => .value field operator v
  | .subQuery field operator query => .subQuery field operator (interpret level query)
  | .fields field operator second => .fields field operator second
  | .exist query positive => .exist (interpret level query) positive
  | .custom c => .custom c

end

/-- Clauses are read one by one. -/
theorem interpretAll_eq_map (level : Outline E → List (Clause τ κ) → τ)
    (cs : List (Clause (Draft E κ) κ)) :
    interpretAll level cs = cs.map (interpretClause level) := by
  induction cs with
  | nil => rfl
  | cons c cs ih => exact congrArg (interpretClause level c :: ·) ih

/-- Reading a leaf is reading the sub query in it. -/
theorem interpretLeaf_eq_map (level : Outline E → List (Clause τ κ) → τ)
    (l : Leaf (Draft E κ) κ) : interpretLeaf level l = l.map (interpret level) := by
  cases l <;> rfl

end EntityQuery.Draft
