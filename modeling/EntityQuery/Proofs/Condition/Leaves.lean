import EntityQuery.Draft.Meaning
import Mathlib.Data.List.Basic

/-! # Conditions leaf by leaf

What is asked of the leaves of a tree does not depend on its groups.  The sub queries of a draft
are in its leaves, and a draft is understood once all of them are (`Draft.induction`). -/

namespace EntityQuery

variable {σ κ : Type}

namespace Clause

mutual

/-- The leaves of a tree from left to right. -/
def leaves : Clause σ κ → List (Leaf σ κ)
  | .leaf _ l => [l]
  | .group _ members => leavesAll members

def leavesAll : List (Clause σ κ) → List (Leaf σ κ)
  | [] => []
  | c :: cs => leaves c ++ leavesAll cs

end

end Clause

/-- The sub query of a condition. -/
def Leaf.query? : Leaf σ κ → Option σ
  | .subQuery _ _ query | .exist query _ => some query
  | .value .. | .fields .. | .custom _ => none

namespace Draft

variable {E τ : Type}

section Leaves

variable (level : Outline E → List (Clause τ κ) → τ)

mutual

/-- The leaves of a read tree are its leaves with their sub queries read. -/
theorem leaves_interpretClause (c : Clause (Draft E κ) κ) :
    (interpretClause level c).leaves = c.leaves.map (Leaf.map (interpret level)) := by
  match c with
  | .leaf a l => rw [interpretClause, interpretLeaf_eq_map]; rfl
  | .group a members => exact leavesAll_interpretAll members

/-- The leaves of a read level are its leaves with their sub queries read. -/
theorem leavesAll_interpretAll (cs : List (Clause (Draft E κ) κ)) :
    Clause.leavesAll (interpretAll level cs) =
      (Clause.leavesAll cs).map (Leaf.map (interpret level)) := by
  match cs with
  | [] => rfl
  | c :: cs =>
    rw [interpretAll, Clause.leavesAll, Clause.leavesAll, List.map_append,
      leaves_interpretClause c, leavesAll_interpretAll cs]

end

end Leaves

variable {motive : Draft E κ → Prop}

mutual

/-- What holds of a draft whenever it holds of its sub queries holds of every draft. -/
theorem induction
    (level : ∀ d, (∀ l ∈ Clause.leavesAll d.conditions, ∀ q ∈ l.query?, motive q) → motive d)
    (d : Draft E κ) : motive d := by
  match d with
  | ⟨outline, conditions⟩ =>
    exact level ⟨outline, conditions⟩ (induction_leavesAll level conditions)

theorem induction_leavesAll
    (level : ∀ d, (∀ l ∈ Clause.leavesAll d.conditions, ∀ q ∈ l.query?, motive q) → motive d)
    (cs : List (Clause (Draft E κ) κ)) :
    ∀ l ∈ Clause.leavesAll cs, ∀ q ∈ l.query?, motive q := by
  match cs with
  | [] => exact nofun
  | c :: cs =>
    intro l hl
    rcases List.mem_append.1 hl with hl | hl
    · exact induction_leaves level c l hl
    · exact induction_leavesAll level cs l hl

/-- Each leaf of the tree is smaller than the draft it is in. -/
theorem induction_leaves
    (level : ∀ d, (∀ l ∈ Clause.leavesAll d.conditions, ∀ q ∈ l.query?, motive q) → motive d)
    (c : Clause (Draft E κ) κ) : ∀ l ∈ c.leaves, ∀ q ∈ l.query?, motive q := by
  match c with
  | .leaf a l =>
    have here := induction_leaf level l
    intro l' hl'
    rw [List.mem_singleton.1 hl']
    exact here
  | .group a members => exact induction_leavesAll level members

theorem induction_leaf
    (level : ∀ d, (∀ l ∈ Clause.leavesAll d.conditions, ∀ q ∈ l.query?, motive q) → motive d)
    (l : Leaf (Draft E κ) κ) : ∀ q ∈ l.query?, motive q := by
  match l with
  | .value .. | .fields .. | .custom _ => exact nofun
  | .subQuery field operator query =>
    have below := induction level query
    rintro _ ⟨⟩
    exact below
  | .exist query positive =>
    have below := induction level query
    rintro _ ⟨⟩
    exact below

end

end Draft

end EntityQuery
