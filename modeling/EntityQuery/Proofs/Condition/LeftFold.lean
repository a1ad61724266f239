import EntityQuery.Evaluation.Truth
import EntityQuery.GraphQuery.Predicate
import EntityQuery.Proofs.Condition.Leaves

/-! # The left fold of conditions

Conditions are attached strictly from left to right, each by its own connective, and a group is a
fold of its own.  `TreeShape.fold` says so for the truth of the leaves alone; a `Formula` is what a
reader of a text or of a predicate takes the conditions to be.  The leaves of both are numbered from
left to right, and an assignment gives every number a truth value. -/

namespace EntityQuery

variable {σ τ κ μ ρ α : Type}

/-! ## Condition trees without their conditions -/

namespace Truth

/-- The first value alone, and every later one attached to what came before. -/
def fold : List (Connective × Truth) → Option Truth
  | [] => none
  | first :: rest => some (rest.foldl (fun t next => attach next.1 t next.2) first.2)

end Truth

/-- A tree of conditions of which only the places of the leaves are known. -/
inductive TreeShape where
  | leaf (attach : Connective)
  | group (attach : Connective) (members : List TreeShape)

namespace TreeShape

/-- A formula attached to what is before it. -/
def attach : TreeShape → Connective
  | .leaf a => a
  | .group a _ => a

mutual

def leafCount : TreeShape → Nat
  | .leaf _ => 1
  | .group _ members => leafCounts members

def leafCounts : List TreeShape → Nat
  | [] => 0
  | s :: ss => leafCount s + leafCounts ss

end

mutual

/-- The truth of a tree whose first leaf has the number `first`; a group without leaves has none. -/
def value? (v : Nat → Truth) (first : Nat) : TreeShape → Option Truth
  | .leaf _ => some (v first)
  | .group _ members => Truth.fold (values v first members)

/-- The trees that have a truth, each with how it is attached. -/
def values (v : Nat → Truth) (first : Nat) : List TreeShape → List (Connective × Truth)
  | [] => []
  | s :: ss =>
    let rest := values v (first + s.leafCount) ss
    match value? v first s with
    | some t => (s.attach, t) :: rest
    | none => rest

end

/-- The truth of the trees of a query. -/
def fold (v : Nat → Truth) (ss : List TreeShape) : Option Truth := Truth.fold (values v 0 ss)

end TreeShape

namespace Clause

mutual

/-- The shape of a clause. -/
def shape : Clause σ κ → TreeShape
  | .leaf a _ => .leaf a
  | .group a members => .group a (shapes members)

def shapes : List (Clause σ κ) → List TreeShape
  | [] => []
  | c :: cs => shape c :: shapes cs

end

theorem attach_shape (c : Clause σ κ) : c.shape.attach = c.attach := by
  cases c <;> rfl

end Clause

/-! ## Formulas -/

/-- A reading of conditions as conjunctions and disjunctions of leaves. -/
inductive Formula (α : Type) where
  | atom (a : α)
  | and (f g : Formula α)
  | or (f g : Formula α)

namespace Formula

/-- The atoms of a formula from left to right. -/
def leaves : Formula α → List α
  | .atom a => [a]
  | .and f g | .or f g => leaves f ++ leaves g

/-- The truth of a formula whose first leaf has the number `first`. -/
def value (v : Nat → Truth) (first : Nat) : Formula α → Truth
  | .atom _ => v first
  | .and f g => (value v first f).and (value v (first + f.leaves.length) g)
  | .or f g => (value v first f).or (value v (first + f.leaves.length) g)

def attach : Connective → Formula α → Formula α → Formula α
  | .and => .and
  | .or => .or

/-- Formulas attached one after the other; the connective of the first one has no say. -/
def fold : List (Connective × Formula α) → Option (Formula α)
  | [] => none
  | first :: rest => some (rest.foldl (fun f next => attach next.1 f next.2) first.2)

/-- The truths of formulas whose leaves are numbered on from one to the next. -/
def values (v : Nat → Truth) (first : Nat) :
    List (Connective × Formula α) → List (Connective × Truth)
  | [] => []
  | (c, f) :: rest => (c, f.value v first) :: values v (first + f.leaves.length) rest

@[simp] theorem leaves_attach (c : Connective) (f g : Formula α) :
    (attach c f g).leaves = f.leaves ++ g.leaves := by
  cases c <;> rfl

/-- What is attached has the truth of both sides, the right one numbered behind the left. -/
theorem value_attach (v : Nat → Truth) (first : Nat) (c : Connective) (f g : Formula α) :
    (attach c f g).value v first =
      Truth.attach c (f.value v first) (g.value v (first + f.leaves.length)) := by
  cases c <;> rfl

/-- Attaching keeps the leaves in their order. -/
theorem leaves_foldl (f : Formula α) (rest : List (Connective × Formula α)) :
    (rest.foldl (fun f next => attach next.1 f next.2) f).leaves =
      f.leaves ++ rest.flatMap fun p => p.2.leaves := by
  induction rest generalizing f with
  | nil => simp
  | cons p rest ih => rw [List.foldl_cons, ih, leaves_attach, List.append_assoc, List.flatMap_cons]

/-- The truth of what is attached one after the other is that of the truths. -/
theorem value_foldl (v : Nat → Truth) (first : Nat) (f : Formula α)
    (rest : List (Connective × Formula α)) :
    (rest.foldl (fun f next => attach next.1 f next.2) f).value v first =
      (values v (first + f.leaves.length) rest).foldl (fun t next => Truth.attach next.1 t next.2)
        (f.value v first) := by
  induction rest generalizing f with
  | nil => rfl
  | cons p rest ih =>
    rw [List.foldl_cons, ih, value_attach, leaves_attach, List.length_append, ← Nat.add_assoc]
    rfl

/-- A fold has the leaves of all of its formulas in their order. -/
theorem leaves_fold (items : List (Connective × Formula α)) :
    (fold items).elim [] leaves = items.flatMap fun p => p.2.leaves := by
  cases items with
  | nil => rfl
  | cons p rest => exact leaves_foldl p.2 rest

/-- Folding formulas and then taking the truth is folding their truths. -/
theorem value_fold (v : Nat → Truth) (first : Nat) (items : List (Connective × Formula α)) :
    (fold items).map (value v first) = Truth.fold (values v first items) := by
  cases items with
  | nil => rfl
  | cons p rest => exact congrArg some (value_foldl v first p.2 rest)

/-- A formula over predicates as one predicate. -/
def predicate : Formula (Predicate ρ) → Predicate ρ
  | .atom p => p
  | .and f g => .and (predicate f) (predicate g)
  | .or f g => .or (predicate f) (predicate g)

theorem predicate_attach (c : Connective) (f g : Formula (Predicate ρ)) :
    (attach c f g).predicate = Predicate.attach c f.predicate g.predicate := by
  cases c <;> rfl

/-- The predicate of what is attached one after the other is the predicates attached so. -/
theorem predicate_foldl (f : Formula (Predicate ρ))
    (rest : List (Connective × Formula (Predicate ρ))) :
    (rest.foldl (fun f next => attach next.1 f next.2) f).predicate =
      (rest.map fun p => (p.1, p.2.predicate)).foldl
        (fun p next => Predicate.attach next.1 p next.2) f.predicate := by
  induction rest generalizing f with
  | nil => rfl
  | cons p rest ih => rw [List.foldl_cons, ih, predicate_attach, List.map_cons, List.foldl_cons]

/-- Folding formulas is folding the predicates they make. -/
theorem predicate_fold (items : List (Connective × Formula (Predicate ρ))) :
    (fold items).map predicate = Predicate.fold (items.map fun p => (p.1, p.2.predicate)) := by
  cases items with
  | nil => rfl
  | cons p rest => exact congrArg some (predicate_foldl p.2 rest)

end Formula

/-! ## Skeletons -/

namespace Predicate

/-- The conjunctions and disjunctions of a predicate, over everything else in it. -/
def skeleton : Predicate ρ → Formula (Predicate ρ)
  | .and p q => .and (skeleton p) (skeleton q)
  | .or p q => .or (skeleton p) (skeleton q)
  | p => .atom p

/-- Neither a conjunction nor a disjunction. -/
def IsSingle (p : Predicate ρ) : Prop := p.skeleton = .atom p

end Predicate

/-- A formula over single predicates is the skeleton of the predicate it makes. -/
theorem Formula.skeleton_predicate (f : Formula (Predicate ρ))
    (h : ∀ p ∈ f.leaves, p.IsSingle) : f.predicate.skeleton = f := by
  induction f with
  | atom p => exact h p (List.mem_singleton_self p)
  | and f g ihf ihg =>
    rw [predicate, Predicate.skeleton, ihf fun p hp => h p (List.mem_append_left _ hp),
      ihg fun p hp => h p (List.mem_append_right _ hp)]
  | or f g ihf ihg =>
    rw [predicate, Predicate.skeleton, ihf fun p hp => h p (List.mem_append_left _ hp),
      ihg fun p hp => h p (List.mem_append_right _ hp)]

/-! ## Formulas of trees -/

/-- A tree of this shape, its leaves standing for `as`, is the formula; a tree without leaves is
none. -/
structure TreeShape.Fits (s : TreeShape) (as : List α) (f? : Option (Formula α)) : Prop where
  leaves : f?.elim [] Formula.leaves = as
  leafCount : s.leafCount = as.length
  value? : ∀ v first, s.value? v first = f?.map (Formula.value v first)

/-- Formulas that fit shapes: they have these leaves and the truths of the shapes. -/
structure TreeShape.FitsAll (ss : List TreeShape) (as : List α)
    (items : List (Connective × Formula α)) : Prop where
  leaves : (items.flatMap fun p => p.2.leaves) = as
  leafCount : leafCounts ss = as.length
  values : ∀ v first, TreeShape.values v first ss = Formula.values v first items

/-- A formula put before others, if there is one. -/
def Formula.consFound (attach : Connective) (f? : Option (Formula α))
    (items : List (Connective × Formula α)) : List (Connective × Formula α) :=
  match f? with
  | some f => (attach, f) :: items
  | none => items

namespace TreeShape

/-- A leaf fits an atom. -/
theorem Fits.leaf (c : Connective) (a : α) : (TreeShape.leaf c).Fits [a] (some (.atom a)) :=
  ⟨rfl, rfl, fun _ _ => rfl⟩

theorem FitsAll.nil : FitsAll [] ([] : List α) [] := ⟨rfl, rfl, fun _ _ => rfl⟩

/-- A group fits the fold of its members. -/
theorem FitsAll.group {ss : List TreeShape} {as : List α} {items : List (Connective × Formula α)}
    (h : FitsAll ss as items) (c : Connective) :
    (TreeShape.group c ss).Fits as (Formula.fold items) where
  leaves := (Formula.leaves_fold items).trans h.leaves
  leafCount := h.leafCount
  value? v first := by rw [TreeShape.value?, h.values, Formula.value_fold]

/-- A shape that says nothing is passed over, and any other comes first. -/
theorem Fits.cons {s : TreeShape} {ss : List TreeShape} {as bs : List α} {f? : Option (Formula α)}
    {items : List (Connective × Formula α)} (h : s.Fits as f?) (hs : FitsAll ss bs items) :
    FitsAll (s :: ss) (as ++ bs) (Formula.consFound s.attach f? items) where
  leaves := by
    rw [← h.leaves, ← hs.leaves]
    cases f? <;> rfl
  leafCount := by rw [leafCounts, h.leafCount, hs.leafCount, List.length_append]
  values v first := by
    have hn : s.leafCount = (f?.elim [] Formula.leaves).length := by rw [h.leafCount, h.leaves]
    rw [TreeShape.values, h.value?, hs.values, hn]
    cases f? <;> rfl

end TreeShape

end EntityQuery
