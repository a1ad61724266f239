import EntityQuery.Clause.Call

/-! # Conditions in an arena

The nodes of condition trees lie side by side, a group before its members, and refer to each other
by their positions.  A tree is inserted node by node, and `toClauses?` reads the trees back. -/

namespace EntityQuery

variable {σ κ : Type}

/-- A node of a condition tree; the members of a group are named by their positions. -/
inductive ConditionNode (σ κ : Type) where
  | leaf (attach : Connective) (leaf : Leaf σ κ)
  | group (attach : Connective) (children : List Nat)

/-- A node and the position of the group that holds it, if it is in one. -/
structure ConditionSlot (σ κ : Type) where
  node : ConditionNode σ κ
  parent? : Option Nat

/-- The nodes of all trees, and the positions at which the trees start. -/
structure ConditionArena (σ κ : Type) where
  slots : List (ConditionSlot σ κ)
  roots : List Nat

namespace ConditionNode

/-- How the node is attached to what is before it. -/
def attach : ConditionNode σ κ → Connective
  | .leaf a _ => a
  | .group a _ => a

/-- The same node among nodes that lie `offset` further. -/
def shift (offset : Nat) : ConditionNode σ κ → ConditionNode σ κ
  | .leaf a l => .leaf a l
  | .group a children => .group a (children.map (· + offset))

/-- The same group with other members; a leaf has none. -/
def withChildren (children : List Nat) : ConditionNode σ κ → ConditionNode σ κ
  | .leaf a l => .leaf a l
  | .group a _ => .group a children

end ConditionNode

/-- The same slot among slots that lie `offset` further; what was in no group is in `group` then. -/
def ConditionSlot.moved (group offset : Nat) (s : ConditionSlot σ κ) : ConditionSlot σ κ :=
  ⟨s.node.shift offset, some ((s.parent?.map (· + offset)).getD group)⟩

namespace ConditionArena

/-- An arena without conditions. -/
def empty : ConditionArena σ κ := ⟨[], []⟩

/-- Puts a slot behind all others. -/
def push (a : ConditionArena σ κ) (s : ConditionSlot σ κ) : ConditionArena σ κ :=
  { a with slots := a.slots ++ [s] }

/-- Names the members of the group at a position. -/
def patch (a : ConditionArena σ κ) (id : Nat) (children : List Nat) : ConditionArena σ κ :=
  { a with slots := a.slots.modify id fun s => { s with node := s.node.withChildren children } }

mutual

/-- Inserts a tree under a node and gives the position of its top.  A group is pushed before its
members are inserted, so they are named when they have their positions. -/
def insert (a : ConditionArena σ κ) (parent? : Option Nat) :
    Clause σ κ → ConditionArena σ κ × Nat
  | .leaf attach leaf => (a.push ⟨.leaf attach leaf, parent?⟩, a.slots.length)
  | .group attach members =>
    let id := a.slots.length
    let (a, children) := insertAll (a.push ⟨.group attach [], parent?⟩) (some id) members
    (a.patch id children, id)

/-- Inserts trees one after the other under the same node. -/
def insertAll (a : ConditionArena σ κ) (parent? : Option Nat) :
    List (Clause σ κ) → ConditionArena σ κ × List Nat
  | [] => (a, [])
  | c :: cs =>
    let (a, id) := insert a parent? c
    let (a, ids) := insertAll a parent? cs
    (a, id :: ids)

end

/-- Adds a tree of its own. -/
def add (a : ConditionArena σ κ) (c : Clause σ κ) : ConditionArena σ κ :=
  let (a, id) := a.insert none c
  { a with roots := a.roots ++ [id] }

/-- Clauses are added one after the other, each behind the nodes that are there. -/
def addAll (a : ConditionArena σ κ) (cs : List (Clause σ κ)) : ConditionArena σ κ := cs.foldl add a

/-- Moves the trees of another arena under a new group, if it has any.  The group is pushed first,
then the slots, whose positions shift by what was there before, and at last the group is told which
of them are its members. -/
def graft (a other : ConditionArena σ κ) (attach : Connective) : ConditionArena σ κ :=
  if other.roots.isEmpty then a
  else
    let group := a.slots.length
    let a := a.push ⟨.group attach [], none⟩
    let offset := a.slots.length
    let a := other.slots.foldl (fun a s => a.push (s.moved group offset)) a
    let a := a.patch group (other.roots.map (· + offset))
    { a with roots := a.roots ++ [group] }

/-- Removes all trees. -/
def clear (_ : ConditionArena σ κ) : ConditionArena σ κ := empty

mutual

/-- Adds what a call adds to a builder that attaches with `own`. -/
def call (own : Connective) (a : ConditionArena σ κ) : Call σ κ → ConditionArena σ κ
  | .gather attach? inner calls => a.graft (callAll inner empty calls) (attach?.getD own)
  | .compare attach? field operator value =>
    a.addAll ((Call.compare attach? field operator value).clauses own)
  | .membership attach? field operator values =>
    a.addAll ((Call.membership attach? field operator values).clauses own)
  | .leaf attach? leaf => a.addAll ((Call.leaf attach? leaf).clauses own)
  | .clause clause => a.add clause
  | .group attach? members => a.addAll ((Call.group attach? members).clauses own)

/-- Adds what calls add, one after the other. -/
def callAll (own : Connective) (a : ConditionArena σ κ) : List (Call σ κ) → ConditionArena σ κ
  | [] => a
  | c :: cs => callAll own (call own a c) cs

end

mutual

/-- The tree at a position, followed down at most `fuel` levels. -/
def read? (a : ConditionArena σ κ) : Nat → Nat → Option (Clause σ κ)
  | 0, _ => none
  | fuel + 1, id =>
    match a.slots[id]? with
    | none => none
    | some ⟨.leaf attach leaf, _⟩ => some (.leaf attach leaf)
    | some ⟨.group attach children, _⟩ => (readAll? a fuel children).map (.group attach)

/-- The trees at positions, in their order. -/
def readAll? (a : ConditionArena σ κ) (fuel : Nat) : List Nat → Option (List (Clause σ κ))
  | [] => some []
  | id :: ids => do
    let c ← read? a fuel id
    let cs ← readAll? a fuel ids
    return c :: cs

end

/-- The trees of an arena; no tree has more levels than the arena has nodes. -/
def toClauses? (a : ConditionArena σ κ) : Option (List (Clause σ κ)) :=
  readAll? a a.slots.length a.roots

end ConditionArena

end EntityQuery
