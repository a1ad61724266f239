import EntityQuery.Clause.Join

/-! # Joins in an arena

The levels of join trees lie side by side, each before the levels inside it.  A join is inserted
level by level, and `toJoin?` restores the tree at a position. -/

namespace EntityQuery

variable {E : Type}

/-- One level of a join, which holds no joins; those inside it are named by their positions. -/
structure JoinSlot (E : Type) where
  join : Join E
  parent? : Option Nat
  children : List Nat

/-- The levels of all joins, and the positions of the outermost ones. -/
structure JoinArena (E : Type) where
  slots : List (JoinSlot E)
  roots : List Nat

namespace JoinArena

/-- An arena without joins. -/
def empty : JoinArena E := ⟨[], []⟩

/-- Puts a level behind all others. -/
def push (a : JoinArena E) (s : JoinSlot E) : JoinArena E := { a with slots := a.slots ++ [s] }

/-- Names the joins inside the level at a position. -/
def patch (a : JoinArena E) (id : Nat) (children : List Nat) : JoinArena E :=
  { a with slots := a.slots.modify id fun s => { s with children := children } }

mutual

/-- Inserts a join inside a level and gives its position.  The joins inside it are taken out of it,
inserted behind it, and named when they have their positions. -/
def insert (a : JoinArena E) (parent? : Option Nat) : Join E → JoinArena E × Nat
  | ⟨table, alias?, operator, fieldJoin?, fieldReference?, entity?, conditions, nested⟩ =>
    let id := a.slots.length
    let level := ⟨table, alias?, operator, fieldJoin?, fieldReference?, entity?, conditions, []⟩
    let (a, children) := insertAll (a.push ⟨level, parent?, []⟩) (some id) nested
    (a.patch id children, id)

/-- Inserts joins one after the other inside the same level. -/
def insertAll (a : JoinArena E) (parent? : Option Nat) : List (Join E) → JoinArena E × List Nat
  | [] => (a, [])
  | j :: js =>
    let (a, id) := insert a parent? j
    let (a, ids) := insertAll a parent? js
    (a, id :: ids)

end

/-- Adds a join of its own. -/
def add (a : JoinArena E) (j : Join E) : JoinArena E :=
  let (a, id) := a.insert none j
  { a with roots := a.roots ++ [id] }

/-- Joins are added one after the other, each behind the nodes that are there. -/
def addAll (a : JoinArena E) (js : List (Join E)) : JoinArena E := js.foldl add a

/-- Removes all joins. -/
def clear (_ : JoinArena E) : JoinArena E := empty

mutual

/-- The join at a position, followed down at most `fuel` levels. -/
def read? (a : JoinArena E) : Nat → Nat → Option (Join E)
  | 0, _ => none
  | fuel + 1, id =>
    match a.slots[id]? with
    | none => none
    | some slot => (readAll? a fuel slot.children).map fun nested =>
        { slot.join with nested := nested }

/-- The joins at positions, in their order. -/
def readAll? (a : JoinArena E) (fuel : Nat) : List Nat → Option (List (Join E))
  | [] => some []
  | id :: ids => do
    let j ← read? a fuel id
    let js ← readAll? a fuel ids
    return j :: js

end

/-- The join tree at a position; no tree has more levels than the arena has slots. -/
def toJoin? (a : JoinArena E) (id : Nat) : Option (Join E) := read? a a.slots.length id

end JoinArena

end EntityQuery
