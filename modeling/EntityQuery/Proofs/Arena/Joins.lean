import EntityQuery.Arena.Joins
import EntityQuery.Proofs.Arena.Links

/-! # Reading joins back from an arena

Inserting a join leaves its levels behind those that were there before, each before the levels
inside it (`JoinArena.insert_eq`).  A tree is read back at the position it was laid out at, whatever
lies before and behind it, so an arena gives back the clauses that were added to it. -/

namespace EntityQuery

variable {E : Type}

mutual

/-- How many levels a join has, itself included. -/
def Join.size : Join E → Nat
  | ⟨_, _, _, _, _, _, _, nested⟩ => 1 + Join.sizes nested

def Join.sizes : List (Join E) → Nat
  | [] => 0
  | j :: js => Join.size j + Join.sizes js

end

namespace JoinArena

/-! ## The layout of trees -/

/-- The positions of joins that are laid out one after the other from `base` on. -/
def positions (base : Nat) : List (Join E) → List Nat
  | [] => []
  | j :: js => base :: positions (base + j.size) js

mutual

/-- The levels of a join from `base` on, each before the levels inside it. -/
def layout (parent? : Option Nat) (base : Nat) : Join E → List (JoinSlot E)
  | ⟨table, alias?, operator, fieldJoin?, fieldReference?, entity?, conditions, nested⟩ =>
    ⟨⟨table, alias?, operator, fieldJoin?, fieldReference?, entity?, conditions, []⟩, parent?,
      positions (base + 1) nested⟩ :: layoutAll (some base) (base + 1) nested

/-- The levels of joins one after the other, from `base` on. -/
def layoutAll (parent? : Option Nat) (base : Nat) : List (Join E) → List (JoinSlot E)
  | [] => []
  | j :: js => layout parent? base j ++ layoutAll parent? (base + j.size) js

end

mutual

/-- A join takes up as many slots as its tree has nodes. -/
theorem length_layout (parent? : Option Nat) (base : Nat) (j : Join E) :
    (layout parent? base j).length = j.size := by
  match j with
  | ⟨table, alias?, operator, fieldJoin?, fieldReference?, entity?, conditions, nested⟩ =>
    rw [layout, Join.size, List.length_cons, length_layoutAll, Nat.add_comm]

theorem length_layoutAll (parent? : Option Nat) (base : Nat) (js : List (Join E)) :
    (layoutAll parent? base js).length = Join.sizes js := by
  match js with
  | [] => rfl
  | j :: js =>
    rw [layoutAll, Join.sizes, List.length_append, length_layout, length_layoutAll]

end

mutual

/-- Inserting a join is laying its tree out behind all others: a level that was pushed without the
joins inside it has them once it is patched. -/
theorem insert_eq (a : JoinArena E) (parent? : Option Nat) (j : Join E) : a.insert parent? j =
    ({ a with slots := a.slots ++ layout parent? a.slots.length j }, a.slots.length) := by
  match j with
  | ⟨table, alias?, operator, fieldJoin?, fieldReference?, entity?, conditions, nested⟩ =>
    rw [insert, insertAll_eq]
    simp only [push, patch, List.length_append, List.length_singleton, List.append_assoc,
      List.singleton_append, Links.modify_slots, layout]

/-- Joins are laid out one behind the other, and their positions are returned. -/
theorem insertAll_eq (a : JoinArena E) (parent? : Option Nat) (js : List (Join E)) :
    a.insertAll parent? js =
      ({ a with slots := a.slots ++ layoutAll parent? a.slots.length js },
        positions a.slots.length js) := by
  match js with
  | [] => rw [insertAll, layoutAll, positions, List.append_nil]
  | j :: js =>
    rw [insertAll, insert_eq]
    simp only [insertAll_eq, List.length_append, length_layout, List.append_assoc, layoutAll,
      positions]

end

/-- Inserting node by node comes to appending the layout. -/
theorem add_eq (a : JoinArena E) (j : Join E) :
    a.add j = ⟨a.slots ++ layout none a.slots.length j, a.roots ++ [a.slots.length]⟩ := by
  rw [add, insert_eq]

/-! ## Reading back what was laid out -/

mutual

/-- No tree has more levels than it takes room. -/
theorem read?_layout (roots : List Nat) (parent? : Option Nat) (before after : List (JoinSlot E))
    {fuel : Nat} {j : Join E} (h : j.size ≤ fuel) :
    read? ⟨before ++ (layout parent? before.length j ++ after), roots⟩ fuel before.length =
      some j := by
  match j, fuel with
  | ⟨table, alias?, operator, fieldJoin?, fieldReference?, entity?, conditions, nested⟩, 0 =>
    rw [Join.size] at h
    omega
  | ⟨table, alias?, operator, fieldJoin?, fieldReference?, entity?, conditions, nested⟩,
      fuel + 1 =>
    have hnested : Join.sizes nested ≤ fuel := by
      rw [Join.size] at h
      omega
    rw [layout]
    generalize hslot : (⟨_, parent?, _⟩ : JoinSlot E) = slot
    have hread := readAll?_layoutAll roots (some before.length) (before ++ [slot]) after hnested
    rw [List.length_append, List.length_singleton, List.append_assoc, List.singleton_append]
      at hread
    rw [List.cons_append, read?]
    simp only [List.getElem?_append_right, Nat.le_refl, Nat.sub_self, List.getElem?_cons_zero]
    subst hslot
    rw [hread]
    rfl

/-- Trees that lie one behind the other are read back in order. -/
theorem readAll?_layoutAll (roots : List Nat) (parent? : Option Nat)
    (before after : List (JoinSlot E)) {fuel : Nat} {js : List (Join E)}
    (h : Join.sizes js ≤ fuel) :
    readAll? ⟨before ++ (layoutAll parent? before.length js ++ after), roots⟩ fuel
      (positions before.length js) = some js := by
  match js with
  | [] => rw [positions, readAll?]
  | j :: js =>
    rw [Join.sizes] at h
    have hj := read?_layout roots parent? before
      (layoutAll parent? (before.length + j.size) js ++ after) (Nat.le_of_add_right_le h)
    have hjs := readAll?_layoutAll roots parent? (before ++ layout parent? before.length j) after
      (Nat.le_of_add_left_le h)
    rw [List.length_append, length_layout, List.append_assoc] at hjs
    rw [layoutAll, positions, readAll?, List.append_assoc, hj, hjs]
    rfl

end

/-! ## The clauses of an arena -/

/-- The clauses at the roots. -/
def joins? (a : JoinArena E) : Option (List (Join E)) := readAll? a a.slots.length a.roots

/-- All joins are laid out behind the arena, and their positions are roots. -/
theorem addAll_eq (a : JoinArena E) (js : List (Join E)) : a.addAll js =
    ⟨a.slots ++ layoutAll none a.slots.length js, a.roots ++ positions a.slots.length js⟩ := by
  induction js generalizing a with
  | nil =>
    rw [layoutAll, positions, List.append_nil, List.append_nil]
    rfl
  | cons j js ih =>
    rw [addAll, List.foldl_cons, ← addAll, ih, add_eq]
    simp only [List.length_append, length_layout, layoutAll, positions, List.append_assoc,
      List.singleton_append]

/-- An arena holds the clauses that were added to it, in their order. -/
theorem joins?_addAll (js : List (Join E)) : (empty.addAll js).joins? = some js := by
  have hread := readAll?_layoutAll (positions 0 js) none [] [] (Nat.le_refl (Join.sizes js))
  rw [addAll_eq, joins?, List.length_append, length_layoutAll]
  simpa [empty] using hread

end JoinArena

end EntityQuery
