import EntityQuery.Proofs.Arena.Joins
import EntityQuery.Proofs.Kennel

/-! # Join trees restored from an arena

The position that an added join gets stands for its tree as long as the arena is not cleared,
whatever is added before and after.  The roots are the added joins in order, and the slots are a
forest of levels without joins inside them (`JoinArena.editAll_restores`). -/

namespace EntityQuery

variable {E : Type}

/-- A change to a collection of joins. -/
inductive JoinEdit (E : Type) where
  | add (j : Join E)
  | addAll (js : List (Join E))
  | clear

namespace Join

/-- What a change makes of a list of joins. -/
def edit (js : List (Join E)) : JoinEdit E → List (Join E)
  | .add j => js ++ [j]
  | .addAll more => js ++ more
  | .clear => []

/-- The trees that a program of edits leaves. -/
def editAll (js : List (Join E)) (es : List (JoinEdit E)) : List (Join E) := es.foldl edit js

/-- Every edit but clearing only appends. -/
theorem exists_edit_append {e : JoinEdit E} (h : e ≠ .clear) :
    ∃ more, ∀ js : List (Join E), edit js e = js ++ more := by
  cases e with
  | add j => exact ⟨[j], fun _ => rfl⟩
  | addAll more => exact ⟨more, fun _ => rfl⟩
  | clear => exact absurd rfl h

/-- Without clearing, a list only grows at its end. -/
theorem exists_editAll_append {es : List (JoinEdit E)} (h : .clear ∉ es) :
    ∃ more, ∀ js : List (Join E), editAll js es = js ++ more := by
  induction es with
  | nil => exact ⟨[], fun js => (List.append_nil js).symm⟩
  | cons e es ih =>
    rw [List.mem_cons, not_or] at h
    obtain ⟨first, hfirst⟩ := exists_edit_append (Ne.symm h.1)
    obtain ⟨rest, hrest⟩ := ih h.2
    refine ⟨first ++ rest, fun js => ?_⟩
    rw [editAll, List.foldl_cons, ← editAll, hrest, hfirst, List.append_assoc]

end Join

/-- What a slot says about its neighbours, whatever join it holds. -/
def JoinSlot.link (s : JoinSlot E) : Link := ⟨s.parent?, s.children⟩

namespace JoinArena

def links (a : JoinArena E) : Links := ⟨a.slots.map JoinSlot.link, a.roots⟩

/-- An edit as it is done in the arena. -/
def edit (a : JoinArena E) : JoinEdit E → JoinArena E
  | .add j => a.add j
  | .addAll js => a.addAll js
  | .clear => a.clear

def editAll (a : JoinArena E) (es : List (JoinEdit E)) : JoinArena E := es.foldl edit a

/-! ## Levels -/

mutual

/-- The joins inside a join are in slots of their own, and not in its slot. -/
theorem nested_of_mem_layout {parent? : Option Nat} {base : Nat} {j : Join E} {s : JoinSlot E}
    (h : s ∈ layout parent? base j) : s.join.nested = [] := by
  match j with
  | ⟨table, alias?, operator, fieldJoin?, fieldReference?, entity?, conditions, nested⟩ =>
    rw [layout, List.mem_cons] at h
    rcases h with rfl | h
    · rfl
    · exact nested_of_mem_layoutAll h

theorem nested_of_mem_layoutAll {parent? : Option Nat} {base : Nat} {js : List (Join E)}
    {s : JoinSlot E} (h : s ∈ layoutAll parent? base js) : s.join.nested = [] := by
  match js with
  | [] => exact absurd h List.not_mem_nil
  | j :: js =>
    rw [layoutAll, List.mem_append] at h
    rcases h with h | h
    · exact nested_of_mem_layout h
    · exact nested_of_mem_layoutAll h

end

mutual

/-- The slots of a join are linked to each other as its tree is, whatever stands around them. -/
theorem spans_layout (roots : List Nat) (parent? : Option Nat) (before after : List (JoinSlot E))
    (j : Join E) :
    (links ⟨before ++ (layout parent? before.length j ++ after), roots⟩).Spans parent?
      [before.length] before.length (before.length + j.size) := by
  match j with
  | ⟨table, alias?, operator, fieldJoin?, fieldReference?, entity?, conditions, nested⟩ =>
    have hbelow := spans_layoutAll roots (some before.length)
      (before ++ [⟨⟨table, alias?, operator, fieldJoin?, fieldReference?, entity?, conditions, []⟩,
        parent?, positions (before.length + 1) nested⟩]) after nested
    rw [List.length_append, List.length_singleton, List.append_assoc, List.singleton_append,
      Nat.add_assoc] at hbelow
    exact .node (Links.getElem?_slots _ before _ _) hbelow

theorem spans_layoutAll (roots : List Nat) (parent? : Option Nat)
    (before after : List (JoinSlot E)) (js : List (Join E)) :
    (links ⟨before ++ (layoutAll parent? before.length js ++ after), roots⟩).Spans parent?
      (positions before.length js) before.length (before.length + Join.sizes js) := by
  match js with
  | [] => exact .nil
  | j :: js =>
    have hj := spans_layout roots parent? before
      (layoutAll parent? (before.length + j.size) js ++ after) j
    have hjs := spans_layoutAll roots parent? (before ++ layout parent? before.length j) after js
    rw [List.length_append, length_layout, List.append_assoc, Nat.add_assoc] at hjs
    rw [layoutAll, List.append_assoc]
    exact hj.append hjs

end

theorem empty_addAll (js : List (Join E)) :
    (empty : JoinArena E).addAll js = ⟨layoutAll none 0 js, positions 0 js⟩ := by
  rw [addAll_eq]
  rfl

/-- The slots of join trees are a forest. -/
theorem isForest_addAll (js : List (Join E)) :
    (empty.addAll js : JoinArena E).links.IsForest := by
  have hspans := spans_layoutAll (positions 0 js) none [] [] js
  rw [empty_addAll]
  refine Links.Spans.isForest ?_
  simpa [links, length_layoutAll] using hspans

/-! ## Trees -/

theorem readAll?_eq_mapM (a : JoinArena E) (fuel : Nat) (ids : List Nat) :
    readAll? a fuel ids = ids.mapM (read? a fuel) := by
  induction ids with
  | nil => rw [readAll?, List.mapM_nil, Option.pure_def]
  | cons id ids ih => rw [readAll?, ih, List.mapM_cons]

theorem addAll_append (a : JoinArena E) (js more : List (Join E)) :
    a.addAll (js ++ more) = (a.addAll js).addAll more := List.foldl_append

/-- The position that a join is added at gives the join back, whatever is added behind it. -/
theorem toJoin?_addAll (js : List (Join E)) (j : Join E) (more : List (Join E)) :
    (empty.addAll (js ++ j :: more)).toJoin? (empty.addAll js).slots.length = some j := by
  have hsize : j.size ≤ (empty.addAll (js ++ j :: more)).slots.length := by
    rw [addAll_append, addAll_eq]
    simp only [layoutAll, List.length_append, length_layout]
    omega
  have hread := read?_layout (empty.addAll (js ++ j :: more)).roots none (empty.addAll js).slots
    (layoutAll none ((empty.addAll js).slots.length + j.size) more) hsize
  rw [toJoin?]
  refine Eq.trans ?_ hread
  congr 1
  rw [addAll_append, addAll_eq, layoutAll]

/-! ## Programs of changes -/

/-- Editing the arena of trees and editing the trees come to the same arena. -/
theorem edit_addAll (js : List (Join E)) (e : JoinEdit E) :
    (empty.addAll js).edit e = empty.addAll (Join.edit js e) := by
  cases e with
  | add j => exact (addAll_append empty js [j]).symm
  | addAll more => exact (addAll_append empty js more).symm
  | clear => rfl

theorem editAll_addAll (js : List (Join E)) (es : List (JoinEdit E)) :
    (empty.addAll js).editAll es = empty.addAll (Join.editAll js es) := by
  induction es generalizing js with
  | nil => rfl
  | cons e es ih => rw [editAll, List.foldl_cons, edit_addAll, ← editAll, ih]; rfl

/-- After any changes, each join that was added since the arena was last cleared is restored from
the root it was added as, and the roots restore the joins in their order.  No level holds joins, and
the links of the levels agree and lead forward. -/
theorem editAll_restores (es : List (JoinEdit E)) :
    (∀ before j after, es = before ++ .add j :: after → .clear ∉ after →
      ∃ id, ((empty.editAll before).add j).roots = (empty.editAll before).roots ++ [id] ∧
        (empty.editAll es).toJoin? id = some j) ∧
    (empty.editAll es).roots.mapM (empty.editAll es).toJoin? = some (Join.editAll [] es) ∧
    (∀ s ∈ (empty.editAll es).slots, s.join.nested = []) ∧
    (empty.editAll es).links.IsForest := by
  have hbuilt (es : List (JoinEdit E)) : empty.editAll es = empty.addAll (Join.editAll [] es) :=
    editAll_addAll [] es
  refine ⟨?_, ?_, ?_, ?_⟩
  · rintro before j after rfl hclear
    obtain ⟨more, hmore⟩ := Join.exists_editAll_append hclear
    refine ⟨_, congrArg roots (add_eq _ j), ?_⟩
    have hall : Join.editAll [] (before ++ .add j :: after) =
        Join.editAll [] before ++ j :: more := by
      rw [Join.editAll, List.foldl_append, List.foldl_cons, ← Join.editAll, ← Join.editAll, hmore,
        Join.edit, List.append_assoc, List.singleton_append]
    rw [hbuilt before, hbuilt, hall]
    exact toJoin?_addAll (Join.editAll [] before) j more
  · have hjoins := joins?_addAll (Join.editAll [] es)
    rwa [joins?, readAll?_eq_mapM, ← hbuilt] at hjoins
  · intro s hs
    rw [hbuilt, empty_addAll] at hs
    exact nested_of_mem_layoutAll hs
  · rw [hbuilt]
    exact isForest_addAll (Join.editAll [] es)

end JoinArena

namespace Kennel

def ownersOfDogs : Join Kennel := .deep "dogs.owner" (some "o") .left

def cleared : List (JoinEdit Kennel) := [.add (.ofTable "name"), .clear]

def dogsAgain : List (JoinEdit Kennel) := [.addAll [.ofTable "dogs"]]

/-- The owners of dogs, added to an arena that was cleared, and dogs after them. -/
theorem editAll_restores_ownersOfDogs : .clear ∉ dogsAgain ∧
    ∃ id, ((JoinArena.empty.editAll cleared).add ownersOfDogs).roots =
        (JoinArena.empty.editAll cleared).roots ++ [id] ∧
      (JoinArena.empty.editAll (cleared ++ .add ownersOfDogs :: dogsAgain)).toJoin? id =
        some ownersOfDogs := by
  have hclear : .clear ∉ dogsAgain := by simp [dogsAgain]
  exact ⟨hclear, (JoinArena.editAll_restores _).1 cleared ownersOfDogs dogsAgain rfl hclear⟩

end Kennel

end EntityQuery
