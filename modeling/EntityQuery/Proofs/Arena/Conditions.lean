import EntityQuery.Arena.Conditions
import EntityQuery.Proofs.Arena.Links

/-! # Conditions read back from an arena

Inserting a tree leaves its nodes behind those that were there before, each before the nodes below
it (`ConditionArena.insert_eq`).  However an arena was filled, by adding trees or by moving the
trees of other arenas into it, it is laid out as if its trees had been added one after the other
(`ConditionArena.editAll_addAll`).  So it keeps the trees that a list would, and its slots are a
forest (`ConditionArena.editAll_represents`). -/

namespace EntityQuery

variable {σ κ : Type}

/-- A change to a collection of conditions.  What is moved under a new group is built by changes
itself. -/
inductive ConditionEdit (σ κ : Type) where
  | add (c : Clause σ κ)
  | addAll (cs : List (Clause σ κ))
  | graft (edits : List (ConditionEdit σ κ)) (attach : Connective)
  | clear

namespace Clause

mutual

/-- What a change makes of a list of trees. -/
def edit (cs : List (Clause σ κ)) : ConditionEdit σ κ → List (Clause σ κ)
  | .add c => cs ++ [c]
  | .addAll ds => cs ++ ds
  | .graft edits attach =>
    match editAll [] edits with
    | [] => cs
    | d :: ds => cs ++ [.group attach (d :: ds)]
  | .clear => []

/-- The trees that a program of edits leaves. -/
def editAll (cs : List (Clause σ κ)) : List (ConditionEdit σ κ) → List (Clause σ κ)
  | [] => cs
  | e :: es => editAll (edit cs e) es

end

end Clause

/-- The slots below a node. -/
def ConditionNode.children : ConditionNode σ κ → List Nat
  | .leaf .. => []
  | .group _ children => children

/-- What a slot says about its neighbours, whatever condition it holds. -/
def ConditionSlot.link (s : ConditionSlot σ κ) : Link := ⟨s.parent?, s.node.children⟩

namespace ConditionArena

def links (a : ConditionArena σ κ) : Links := ⟨a.slots.map ConditionSlot.link, a.roots⟩

mutual

/-- An edit as it is done in the arena.  What is grafted is first built in an arena of its own. -/
def edit (a : ConditionArena σ κ) : ConditionEdit σ κ → ConditionArena σ κ
  | .add c => a.add c
  | .addAll cs => a.addAll cs
  | .graft edits attach => a.graft (editAll empty edits) attach
  | .clear => a.clear

def editAll (a : ConditionArena σ κ) : List (ConditionEdit σ κ) → ConditionArena σ κ
  | [] => a
  | e :: es => editAll (edit a e) es

end

/-! ## The layout of trees -/

/-- The positions of trees that are laid out one after the other from `base` on. -/
def positions (base : Nat) : List (Clause σ κ) → List Nat
  | [] => []
  | c :: cs => base :: positions (base + c.size) cs

mutual

/-- The nodes of a tree from `base` on, each before the nodes below it. -/
def layout (parent? : Option Nat) (base : Nat) : Clause σ κ → List (ConditionSlot σ κ)
  | .leaf attach leaf => [⟨.leaf attach leaf, parent?⟩]
  | .group attach members =>
    ⟨.group attach (positions (base + 1) members), parent?⟩ ::
      layoutAll (some base) (base + 1) members

/-- The nodes of trees one after the other, from `base` on. -/
def layoutAll (parent? : Option Nat) (base : Nat) :
    List (Clause σ κ) → List (ConditionSlot σ κ)
  | [] => []
  | c :: cs => layout parent? base c ++ layoutAll parent? (base + c.size) cs

end

mutual

/-- A clause takes up as many slots as its tree has nodes. -/
theorem length_layout (parent? : Option Nat) (base : Nat) (c : Clause σ κ) :
    (layout parent? base c).length = c.size := by
  match c with
  | .leaf attach leaf => rfl
  | .group attach members =>
    rw [layout, Clause.size, List.length_cons, length_layoutAll, Nat.add_comm]

theorem length_layoutAll (parent? : Option Nat) (base : Nat) (cs : List (Clause σ κ)) :
    (layoutAll parent? base cs).length = Clause.sizes cs := by
  match cs with
  | [] => rfl
  | c :: cs =>
    rw [layoutAll, Clause.sizes, List.length_append, length_layout, length_layoutAll]

end

mutual

/-- Inserting a tree is laying it out behind all others: a group that was pushed without members has
them once it is patched. -/
theorem insert_eq (a : ConditionArena σ κ) (parent? : Option Nat) (c : Clause σ κ) :
    a.insert parent? c =
      ({ a with slots := a.slots ++ layout parent? a.slots.length c }, a.slots.length) := by
  match c with
  | .leaf attach leaf => rfl
  | .group attach members =>
    rw [insert, insertAll_eq]
    simp only [push, patch, List.length_append, List.length_singleton, List.append_assoc,
      List.singleton_append, Links.modify_slots, ConditionNode.withChildren, layout]

/-- Clauses are laid out one behind the other, and their positions are returned. -/
theorem insertAll_eq (a : ConditionArena σ κ) (parent? : Option Nat) (cs : List (Clause σ κ)) :
    a.insertAll parent? cs =
      ({ a with slots := a.slots ++ layoutAll parent? a.slots.length cs },
        positions a.slots.length cs) := by
  match cs with
  | [] => rw [insertAll, layoutAll, positions, List.append_nil]
  | c :: cs =>
    rw [insertAll, insert_eq]
    simp only [insertAll_eq, List.length_append, length_layout, List.append_assoc, layoutAll,
      positions]

end

/-- Inserting node by node comes to appending the layout. -/
theorem add_eq (a : ConditionArena σ κ) (c : Clause σ κ) :
    a.add c = ⟨a.slots ++ layout none a.slots.length c, a.roots ++ [a.slots.length]⟩ := by
  rw [add, insert_eq]

/-- All clauses are laid out behind the arena, and their positions are roots. -/
theorem addAll_eq (a : ConditionArena σ κ) (cs : List (Clause σ κ)) : a.addAll cs =
    ⟨a.slots ++ layoutAll none a.slots.length cs, a.roots ++ positions a.slots.length cs⟩ := by
  induction cs generalizing a with
  | nil =>
    rw [layoutAll, positions, List.append_nil, List.append_nil]
    rfl
  | cons c cs ih =>
    rw [addAll, List.foldl_cons, ← addAll, ih, add_eq]
    simp only [List.length_append, length_layout, layoutAll, positions, List.append_assoc,
      List.singleton_append]

theorem addAll_concat (a : ConditionArena σ κ) (cs : List (Clause σ κ)) (c : Clause σ κ) :
    a.addAll (cs ++ [c]) = (a.addAll cs).add c := by
  rw [addAll, List.foldl_append]
  rfl

theorem addAll_append (a : ConditionArena σ κ) (cs ds : List (Clause σ κ)) :
    a.addAll (cs ++ ds) = (a.addAll cs).addAll ds := List.foldl_append

theorem empty_addAll (cs : List (Clause σ κ)) :
    (empty : ConditionArena σ κ).addAll cs = ⟨layoutAll none 0 cs, positions 0 cs⟩ := by
  rw [addAll_eq]
  rfl

/-! ## Reading back what was laid out -/

mutual

/-- No tree has more levels than it takes room. -/
theorem read?_layout (roots : List Nat) (parent? : Option Nat)
    (before after : List (ConditionSlot σ κ)) {fuel : Nat} {c : Clause σ κ} (h : c.size ≤ fuel) :
    read? ⟨before ++ (layout parent? before.length c ++ after), roots⟩ fuel before.length =
      some c := by
  match c, fuel with
  | .leaf attach leaf, 0 | .group attach members, 0 =>
    rw [Clause.size] at h
    omega
  | .leaf attach leaf, fuel + 1 =>
    simp [layout, read?]
  | .group attach members, fuel + 1 =>
    have hmembers : Clause.sizes members ≤ fuel := by
      rw [Clause.size] at h
      omega
    rw [layout]
    generalize hslot : (⟨_, parent?⟩ : ConditionSlot σ κ) = slot
    have hread := readAll?_layoutAll roots (some before.length) (before ++ [slot]) after hmembers
    rw [List.length_append, List.length_singleton, List.append_assoc, List.singleton_append]
      at hread
    rw [List.cons_append, read?]
    simp only [List.getElem?_append_right, Nat.le_refl, Nat.sub_self, List.getElem?_cons_zero]
    subst hslot
    exact congrArg (Option.map (Clause.group attach)) hread

/-- Trees that lie one behind the other are read back in order. -/
theorem readAll?_layoutAll (roots : List Nat) (parent? : Option Nat)
    (before after : List (ConditionSlot σ κ)) {fuel : Nat} {cs : List (Clause σ κ)}
    (h : Clause.sizes cs ≤ fuel) :
    readAll? ⟨before ++ (layoutAll parent? before.length cs ++ after), roots⟩ fuel
      (positions before.length cs) = some cs := by
  match cs with
  | [] => rw [positions, readAll?]
  | c :: cs =>
    rw [Clause.sizes] at h
    have hc := read?_layout roots parent? before
      (layoutAll parent? (before.length + c.size) cs ++ after) (Nat.le_of_add_right_le h)
    have hcs := readAll?_layoutAll roots parent? (before ++ layout parent? before.length c) after
      (Nat.le_of_add_left_le h)
    rw [List.length_append, length_layout, List.append_assoc] at hcs
    rw [layoutAll, positions, readAll?, List.append_assoc, hc, hcs]
    rfl

end

/-- An arena holds the trees that were added to it, in their order. -/
theorem toClauses?_addAll (cs : List (Clause σ κ)) : (empty.addAll cs).toClauses? = some cs := by
  have hread := readAll?_layoutAll (positions 0 cs) none [] [] (Nat.le_refl (Clause.sizes cs))
  rw [empty_addAll, toClauses?, length_layoutAll]
  simpa using hread

/-! ## Links -/

mutual

/-- The slots of a clause are linked to each other as its tree is, whatever stands around them. -/
theorem spans_layout (roots : List Nat) (parent? : Option Nat)
    (before after : List (ConditionSlot σ κ)) (c : Clause σ κ) :
    (links ⟨before ++ (layout parent? before.length c ++ after), roots⟩).Spans parent?
      [before.length] before.length (before.length + c.size) := by
  match c with
  | .leaf attach leaf =>
    exact .node (Links.getElem?_slots _ before after _) .nil
  | .group attach members =>
    have hbelow := spans_layoutAll roots (some before.length)
      (before ++ [⟨.group attach (positions (before.length + 1) members), parent?⟩]) after members
    rw [List.length_append, List.length_singleton, List.append_assoc, List.singleton_append,
      Nat.add_assoc] at hbelow
    exact .node (Links.getElem?_slots _ before _ _) hbelow

theorem spans_layoutAll (roots : List Nat) (parent? : Option Nat)
    (before after : List (ConditionSlot σ κ)) (cs : List (Clause σ κ)) :
    (links ⟨before ++ (layoutAll parent? before.length cs ++ after), roots⟩).Spans parent?
      (positions before.length cs) before.length (before.length + Clause.sizes cs) := by
  match cs with
  | [] => exact .nil
  | c :: cs =>
    have hc := spans_layout roots parent? before
      (layoutAll parent? (before.length + c.size) cs ++ after) c
    have hcs := spans_layoutAll roots parent? (before ++ layout parent? before.length c) after cs
    rw [List.length_append, length_layout, List.append_assoc, Nat.add_assoc] at hcs
    rw [layoutAll, List.append_assoc]
    exact hc.append hcs

end

/-- The trees of an arena that only grew by adding are a forest. -/
theorem isForest_addAll (cs : List (Clause σ κ)) :
    (empty.addAll cs : ConditionArena σ κ).links.IsForest := by
  have hspans := spans_layoutAll (positions 0 cs) none [] [] cs
  rw [empty_addAll]
  refine Links.Spans.isForest ?_
  simpa [links, length_layoutAll] using hspans

/-! ## Moving trees -/

/-- Positions move with the slots. -/
theorem map_positions (offset base : Nat) (cs : List (Clause σ κ)) :
    (positions base cs).map (· + offset) = positions (base + offset) cs := by
  induction cs generalizing base with
  | nil => rfl
  | cons c cs ih => rw [positions, List.map_cons, ih, positions, Nat.add_right_comm]

mutual

/-- A layout that is moved below a group is the layout it would have there. -/
theorem map_moved_layout (group : Nat) (parent? : Option Nat) (base : Nat) (c : Clause σ κ) :
    (layout parent? base c).map (ConditionSlot.moved group (group + 1)) =
      layout (some ((parent?.map (· + (group + 1))).getD group)) (base + (group + 1)) c := by
  match c with
  | .leaf attach leaf => rfl
  | .group attach members =>
    rw [layout, List.map_cons, map_moved_layoutAll, layout, Nat.add_right_comm]
    congr 1
    rw [ConditionSlot.moved, ConditionNode.shift, map_positions, Nat.add_right_comm]

theorem map_moved_layoutAll (group : Nat) (parent? : Option Nat) (base : Nat)
    (cs : List (Clause σ κ)) :
    (layoutAll parent? base cs).map (ConditionSlot.moved group (group + 1)) =
      layoutAll (some ((parent?.map (· + (group + 1))).getD group)) (base + (group + 1)) cs := by
  match cs with
  | [] => rfl
  | c :: cs =>
    rw [layoutAll, List.map_append, map_moved_layout, map_moved_layoutAll, layoutAll,
      Nat.add_right_comm]

end

/-- Pushing slots one by one appends them. -/
theorem foldl_push (f : ConditionSlot σ κ → ConditionSlot σ κ) (a : ConditionArena σ κ)
    (ss : List (ConditionSlot σ κ)) :
    ss.foldl (fun a s => a.push (f s)) a = { a with slots := a.slots ++ ss.map f } := by
  induction ss generalizing a with
  | nil => rw [List.map_nil, List.append_nil, List.foldl_nil]
  | cons s ss ih =>
    rw [List.foldl_cons, ih, push, List.map_cons, List.append_assoc, List.singleton_append]

/-- Moved slots lie behind their group, which names the ones that were roots. -/
theorem graft_eq (a other : ConditionArena σ κ) (attach : Connective) (h : other.roots ≠ []) :
    a.graft other attach =
      ⟨a.slots ++ ⟨.group attach (other.roots.map (· + (a.slots.length + 1))), none⟩ ::
        other.slots.map (ConditionSlot.moved a.slots.length (a.slots.length + 1)),
        a.roots ++ [a.slots.length]⟩ := by
  rw [graft, if_neg (mt List.isEmpty_iff.1 h)]
  simp only [foldl_push]
  simp only [push, patch, List.length_append, List.length_singleton, List.append_assoc,
    List.singleton_append, Links.modify_slots, ConditionNode.withChildren]

/-- Moving the trees of an arena under a group leaves what adding the group would. -/
theorem graft_addAll (a : ConditionArena σ κ) (c : Clause σ κ) (cs : List (Clause σ κ))
    (attach : Connective) :
    a.graft (empty.addAll (c :: cs)) attach = a.add (.group attach (c :: cs)) := by
  have hmoved := map_moved_layoutAll a.slots.length none 0 (c :: cs)
  have hpositions := map_positions (a.slots.length + 1) 0 (c :: cs)
  rw [Nat.zero_add] at hmoved hpositions
  rw [empty_addAll, graft_eq _ _ _ (List.cons_ne_nil _ _), add_eq, layout, hmoved, hpositions]
  rfl

/-! ## Calls -/

mutual

/-- A builder's call adds the same conditions to an arena as to a list. -/
theorem call_addAll (own : Connective) (cs : List (Clause σ κ)) (c : Call σ κ) :
    call own (empty.addAll cs) c = empty.addAll (cs ++ c.clauses own) := by
  match c with
  | .gather attach? inner calls =>
    have hbuilt : callAll inner empty calls = empty.addAll (Call.collect inner calls) :=
      callAll_addAll inner [] calls
    rw [call, Call.clauses, hbuilt]
    cases Call.collect inner calls with
    | nil => exact congrArg empty.addAll (List.append_nil cs).symm
    | cons d ds => exact (graft_addAll _ d ds _).trans (addAll_concat empty cs _).symm
  | .clause clause => exact (addAll_concat empty cs clause).symm
  | .compare .. | .membership .. | .leaf .. | .group .. =>
    exact (addAll_append empty cs _).symm

/-- Calls add to the arena what they add to the trees. -/
theorem callAll_addAll (own : Connective) (cs : List (Clause σ κ)) (calls : List (Call σ κ)) :
    callAll own (empty.addAll cs) calls = empty.addAll (cs ++ Call.collect own calls) := by
  match calls with
  | [] => exact congrArg empty.addAll (List.append_nil cs).symm
  | c :: calls =>
    rw [callAll, call_addAll, callAll_addAll, Call.collect, List.append_assoc]

end

/-! ## Programs of changes -/

mutual

/-- Editing the arena of trees and editing the trees come to the same arena. -/
theorem edit_addAll (cs : List (Clause σ κ)) (e : ConditionEdit σ κ) :
    (empty.addAll cs).edit e = empty.addAll (Clause.edit cs e) := by
  match e with
  | .add c => exact (addAll_concat empty cs c).symm
  | .addAll ds => exact (addAll_append empty cs ds).symm
  | .graft edits attach =>
    have hbuilt : empty.editAll edits = empty.addAll (Clause.editAll [] edits) :=
      editAll_addAll [] edits
    rw [edit, Clause.edit, hbuilt]
    cases Clause.editAll [] edits with
    | nil => rfl
    | cons d ds => exact (graft_addAll _ d ds attach).trans (addAll_concat empty cs _).symm
  | .clear => rfl

/-- Whatever is done to an arena, it is laid out as if its trees had been added one by one. -/
theorem editAll_addAll (cs : List (Clause σ κ)) (es : List (ConditionEdit σ κ)) :
    (empty.addAll cs).editAll es = empty.addAll (Clause.editAll cs es) := by
  match es with
  | [] => rfl
  | e :: es => rw [editAll, edit_addAll, editAll_addAll, Clause.editAll]

end

/-- An arena built by any changes gives back the trees that the same changes leave in a list.  The
links of its slots agree, each leads forward, and each slot is reached by one route. -/
theorem editAll_represents (es : List (ConditionEdit σ κ)) :
    (empty.editAll es).toClauses? = some (Clause.editAll [] es) ∧
    (empty.editAll es).links.IsForest ∧
    ∀ id, id < (empty.editAll es).slots.length ↔
      ∃! route, (empty.editAll es).links.Reaches route id := by
  have hbuilt : empty.editAll es = empty.addAll (Clause.editAll [] es) := editAll_addAll [] es
  have hforest := isForest_addAll (Clause.editAll [] es)
  rw [hbuilt]
  refine ⟨toClauses?_addAll _, hforest, fun id => ⟨fun hid => ?_, fun hroute => ?_⟩⟩
  · refine hforest.existsUnique_route ?_
    rwa [links, List.length_map]
  · have hid := hforest.lt_of_reaches hroute.choose_spec.1
    rwa [links, List.length_map] at hid

/-- A group moved under a group: `1` holds the group `2` with the leaf `3`, and the leaf `4`. -/
example (l : Leaf σ κ) :
    (empty.editAll [.add (.leaf .and l),
      .graft [.graft [.add (.leaf .and l)] .or, .add (.leaf .or l)] .and]).links =
      ⟨[⟨none, []⟩, ⟨none, [2, 4]⟩, ⟨some 1, [3]⟩, ⟨some 2, []⟩, ⟨some 1, []⟩], [0, 1]⟩ := rfl

end ConditionArena

end EntityQuery
