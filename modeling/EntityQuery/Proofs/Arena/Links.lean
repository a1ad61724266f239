import Mathlib.Data.List.Nodup

/-! # Links in an arena

An arena keeps trees in slots, and its links say which slot is above which.  If the links agree in
both directions and lead forward, the slots are a forest (`Links.IsForest`): one route leads to
every slot, and there are no others (`Links.IsForest.existsUnique_route`). -/

namespace EntityQuery

/-- The slot above a slot, and the slots below it in their order. -/
structure Link where
  parent? : Option Nat
  children : List Nat
deriving DecidableEq

/-- The links of an arena without what its slots hold. -/
structure Links where
  slots : List Link
  roots : List Nat

namespace Links

/-- The slot above `id`, if there is one; nothing is known of a slot that is not there. -/
def parentAt? (a : Links) (id : Nat) : Option (Option Nat) := a.slots[id]?.map Link.parent?

def childrenAt (a : Links) (id : Nat) : List Nat := a.slots[id]?.elim [] Link.children

/-- A route to a slot: its place among the children of the slot before it, and so on up to the place
of a root among the roots. -/
inductive Reaches (a : Links) : List Nat → Nat → Prop
  | root {i id : Nat} (h : a.roots[i]? = some id) : Reaches a [i] id
  | child {route : List Nat} {i id child : Nat} (h : Reaches a route id)
      (hchild : (a.childrenAt id)[i]? = some child) : Reaches a (i :: route) child

/-- Every node has one parent, which knows it as its child and comes before it, or is a root. -/
structure IsForest (a : Links) : Prop where
  root_iff : ∀ id, id ∈ a.roots ↔ a.parentAt? id = some none
  child_iff : ∀ id child, child ∈ a.childrenAt id ↔ a.parentAt? child = some (some id)
  lt : ∀ id, ∀ child ∈ a.childrenAt id, id < child
  nodup_roots : a.roots.Nodup
  nodup_children : ∀ id, (a.childrenAt id).Nodup

variable {a : Links} {id child : Nat}

theorem lt_of_parentAt? {parent? : Option Nat} (h : a.parentAt? id = some parent?) :
    id < a.slots.length := by
  obtain ⟨l, hl, -⟩ := Option.map_eq_some_iff.1 h
  exact (List.getElem?_eq_some_iff.1 hl).1

theorem lt_of_mem_childrenAt (h : child ∈ a.childrenAt id) : id < a.slots.length := by
  by_contra hid
  rw [childrenAt, List.getElem?_eq_none (Nat.le_of_not_lt hid)] at h
  exact List.not_mem_nil h

/-! ## Routes -/

theorem place_unique {ids : List Nat} (h : ids.Nodup) {i j : Nat} (hi : ids[i]? = some id)
    (hj : ids[j]? = some id) : i = j :=
  (List.getElem?_inj (List.getElem?_eq_some_iff.1 hi).1 h).1 (hi.trans hj.symm)

namespace IsForest

/-- Whatever can be reached is a slot. -/
theorem lt_of_reaches (h : a.IsForest) {route : List Nat} (hr : a.Reaches route id) :
    id < a.slots.length := by
  cases hr with
  | root hi => exact lt_of_parentAt? ((h.root_iff id).1 (List.mem_of_getElem? hi))
  | child _ hi => exact lt_of_parentAt? ((h.child_iff _ id).1 (List.mem_of_getElem? hi))

/-- The last step of a route to a root goes to the roots, and that of a route to any other slot to
the slot above it; so routes are unique because they are up to there. -/
theorem existsUnique_route (h : a.IsForest) (hid : id < a.slots.length) :
    ∃! route, a.Reaches route id := by
  induction id using Nat.strongRecOn with
  | ind id ih =>
    obtain ⟨parent?, hparent⟩ : ∃ parent?, a.parentAt? id = some parent? :=
      ⟨_, by rw [parentAt?, List.getElem?_eq_getElem hid, Option.map_some]⟩
    cases parent? with
    | none =>
      obtain ⟨i, hi⟩ := List.mem_iff_getElem?.1 ((h.root_iff id).2 hparent)
      refine ⟨[i], .root hi, fun route hroute => ?_⟩
      cases hroute with
      | root hj => rw [place_unique h.nodup_roots hj hi]
      | child _ hj =>
        have habove := (h.child_iff _ id).1 (List.mem_of_getElem? hj)
        rw [hparent] at habove
        cases habove
    | some above =>
      have hmem := (h.child_iff above id).2 hparent
      have hlt : above < id := h.lt above id hmem
      obtain ⟨route, hroute, hunique⟩ := ih above hlt (Nat.lt_trans hlt hid)
      obtain ⟨i, hi⟩ := List.mem_iff_getElem?.1 hmem
      refine ⟨i :: route, .child hroute hi, fun route' hroute' => ?_⟩
      cases hroute' with
      | root hj =>
        have hroot := (h.root_iff id).1 (List.mem_of_getElem? hj)
        rw [hparent] at hroot
        cases hroot
      | child hr hj =>
        have habove := (h.child_iff _ id).1 (List.mem_of_getElem? hj)
        obtain rfl := Option.some.inj (Option.some.inj (hparent.symm.trans habove))
        rw [hunique _ hr, place_unique (h.nodup_children above) hj hi]

end IsForest

/-! ## Trees side by side -/

theorem getElem?_slots {α : Type} (link : α → Link) (before after : List α) (s : α) :
    ((before ++ s :: after).map link)[before.length]? = some (link s) := by
  rw [List.getElem?_map, List.getElem?_append_right (Nat.le_refl _), Nat.sub_self,
    List.getElem?_cons_zero, Option.map_some]

/-- A slot is patched without a change to those around it. -/
theorem modify_slots {α : Type} (f : α → α) (before after : List α) (s : α) :
    (before ++ s :: after).modify before.length f = before ++ f s :: after := by
  induction before with
  | nil => rfl
  | cons b before ih => exact congrArg (b :: ·) ih

/-- The slots from `first` up to `last` hold the trees that start at `tops`, under `parent?`. -/
structure Spans (a : Links) (parent? : Option Nat) (tops : List Nat) (first last : Nat) : Prop where
  le : first ≤ last
  top : ∀ id ∈ tops, first ≤ id ∧ id < last ∧ a.parentAt? id = some parent?
  nodup_tops : tops.Nodup
  above : ∀ id, first ≤ id → id < last → id ∈ tops ∨
    ∃ above, id ∈ a.childrenAt above ∧ a.parentAt? id = some (some above)
  below : ∀ id, first ≤ id → id < last → ∀ child ∈ a.childrenAt id,
    id < child ∧ a.parentAt? child = some (some id)
  nodup_children : ∀ id, first ≤ id → id < last → (a.childrenAt id).Nodup

namespace Spans

variable {parent? : Option Nat} {tops tops' : List Nat} {first middle last : Nat}

theorem nil : a.Spans parent? [] first first where
  le := Nat.le_refl first
  top := nofun
  nodup_tops := .nil
  above _ hfirst hlast := absurd hlast (Nat.not_lt_of_le hfirst)
  below _ hfirst hlast := absurd hlast (Nat.not_lt_of_le hfirst)
  nodup_children _ hfirst hlast := absurd hlast (Nat.not_lt_of_le hfirst)

/-- A slot with the trees behind it that its link names. -/
theorem node (h : a.slots[first]? = some ⟨parent?, tops⟩)
    (hbelow : a.Spans (some first) tops (first + 1) last) :
    a.Spans parent? [first] first last := by
  have hparent : a.parentAt? first = some parent? := by rw [parentAt?, h, Option.map_some]
  have hchildren : a.childrenAt first = tops := by rw [childrenAt, h, Option.elim_some]
  have hcases : ∀ id, first ≤ id → id = first ∨ first + 1 ≤ id := by omega
  refine {
    le := Nat.le_of_succ_le hbelow.le
    top := List.forall_mem_singleton.2 ⟨Nat.le_refl first, hbelow.le, hparent⟩
    nodup_tops := List.nodup_singleton first
    above := fun id hfirst hlast => ?_
    below := fun id hfirst hlast => ?_
    nodup_children := fun id hfirst hlast => ?_ }
  · rcases hcases id hfirst with rfl | hid
    · exact .inl (List.mem_singleton_self id)
    · rcases hbelow.above id hid hlast with htop | habove
      · exact .inr ⟨first, hchildren.symm ▸ htop, (hbelow.top id htop).2.2⟩
      · exact .inr habove
  · rcases hcases id hfirst with rfl | hid
    · rw [hchildren]
      intro child hchild
      obtain ⟨hlt, -, habove⟩ := hbelow.top child hchild
      exact ⟨hlt, habove⟩
    · exact hbelow.below id hid hlast
  · rcases hcases id hfirst with rfl | hid
    · exact hchildren.symm ▸ hbelow.nodup_tops
    · exact hbelow.nodup_children id hid hlast

/-- Trees one behind the other. -/
theorem append (h : a.Spans parent? tops first middle) (h' : a.Spans parent? tops' middle last) :
    a.Spans parent? (tops ++ tops') first last := by
  have hcases : ∀ id, id < middle ∨ middle ≤ id := fun id => Nat.lt_or_ge id middle
  refine {
    le := Nat.le_trans h.le h'.le
    top := ?_
    nodup_tops := ?_
    above := fun id hfirst hlast => ?_
    below := fun id hfirst hlast => ?_
    nodup_children := fun id hfirst hlast => ?_ }
  · refine List.forall_mem_append.2 ⟨fun id hid => ?_, fun id hid => ?_⟩
    · obtain ⟨hfirst, hlast, hparent⟩ := h.top id hid
      exact ⟨hfirst, Nat.lt_of_lt_of_le hlast h'.le, hparent⟩
    · obtain ⟨hfirst, hlast, hparent⟩ := h'.top id hid
      exact ⟨Nat.le_trans h.le hfirst, hlast, hparent⟩
  · refine h.nodup_tops.append h'.nodup_tops fun id hid hid' => ?_
    exact absurd (h.top id hid).2.1 (Nat.not_lt_of_le (h'.top id hid').1)
  · rcases hcases id with hid | hid
    · exact (h.above id hfirst hid).imp_left (List.mem_append_left tops')
    · exact (h'.above id hid hlast).imp_left (List.mem_append_right tops)
  · rcases hcases id with hid | hid
    · exact h.below id hfirst hid
    · exact h'.below id hid hlast
  · rcases hcases id with hid | hid
    · exact h.nodup_children id hfirst hid
    · exact h'.nodup_children id hid hlast

/-- Trees at the roots that take up all slots are a forest. -/
theorem isForest (h : a.Spans none a.roots 0 a.slots.length) : a.IsForest where
  root_iff id := by
    refine ⟨fun hid => (h.top id hid).2.2, fun hid => ?_⟩
    rcases h.above id (Nat.zero_le id) (lt_of_parentAt? hid) with hroot | ⟨above, -, habove⟩
    · exact hroot
    · rw [hid] at habove
      cases habove
  child_iff id child := by
    refine ⟨fun hchild => ?_, fun hchild => ?_⟩
    · exact (h.below id (Nat.zero_le id) (lt_of_mem_childrenAt hchild) child hchild).2
    · rcases h.above child (Nat.zero_le child) (lt_of_parentAt? hchild) with hroot | habove
      · rw [(h.top child hroot).2.2] at hchild
        cases hchild
      · obtain ⟨above, hmem, habove⟩ := habove
        obtain rfl := Option.some.inj (Option.some.inj (hchild.symm.trans habove))
        exact hmem
  lt id child hchild :=
    (h.below id (Nat.zero_le id) (lt_of_mem_childrenAt hchild) child hchild).1
  nodup_roots := h.nodup_tops
  nodup_children id := by
    by_cases hid : id < a.slots.length
    · exact h.nodup_children id (Nat.zero_le id) hid
    · rw [childrenAt, List.getElem?_eq_none (Nat.le_of_not_lt hid)]
      exact .nil

end Spans

end Links

end EntityQuery
