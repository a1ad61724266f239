import EntityQuery.Keyed
import Mathlib.Data.List.Nodup
import Mathlib.Data.List.Perm.Basic
import Mathlib.Data.String.Basic

/-! # Items by name

A list sorted by name has each name once, so it is a map: what stands under a name does not depend
on where it stands. -/

namespace EntityQuery.Keyed

variable {α : Type} {ps : List (String × α)} {p : String × α}

/-- Nothing comes in but what is put. -/
theorem mem_of_mem_put {name : String} {a : α} (h : p ∈ put name a ps) :
    p = (name, a) ∨ p ∈ ps := by
  induction ps with
  | nil => exact .inl (List.mem_singleton.1 h)
  | cons q qs ih =>
    rw [put] at h
    split at h
    · exact List.mem_cons.1 h
    · split at h
      · exact (List.mem_cons.1 h).imp_right (List.mem_cons_of_mem q)
      · rcases List.mem_cons.1 h with rfl | h
        · exact .inr List.mem_cons_self
        · exact (ih h).imp_right (List.mem_cons_of_mem q)

/-- A sorted list has no other items than those it was made of. -/
theorem mem_of_mem_ofList (h : p ∈ ofList ps) : p ∈ ps := by
  suffices hfold : ∀ sorted, p ∈ ps.foldl (fun sorted p => put p.1 p.2 sorted) sorted →
      p ∈ sorted ∨ p ∈ ps from (hfold [] h).resolve_left List.not_mem_nil
  clear h
  induction ps with
  | nil => exact fun sorted h => .inl h
  | cons q qs ih =>
    intro sorted h
    rcases ih (put q.1 q.2 sorted) h with h | h
    · rcases mem_of_mem_put h with rfl | h
      · exact .inr List.mem_cons_self
      · exact .inl h
    · exact .inr (List.mem_cons_of_mem q h)

/-- The names of a list in their order, each once. -/
def Sorted (ps : List (String × α)) : Prop := ps.Pairwise fun p q => p.1 < q.1

/-- No name occurs twice. -/
theorem Sorted.nodup (h : Sorted ps) : (ps.map Prod.fst).Nodup := by
  rw [List.Nodup, List.pairwise_map]
  exact h.imp ne_of_lt

/-- What is put goes to its place. -/
theorem Sorted.put {name : String} {a : α} (h : Sorted ps) : Sorted (put name a ps) := by
  induction ps with
  | nil => exact List.pairwise_singleton _ _
  | cons q qs ih =>
    obtain ⟨hq, hqs⟩ := List.pairwise_cons.1 h
    rw [Keyed.put]
    split
    · rename_i hlt
      refine List.pairwise_cons.2 ⟨List.forall_mem_cons.2 ⟨hlt, fun p hp => ?_⟩, h⟩
      exact lt_trans hlt (hq p hp)
    · rename_i hle
      split
      · rename_i hname
        exact List.pairwise_cons.2 ⟨fun p hp => hname ▸ hq p hp, hqs⟩
      · rename_i hne
        have hlt : q.1 < name := lt_of_le_of_ne (not_lt.1 hle) hne
        refine List.pairwise_cons.2 ⟨fun p hp => ?_, ih hqs⟩
        rcases mem_of_mem_put hp with rfl | hp
        · exact hlt
        · exact hq p hp

/-- A new name adds an item. -/
theorem put_perm {name : String} {a : α} (h : name ∉ ps.map Prod.fst) :
    (put name a ps).Perm ((name, a) :: ps) := by
  induction ps with
  | nil => exact .refl _
  | cons q qs ih =>
    obtain ⟨hq, hqs⟩ := not_or.1 (mt List.mem_cons.2 h)
    rw [put, if_neg (Ne.symm hq)]
    split
    · exact .refl _
    · exact ((ih hqs).cons q).trans (.swap _ _ _)

/-- Names that are there once stay, whatever order they were stored in. -/
theorem ofList_perm (h : (ps.map Prod.fst).Nodup) : (ofList ps).Perm ps := by
  suffices hfold : ∀ sorted, ((sorted ++ ps).map Prod.fst).Nodup →
      (ps.foldl (fun sorted p => put p.1 p.2 sorted) sorted).Perm (sorted ++ ps) from hfold [] h
  clear h
  induction ps with
  | nil => exact fun sorted _ => .of_eq (List.append_nil sorted).symm
  | cons q qs ih =>
    intro sorted h
    have hmiddle : (sorted ++ q :: qs).Perm (q :: (sorted ++ qs)) := List.perm_middle
    have hnodup := (hmiddle.map Prod.fst).nodup_iff.1 h
    have hq : q.1 ∉ sorted.map Prod.fst := fun hmem =>
      (List.nodup_cons.1 hnodup).1 (((List.sublist_append_left sorted qs).map _).subset hmem)
    have hput : (put q.1 q.2 sorted ++ qs).Perm (q :: (sorted ++ qs)) :=
      (put_perm hq).append_right qs
    exact (ih _ ((hput.map Prod.fst).nodup_iff.2 hnodup)).trans (hput.trans hmiddle.symm)

/-- What is put is found by its name, and everything else as before. -/
theorem find?_put (name other : String) (a : α) (ps : List (String × α)) :
    (put name a ps).find? (fun q => q.1 = other) =
      if name = other then some (name, a) else ps.find? fun q => q.1 = other := by
  induction ps with
  | nil => by_cases h : name = other <;> simp [put, h]
  | cons q qs ih =>
    rw [put]
    split
    · by_cases h : name = other <;> simp [h]
    · split
      · rename_i hq
        by_cases h : name = other <;> simp [h, hq]
      · rename_i hq
        by_cases hqo : q.1 = other
        · have hne : name ≠ other := fun h => hq (hqo.trans h.symm)
          simp [hqo, hne]
        · simp [hqo, ih]

/-- What stands under a name that is there once. -/
theorem find?_eq_some_iff (h : (ps.map Prod.fst).Nodup) {name : String} :
    ps.find? (fun q => q.1 = name) = some p ↔ p ∈ ps ∧ p.1 = name := by
  constructor
  · intro hp
    exact ⟨List.mem_of_find?_eq_some hp, by simpa using List.find?_some hp⟩
  · rintro ⟨hp, rfl⟩
    have hsome : (ps.find? fun q => q.1 = p.1).isSome :=
      List.find?_isSome.2 ⟨p, hp, decide_eq_true rfl⟩
    obtain ⟨q, hq⟩ := Option.isSome_iff_exists.1 hsome
    have hname : q.1 = p.1 := by simpa using List.find?_some hq
    rw [hq, List.inj_on_of_nodup_map h (List.mem_of_find?_eq_some hq) hp hname]

end EntityQuery.Keyed
