import EntityQuery.Evaluation.Sort
import Mathlib.Data.List.Basic
import Mathlib.Data.List.Induction

/-! # Stable sorts

A sort by insertion from the end neither loses nor doubles an item.  It puts no item behind one that
it must come before, if the relation that says so is the strict part of a total preorder, and it
keeps the order of items between which the relation makes no difference. -/

namespace EntityQuery

variable {α : Type} {before : α → α → Bool}

/-- The last item is put into what the others were sorted to. -/
theorem reverse_stableSort_concat (as : List α) (a : α) : (stableSort before (as ++ [a])).reverse =
    insertFromEnd before a (stableSort before as).reverse := by
  simp only [stableSort, List.reverse_reverse, List.foldl_append, List.foldl_cons, List.foldl_nil]

/-- Inserting neither loses nor doubles anything. -/
theorem perm_insertFromEnd (a : α) (as : List α) : (insertFromEnd before a as).Perm (a :: as) := by
  induction as with
  | nil => exact .refl _
  | cons b as ih =>
    rw [insertFromEnd]
    split
    · exact (ih.cons b).trans (.swap a b as)
    · exact .refl _

/-- Sorting neither loses nor doubles anything. -/
theorem perm_stableSort (as : List α) : (stableSort before as).Perm as := by
  induction as using List.reverseRecOn with
  | nil => exact .refl _
  | append_singleton as a ih =>
    have hinsert : (stableSort before (as ++ [a])).reverse.Perm
        (a :: (stableSort before as).reverse) := by
      rw [reverse_stableSort_concat]
      exact perm_insertFromEnd a _
    have hbefore : (stableSort before as).reverse.Perm as := (List.reverse_perm _).trans ih
    exact (List.reverse_perm _).symm.trans
      (hinsert.trans ((hbefore.cons a).trans (List.perm_append_singleton a as).symm))

section

variable {motive : α → Prop}

/-- Items that need not come before one another are given from the end. -/
theorem pairwise_insertFromEnd
    (hasymm : ∀ a b, motive a → motive b → before a b → before b a = false)
    (htrans : ∀ a b c, motive a → motive b → motive c → before a b = false →
      before b c = false → before a c = false) {a : α} {as : List α} (ha : motive a)
    (has : ∀ b ∈ as, motive b) (h : as.Pairwise fun b c => before b c = false) :
    (insertFromEnd before a as).Pairwise fun b c => before b c = false := by
  induction as with
  | nil => exact List.pairwise_singleton _ _
  | cons b as ih =>
    obtain ⟨hb, has⟩ := List.forall_mem_cons.1 has
    obtain ⟨hfirst, hrest⟩ := List.pairwise_cons.1 h
    rw [insertFromEnd]
    split
    · rename_i hbefore
      refine List.pairwise_cons.2 ⟨fun c hc => ?_, ih has hrest⟩
      rcases List.mem_cons.1 ((perm_insertFromEnd a as).mem_iff.1 hc) with rfl | hc
      · exact hasymm c b ha hb hbefore
      · exact hfirst c hc
    · rename_i hbefore
      have hnot : before a b = false := Bool.eq_false_iff.2 hbefore
      refine List.pairwise_cons.2 ⟨fun c hc => ?_, h⟩
      rcases List.mem_cons.1 hc with rfl | hc
      · exact hnot
      · exact htrans a b c ha hb (has c hc) hnot (hfirst c hc)

/-- No item stands behind one that it must come before. -/
theorem pairwise_stableSort
    (hasymm : ∀ a b, motive a → motive b → before a b → before b a = false)
    (htrans : ∀ a b c, motive a → motive b → motive c → before a b = false →
      before b c = false → before a c = false) {as : List α} (has : ∀ a ∈ as, motive a) :
    (stableSort before as).Pairwise fun a b => before b a = false := by
  rw [← List.pairwise_reverse]
  induction as using List.reverseRecOn with
  | nil => exact .nil
  | append_singleton as a ih =>
    obtain ⟨has, ha⟩ := List.forall_mem_append.1 has
    rw [reverse_stableSort_concat]
    refine pairwise_insertFromEnd hasymm htrans (ha a (List.mem_singleton_self a)) ?_ (ih has)
    exact fun b hb => has b ((perm_stableSort as).mem_iff.1 (List.mem_reverse.1 hb))

end

section

variable {p : α → Bool} {as : List α}

/-- Among those that do not come before each other, what is inserted stays in front. -/
theorem filter_insertFromEnd {a : α} (h : ∀ b ∈ as, p a → p b → before a b = false) :
    (insertFromEnd before a as).filter p = (a :: as).filter p := by
  induction as with
  | nil => rfl
  | cons b as ih =>
    obtain ⟨hb, has⟩ := List.forall_mem_cons.1 h
    rw [insertFromEnd]
    split
    · rename_i hbefore
      by_cases ha : p a
      · have hb : ¬p b := fun hpb => by simp [hb ha hpb] at hbefore
        rw [List.filter_cons_of_neg hb, ih has, List.filter_cons_of_pos ha,
          List.filter_cons_of_pos ha, List.filter_cons_of_neg hb]
      · rw [List.filter_cons, ih has, List.filter_cons_of_neg ha, List.filter_cons_of_neg ha,
          List.filter_cons]
    · rfl

/-- Items of which none must come before another keep their order. -/
theorem filter_stableSort (h : ∀ a ∈ as, ∀ b ∈ as, p a → p b → before a b = false) :
    (stableSort before as).filter p = as.filter p := by
  induction as using List.reverseRecOn with
  | nil => rfl
  | append_singleton as a ih =>
    obtain ⟨has, ha⟩ := List.forall_mem_append.1 h
    have hlast : ∀ b ∈ (stableSort before as).reverse, p a → p b → before a b = false := by
      intro b hb
      have hmem : b ∈ as := (perm_stableSort as).mem_iff.1 (List.mem_reverse.1 hb)
      exact ha a (List.mem_singleton_self a) b (List.mem_append_left [a] hmem)
    have hrest : (stableSort before as).filter p = as.filter p :=
      ih fun b hb c hc => has b hb c (List.mem_append_left [a] hc)
    rw [← List.reverse_inj, ← List.filter_reverse, reverse_stableSort_concat,
      filter_insertFromEnd hlast, List.filter_cons, List.filter_reverse, hrest,
      ← List.filter_reverse, ← List.filter_cons, ← List.filter_reverse, List.reverse_append]
    rfl

/-- Where nothing must come before anything else, nothing is moved. -/
theorem stableSort_eq_self (h : ∀ a ∈ as, ∀ b ∈ as, before a b = false) :
    stableSort before as = as := by
  have hall := filter_stableSort (p := fun _ => true) fun a ha b hb _ _ => h a ha b hb
  rwa [List.filter_true, List.filter_true] at hall

end

end EntityQuery
