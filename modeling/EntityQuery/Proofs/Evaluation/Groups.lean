import EntityQuery.Evaluation
import EntityQuery.Proofs.Evaluation.Aggregates
import EntityQuery.Proofs.Kennel
import Mathlib.Data.List.Basic

/-! # Groups

Tuples are put one by one into the groups made so far.  What comes of it is a partition: the first
tuple with all those of its key, in their order, then the first one that is left, and so on.  Keys
must be equal to themselves for that, so there must be no NaN in them (`Plan.grouped_partition`). -/

namespace EntityQuery

/-! ## Classes of items -/

/-- The first item with those behind it that are like it, and so on with what is left. -/
inductive Classes {α : Type} (same : α → α → Bool) : List α → List (List α) → Prop
  | nil : Classes same [] []
  | cons {a : α} {as : List α} {gs : List (List α)}
      (rest : Classes same (as.filter fun b => !same a b) gs) :
      Classes same (a :: as) ((a :: as.filter (same a)) :: gs)

namespace Classes

variable {α : Type} {same : α → α → Bool} {as : List α} {gs : List (List α)}

/-- Classes together are what was classified. -/
theorem flatten_perm (h : Classes same as gs) : gs.flatten.Perm as := by
  induction h with
  | nil => exact .nil
  | @cons a as gs _ ih =>
    rw [List.flatten_cons, List.cons_append]
    exact ((ih.append_left _).trans (List.filter_append_perm (same a) as)).cons a

/-- No class is empty. -/
theorem ne_nil (h : Classes same as gs) : ∀ g ∈ gs, g ≠ [] := by
  induction h with
  | nil => exact nofun
  | cons _ ih => exact List.forall_mem_cons.2 ⟨List.cons_ne_nil _ _, ih⟩

/-- The classes come in the order of their first members. -/
theorem map_head? (h : Classes same as gs) :
    gs.map List.head? = (as.eraseDupsBy fun b a => same a b).map some := by
  induction h with
  | nil => rfl
  | cons _ ih => simp [List.eraseDupsBy_cons, ih]

/-- Of what items are compared by there are as many different ones as there are classes. -/
theorem length_eq {β : Type} {key : α → β} {r : β → β → Bool}
    (h : Classes (fun a b => r (key b) (key a)) as gs) :
    gs.length = ((as.map key).eraseDupsBy r).length := by
  induction h with
  | nil => rfl
  | @cons a as gs _ ih =>
    rw [List.map_cons, List.eraseDupsBy_cons, List.length_cons, List.length_cons, ih,
      List.filter_map]
    simp [Function.comp_def]

theorem mem_of_mem (h : Classes same as gs) {g : List α} (hg : g ∈ gs) {a : α} (ha : a ∈ g) :
    a ∈ as :=
  h.flatten_perm.mem_iff.1 (List.mem_flatten_of_mem hg ha)

variable (htrans : ∀ a b c, same a b → same b c → same a c)

include htrans

/-- Members of different classes are different. -/
theorem pairwise (h : Classes same as gs) :
    gs.Pairwise fun g g' => ∀ a ∈ g, ∀ b ∈ g', same a b = false := by
  induction h with
  | nil => exact .nil
  | @cons a as gs rest ih =>
    refine List.pairwise_cons.2 ⟨fun g hg b hb c hc => ?_, ih⟩
    have hac : same a c = false := by simpa using (List.mem_filter.1 (rest.mem_of_mem hg hc)).2
    rcases List.mem_cons.1 hb with rfl | hb
    · exact hac
    · have hab : same a b := (List.mem_filter.1 hb).2
      refine Bool.eq_false_iff.2 fun hbc => ?_
      rw [htrans a b c hab hbc] at hac
      exact Bool.noConfusion hac

/-- A class is all that is like one of its members, in the order it had. -/
theorem eq_filter (hsymm : ∀ a b, same a b → same b a) (h : Classes same as gs)
    (hself : ∀ a ∈ as, same a a) : ∀ g ∈ gs, ∀ a ∈ g, g = as.filter (same a) := by
  induction h with
  | nil => exact nofun
  | @cons a as gs rest ih =>
    obtain ⟨haa, has⟩ := List.forall_mem_cons.1 hself
    intro g hg b hb
    rcases List.mem_cons.1 hg with rfl | hg
    · have hab : same a b := by
        rcases List.mem_cons.1 hb with rfl | hb
        · exact haa
        · exact (List.mem_filter.1 hb).2
      have hba := hsymm a b hab
      have hlike : ∀ c, same b c = same a c := fun c =>
        Bool.eq_iff_iff.2 ⟨htrans a b c hab, htrans b a c hba⟩
      rw [List.filter_cons_of_pos hba, List.filter_congr fun c _ => hlike c]
    · have hab : same a b = false := by simpa using (List.mem_filter.1 (rest.mem_of_mem hg hb)).2
      have hba : ¬same b a := fun hba => by
        rw [hsymm b a hba] at hab
        exact Bool.noConfusion hab
      rw [ih (fun c hc => has c (List.mem_filter.1 hc).1) g hg b hb, List.filter_filter,
        List.filter_cons_of_neg hba]
      refine List.filter_congr fun c _ => Bool.and_eq_left_iff_imp.2 fun hbc => ?_
      rw [Bool.not_eq_true']
      refine Bool.eq_false_iff.2 fun hac => ?_
      rw [htrans a c b hac (hsymm b c hbc)] at hab
      exact Bool.noConfusion hab

end Classes

/-! ## Groups by keys -/

section

variable (key : Tuple → List Value)

/-- Two tuples have equal keys. -/
def sameKey (t u : Tuple) : Bool := Value.equalLists (key t) (key u)

/-- Tuples of the first key go to the first group, and the others do not see it. -/
theorem foldl_insertKeyed (g : KeyedGroup) (gs : List KeyedGroup) (ts : List Tuple) :
    ts.foldl (fun gs t => insertKeyed (key t) t gs) (g :: gs) =
      (g.1, g.2 ++ ts.filter fun t => Value.equalLists g.1 (key t)) ::
        (ts.filter fun t => !Value.equalLists g.1 (key t)).foldl
          (fun gs t => insertKeyed (key t) t gs) gs := by
  induction ts generalizing g gs with
  | nil => simp
  | cons t ts ih =>
    rw [List.foldl_cons, insertKeyed]
    split
    · rename_i h
      rw [ih]
      simp [h]
    · rename_i h
      rw [ih]
      simp [h]

/-- The first tuple opens a group, which takes all tuples of its key. -/
theorem groupByKey_cons (t : Tuple) (ts : List Tuple) :
    groupByKey ((t :: ts).map fun t => (key t, t)) = (t :: ts.filter (sameKey key t)) ::
      groupByKey ((ts.filter fun u => !sameKey key t u).map fun t => (key t, t)) := by
  simp only [groupByKey, List.foldl_map, List.foldl_cons, insertKeyed, foldl_insertKeyed]
  rfl

/-- Grouping makes one class for each key. -/
theorem classes_groupByKey (ts : List Tuple) :
    Classes (sameKey key) ts (groupByKey (ts.map fun t => (key t, t))) := by
  match ts with
  | [] => exact .nil
  | t :: ts =>
    rw [groupByKey_cons]
    exact .cons (classes_groupByKey _)
termination_by ts.length
decreasing_by exact Nat.lt_succ_of_le (List.length_filter_le _ ts)

end

/-- The groups are a partition of the tuples by their keys. -/
structure PartitionsBy (key : Tuple → List Value) (ts : List Tuple) (gs : List (List Tuple)) :
    Prop where
  /-- Every tuple is in a group, as often as it was there. -/
  perm : gs.flatten.Perm ts
  nonempty : ∀ g ∈ gs, g ≠ []
  /-- The tuples of a group are all those with its key, in the order they had. -/
  members : ∀ g ∈ gs, ∀ t ∈ g, g = ts.filter (sameKey key t)
  distinct : gs.Pairwise fun g g' => ∀ t ∈ g, ∀ u ∈ g', sameKey key t u = false
  firsts : gs.map List.head? = (ts.eraseDupsBy (sameKey key)).map some
  length : gs.length = ((ts.map key).eraseDupsBy Value.equalLists).length

/-- Grouping by keys that equal themselves is a partition. -/
theorem partitionsBy_groupByKey {key : Tuple → List Value} {ts : List Tuple}
    (hnan : ∀ t ∈ ts, Value.anyNaN (key t) = false) :
    PartitionsBy key ts (groupByKey (ts.map fun t => (key t, t))) := by
  have h := classes_groupByKey key ts
  have hcomm : ∀ t u, sameKey key t u = sameKey key u t := fun t u => Value.equalLists_comm _ _
  have hsymm : ∀ t u, sameKey key t u → sameKey key u t := fun t u ht => hcomm t u ▸ ht
  have htrans : ∀ t u v, sameKey key t u → sameKey key u v → sameKey key t v :=
    fun _ _ _ => Value.equalLists_trans
  have hself : ∀ t ∈ ts, sameKey key t t := fun t ht => (Value.equalLists_self_iff _).2 (hnan t ht)
  have hflip : sameKey key = fun t u => Value.equalLists (key u) (key t) := by
    funext t u
    exact hcomm t u
  refine ⟨h.flatten_perm, h.ne_nil, h.eq_filter htrans hsymm hself, h.pairwise htrans, ?_, ?_⟩
  · rw [h.map_head?]
    congr 2
    funext t u
    exact hcomm u t
  · rw [hflip] at h
    exact h.length_eq

/-! ## Counting in groups -/

/-- Counts of groups add up to the count of all. -/
theorem Aggregate.sum_length_arguments (v : Tuple → Value) (gs : List (List Tuple)) :
    (gs.map fun g => (arguments v g).length).foldr (· + ·) 0 =
      (arguments v gs.flatten).length := by
  induction gs with
  | nil => rfl
  | cons g gs ih =>
    rw [List.map_cons, List.foldr_cons, ih, List.flatten_cons, arguments, arguments, arguments,
      List.map_append, List.filter_append, List.length_append]

/-! ## The groups of a query -/

variable {E : Type}

theorem keysOf_eq_map {frames : Frames} {keys : List Expression} {ts : List Tuple}
    {key : Tuple → List Value}
    (h : ∀ t ∈ ts, Expression.evaluateAll frames t keys = .ok (key t)) :
    keysOf frames keys ts = .ok (ts.map fun t => (key t, t)) := by
  induction ts with
  | nil => rfl
  | cons t ts ih =>
    obtain ⟨ht, hts⟩ := List.forall_mem_cons.1 h
    rw [keysOf, ht, ih hts]
    rfl

/-- The groups of a query are a partition of its tuples, and a count of any of its rows adds up to
what it is without groups. -/
theorem Plan.grouped_partition {p : Plan E} {frames : Frames} {ts : List Tuple}
    {key : Tuple → List Value} (hgroups : p.groups ≠ [])
    (hkey : ∀ t ∈ ts, Expression.evaluateAll frames t p.groups = .ok (key t))
    (hnan : ∀ t ∈ ts, Value.anyNaN (key t) = false) :
    ∃ gs, p.grouped frames ts = .ok gs ∧ PartitionsBy key ts gs ∧
      ∀ path : Path, ∃ count : List Tuple → Nat,
        (∀ g, Aggregate.ofGroup .count frames (.path path) g = .ok (.long (count g))) ∧
        (gs.map count).foldr (· + ·) 0 = count ts := by
  have hpartition := partitionsBy_groupByKey hnan
  have hgrouped : p.grouped frames ts = .ok (groupByKey (ts.map fun t => (key t, t))) := by
    have hisGrouped : p.isGrouped := by simp [isGrouped, hgroups]
    rw [grouped, if_pos hisGrouped, groupTuples, if_neg fun h => hgroups (List.isEmpty_iff.1 h),
      keysOf_eq_map hkey]
    rfl
  refine ⟨_, hgrouped, hpartition, fun path => ?_⟩
  refine ⟨fun g => (Aggregate.arguments (path.value frames) g).length,
    fun g => Aggregate.ofGroup_eq .count fun _ _ => rfl, ?_⟩
  rw [Aggregate.sum_length_arguments]
  exact (Aggregate.arguments_perm hpartition.perm).length_eq

namespace Kennel

def byAge : Plan Kennel where
  depth := 0
  root := .owner
  joins := []
  fetches := []
  selections := []
  orders := []
  groups := [.path ageOf]
  first? := none
  max? := none
  resultType? := none

/-- Two of the ages are known, and there is a group of those that are not. -/
theorem grouped_partition_of_ages : ∃ gs, byAge.grouped [] ofThreeAges = .ok gs ∧
    PartitionsBy (fun t => [ageOf.value [] t]) ofThreeAges gs ∧ gs.length = 3 := by
  have hkey : ∀ t ∈ ofThreeAges,
      Expression.evaluateAll [] t byAge.groups = .ok [ageOf.value [] t] := fun _ _ => rfl
  have hnan : ∀ t ∈ ofThreeAges, Value.anyNaN [ageOf.value [] t] = false := by
    decide +kernel
  obtain ⟨gs, hgs, hpartition, -⟩ := Plan.grouped_partition (List.cons_ne_nil _ _) hkey hnan
  exact ⟨gs, hgs, hpartition, hpartition.length.trans (by decide +kernel)⟩

end Kennel

end EntityQuery
