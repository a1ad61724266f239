import EntityQuery.Proofs.Evaluation.MappedTuples
import EntityQuery.Proofs.Session.Pages
import EntityQuery.Proofs.Value.TypedOrder

/-! # Sorted groups

Groups are sorted by any number of keys, each in its own direction.  Where the values of every key
are of one type, floating-point numbers apart, the groups come out in the lexicographic order of
their keys, and groups with equal keys as they were before (`GraphQuery.sorted_stably`). -/

namespace EntityQuery

/-! ## The order of keys -/

namespace Value

variable {a b : Value}

/-- A value comes before another one by their order, nulls first, and from the other side if the
direction is descending. -/
def Precedes : SortOrder → Value → Value → Prop
  | .asc, a, b => a = .null ∧ b ≠ .null ∨ a.compare? b = some .lt
  | .desc, a, b => a ≠ .null ∧ b = .null ∨ a.compare? b = some .gt

/-- Of two lists of keys, one comes before the other where they first differ. -/
inductive KeysPrecede : List SortOrder → List Value → List Value → Prop
  | here {sort : SortOrder} {sorts : List SortOrder} {a b : Value} {as bs : List Value}
      (h : a.Precedes sort b) : KeysPrecede (sort :: sorts) (a :: as) (b :: bs)
  | there {sort : SortOrder} {sorts : List SortOrder} {a b : Value} {as bs : List Value}
      (h : a.equals b) (hrest : KeysPrecede sorts as bs) :
      KeysPrecede (sort :: sorts) (a :: as) (b :: bs)

/-- Null comes before every value. -/
theorem compareKey_eq_lt_iff :
    compareKey a b = .lt ↔ a = .null ∧ b ≠ .null ∨ a.compare? b = some .lt := by
  cases a with
  | null => cases b <;> simp [compareKey, isNull, compare?]
  | scalar s =>
    cases b with
    | scalar r => cases h : s.compare? r <;> simp [compareKey, isNull, compare?, h]
    | null | list | record | object => simp [compareKey, isNull, compare?]
  | list | record | object => cases b <;> simp [compareKey, isNull, compare?]

/-- In descending order the values are compared the other way around. -/
theorem compareAlong_eq_lt_iff (sort : SortOrder) :
    compareAlong sort a b = .lt ↔ a.Precedes sort b := by
  cases sort with
  | asc => exact compareKey_eq_lt_iff
  | desc =>
    have hswap : (a.compare? b).map Ordering.swap = some .lt ↔ a.compare? b = some .gt := by
      rcases a.compare? b with _ | _ | _ | _ <;> simp
    rw [compareAlong, ← compareKey_swap, compareKey_eq_lt_iff, compare?_swap a b, hswap, and_comm]
    rfl

/-- Of two keys the earlier one is that with the earlier value where they first differ. -/
theorem compareKeys_eq_lt_iff {as bs : List Value} {types : List ScalarType}
    {sorts : List SortOrder} (hf : ∀ type ∈ types, type.isFloating = false)
    (has : List.Forall₂ HasType as types) (hbs : List.Forall₂ HasType bs types) :
    compareKeys sorts as bs = .lt ↔ KeysPrecede sorts as bs := by
  induction has generalizing sorts bs with
  | nil =>
    cases hbs
    cases sorts <;> exact ⟨nofun, nofun⟩
  | @cons a type as types ha _ ih =>
    obtain ⟨hft, hf⟩ := List.forall_mem_cons.1 hf
    cases hbs with
    | @cons b _ bs _ hb hbs =>
      cases sorts with
      | nil => exact ⟨nofun, nofun⟩
      | cons sort sorts =>
        rw [compareKeys_cons, Ordering.then_eq_lt, compareAlong_eq_lt_iff,
          compareAlong_eq_eq_iff ha hb hft, ih hf hbs]
        constructor
        · rintro (h | ⟨h, hrest⟩)
          · exact .here h
          · exact .there h hrest
        · rintro (h | ⟨h, hrest⟩)
          · exact .inl h
          · exact .inr ⟨h, hrest⟩

end Value

/-! ## Sorting by keys -/

section

variable {α : Type}

/-- Items are put in the order of their keys and otherwise left as they were: items with equal keys
follow one another as they did before. -/
structure SortsStably (sorts : List SortOrder) (key : α → List Value) (as sorted : List α) :
    Prop where
  perm : sorted.Perm as
  ordered : sorted.Pairwise fun a b =>
    Value.KeysPrecede sorts (key a) (key b) ∨ Value.equalLists (key a) (key b)
  stable : ∀ a ∈ as, sorted.filter (fun b => Value.equalLists (key a) (key b)) =
    as.filter fun b => Value.equalLists (key a) (key b)

variable {sorts : List SortOrder} {key : α → List Value} {types : List ScalarType} {as : List α}

/-- One list of keys must come before another. -/
def keysBefore (sorts : List SortOrder) (key : α → List Value) (a b : α) : Bool :=
  Value.compareKeys sorts (key a) (key b) = .lt

/-- What need not come first may come last. -/
theorem keysBefore_eq_false_iff {a b : α} :
    keysBefore sorts key a b = false ↔ (Value.compareKeys sorts (key b) (key a)).isLE := by
  rw [keysBefore, decide_eq_false_iff_not, Value.compareKeys_swap sorts (key a) (key b)]
  cases Value.compareKeys sorts (key a) (key b) <;> decide

/-- Sorting by keys that can be compared puts every group behind those that come before it. -/
theorem pairwise_stableSort_keysBefore (hf : ∀ type ∈ types, type.isFloating = false)
    (hkeys : ∀ a ∈ as, List.Forall₂ Value.HasType (key a) types) :
    (stableSort (keysBefore sorts key) as).Pairwise fun a b =>
      (Value.compareKeys sorts (key a) (key b)).isLE := by
  simp only [← keysBefore_eq_false_iff]
  refine pairwise_stableSort (motive := fun a => List.Forall₂ Value.HasType (key a) types) ?_ ?_
    hkeys
  · intro a b _ _ hab
    rw [keysBefore_eq_false_iff, of_decide_eq_true hab]
    rfl
  · intro a b c ha hb hc hab hbc
    rw [keysBefore_eq_false_iff] at hab hbc ⊢
    exact Value.isLE_compareKeys_trans hf hc hb ha hbc hab

/-- The sort by typed keys, of which there is one for every direction. -/
theorem sortsStably_stableSort (hf : ∀ type ∈ types, type.isFloating = false)
    (hlength : ∀ a ∈ as, (key a).length = sorts.length)
    (hkeys : ∀ a ∈ as, List.Forall₂ Value.HasType (key a) types) :
    SortsStably sorts key as (stableSort (keysBefore sorts key) as) where
  perm := perm_stableSort as
  ordered := by
    refine (pairwise_stableSort_keysBefore hf hkeys).imp_of_mem fun {a b} ha hb hab => ?_
    have hmem : a ∈ as := (perm_stableSort as).mem_iff.1 ha
    have ha := hkeys a hmem
    have hb := hkeys b ((perm_stableSort as).mem_iff.1 hb)
    have hsorts := (hlength a hmem).symm.trans ha.length_eq
    rw [← Value.compareKeys_eq_lt_iff hf ha hb, ← Value.compareKeys_eq_eq_iff hf ha hb hsorts]
    cases ho : Value.compareKeys sorts (key a) (key b) with
    | lt => exact .inl rfl
    | eq => exact .inr rfl
    | gt => simp [ho] at hab
  stable a hmem := by
    have ha := hkeys a hmem
    have hsorts := (hlength a hmem).symm.trans ha.length_eq
    refine filter_stableSort fun b hb c hc hab hac => keysBefore_eq_false_iff.2 ?_
    have hb := hkeys b hb
    have hc := hkeys c hc
    rw [← Value.compareKeys_eq_eq_iff hf ha hb hsorts] at hab
    rw [Value.equalLists_comm, ← Value.compareKeys_eq_eq_iff hf hc ha hsorts] at hac
    exact Value.isLE_compareKeys_trans hf hc ha hb (by rw [hac]; rfl) (by rw [hab]; rfl)

end

/-! ## The groups of a query -/

variable {E : Type}

theorem Expression.length_of_evaluateAll {frames : Frames} {t : Tuple} {es : List Expression}
    {vs : List Value} (h : evaluateAll frames t es = .ok vs) : vs.length = es.length := by
  induction es generalizing vs with
  | nil =>
    obtain rfl := Except.ok.inj h
    rfl
  | cons e es ih =>
    obtain ⟨v, -, h⟩ := Result.bind_eq_ok.1 h
    obtain ⟨rest, hrest, h⟩ := Result.bind_eq_ok.1 h
    obtain rfl := Result.pure_eq_ok.1 h
    rw [List.length_cons, List.length_cons, ih hrest]

namespace Plan

variable {p : Plan E} {frames : Frames} {gs : List (List Tuple)}
  {key : List Tuple → List Value}

/-- What a group is sorted by: the values of the orders on the tuple that stands for it. -/
def sortKey (p : Plan E) (frames : Frames) (g : List Tuple) : Result (List Value) :=
  Expression.evaluateAll frames (p.representative g) (p.orders.map Sorting.expression)

theorem sortKeys_eq_map (h : ∀ g ∈ gs, p.sortKey frames g = .ok (key g)) :
    p.sortKeys frames gs = .ok (gs.map fun g => (key g, g)) := by
  induction gs with
  | nil => rfl
  | cons g gs ih =>
    obtain ⟨hg, hgs⟩ := List.forall_mem_cons.1 h
    rw [sortKeys, ih hgs, ← sortKey, hg]
    rfl

/-- The evaluation sorts groups stably by their keys. -/
theorem sorted_eq_stableSort (h : ∀ g ∈ gs, p.sortKey frames g = .ok (key g)) :
    p.sorted frames gs = .ok (stableSort (keysBefore (p.orders.map Sorting.sort) key) gs) := by
  rw [sorted]
  split
  · rename_i hnone
    refine congrArg Except.ok (stableSort_eq_self fun g _ g' _ => ?_).symm
    rw [List.isEmpty_iff.1 hnone]
    rfl
  · rw [sortKeys_eq_map h]
    refine congrArg Except.ok ?_
    change (stableSort _ (gs.map fun g => (key g, g))).map Prod.snd = _
    rw [stableSort_map fun _ _ => rfl, List.map_map]
    exact List.map_id _

/-- Groups with typed keys are sorted by them. -/
theorem exists_sorted {types : List ScalarType} (h : ∀ g ∈ gs, p.sortKey frames g = .ok (key g))
    (hf : ∀ type ∈ types, type.isFloating = false)
    (hkeys : ∀ g ∈ gs, List.Forall₂ Value.HasType (key g) types) :
    ∃ sorted, p.sorted frames gs = .ok sorted ∧
      SortsStably (p.orders.map Sorting.sort) key gs sorted := by
  refine ⟨_, sorted_eq_stableSort h, sortsStably_stableSort hf (fun g hg => ?_) hkeys⟩
  rw [Expression.length_of_evaluateAll (h g hg), List.length_map, List.length_map]

end Plan

namespace GraphQuery

variable [Schema E] {purpose : Purpose} {d : Draft E (ScopedCondition E)} {q : GraphQuery E}

/-- What a compiled query is sorted by are paths, which have a value in every tuple. -/
theorem exists_sortKey (hq : ofDraft purpose d = .ok q) (frames : Frames) (g : List Tuple) :
    ∃ key, q.plan.sortKey frames g = .ok key := by
  obtain ⟨known, hc, hknown⟩ := exists_valid_scope hq
  exact Expression.evaluateAll_ok (List.forall_mem_map.2 (wellFormed_orders hknown hc.orders))
    frames (q.plan.representative g)

/-- A compiled query always has its groups. -/
theorem grouped_ok (hq : ofDraft purpose d = .ok q) (frames : Frames) (ts : List Tuple) :
    ∃ gs, q.plan.grouped frames ts = .ok gs := by
  rw [Plan.grouped]
  split
  · exact exists_groupTuples (wellFormed_groups hq) ts
  · exact ⟨_, rfl⟩

/-- Where the keys of its groups are typed, any query, inside any frames, sorts the groups by them
before there are rows.  A compiled query has groups and keys whatever its tuples are. -/
theorem sorted_stably {data : Dataset} {frames : Frames} {ts : List Tuple}
    (hts : q.filtered data frames = .ok ts) :
    (∀ (gs : List (List Tuple)) (key : List Tuple → List Value) (types : List ScalarType),
      q.plan.grouped frames ts = .ok gs → (∀ g ∈ gs, q.plan.sortKey frames g = .ok (key g)) →
      (∀ type ∈ types, type.isFloating = false) →
      (∀ g ∈ gs, List.Forall₂ Value.HasType (key g) types) →
      ∃ sorted, q.plan.sorted frames gs = .ok sorted ∧
        SortsStably (q.plan.orders.map Sorting.sort) key gs sorted ∧
        q.meaning data frames = q.plan.rows frames (q.plan.window sorted)) ∧
    ∀ (purpose : Purpose) (d : Draft E (ScopedCondition E)), ofDraft purpose d = .ok q →
      ∃ (gs : List (List Tuple)) (key : List Tuple → List Value),
        q.plan.grouped frames ts = .ok gs ∧ ∀ g, q.plan.sortKey frames g = .ok (key g) := by
  constructor
  · intro gs key types hgs hkey hf hkeys
    obtain ⟨sorted, hsorted, hstable⟩ := Plan.exists_sorted hkey hf hkeys
    refine ⟨sorted, hsorted, hstable, ?_⟩
    rw [meaning_eq]
    change (q.filtered data frames >>= fun ts => _) = _
    rw [hts]
    change (q.plan.grouped frames ts >>= fun gs => _) = _
    rw [hgs]
    change (q.plan.sorted frames gs >>= fun gs => _) = _
    rw [hsorted]
    rfl
  · intro purpose d hq
    obtain ⟨gs, hgs⟩ := grouped_ok hq frames ts
    choose key hkey using exists_sortKey hq frames
    exact ⟨gs, key, hgs, hkey⟩

end GraphQuery

/-! ## Owners by age and name -/

namespace Kennel

/-- The oldest first, and owners of one age by their names. -/
def ownersByAgeAndName : Draft Kennel (ScopedCondition Kennel) where
  outline := {
    root := .owner
    orders := [⟨"age", .desc⟩, ⟨"name", .asc⟩] }

/-- Eve comes last, since her age is not known. -/
theorem sorted_stably_by_age : ∃ q ts gs key sorted,
    GraphQuery.ofDraft .rows ownersByAgeAndName = .ok q ∧ q.filtered ages.data [] = .ok ts ∧
    q.plan.grouped [] ts = .ok gs ∧
    (∀ g ∈ gs, List.Forall₂ Value.HasType (key g) [.integer .long, .string]) ∧
    q.plan.sorted [] gs = .ok sorted ∧ SortsStably [.desc, .asc] key gs sorted := by
  have hrun : (GraphQuery.ofDraft .rows ownersByAgeAndName).bind (fun q =>
      (q.filtered ages.data []).bind fun ts => (q.plan.grouped [] ts).map fun gs =>
        (q.plan.orders.map Sorting.sort, decide (∀ g ∈ gs, ∀ ks ∈ (q.plan.sortKey [] g).toOption,
          List.Forall₂ Value.HasType ks [.integer .long, .string]))) =
        .ok ([.desc, .asc], true) := by
    decide +kernel
  obtain ⟨q, hq, hrun⟩ := Result.bind_eq_ok.1 hrun
  obtain ⟨ts, hts, hrun⟩ := Result.bind_eq_ok.1 hrun
  obtain ⟨gs, hgs, hrun⟩ := Result.map_eq_ok.1 hrun
  obtain ⟨hsorts, htyped⟩ := Prod.mk.inj hrun
  obtain ⟨hsorted, hcompiled⟩ := GraphQuery.sorted_stably hts
  obtain ⟨gs', key, hgs', hkey⟩ := hcompiled .rows ownersByAgeAndName hq
  obtain rfl := Except.ok.inj (hgs.symm.trans hgs')
  have hkeys : ∀ g ∈ gs, List.Forall₂ Value.HasType (key g) [.integer .long, .string] :=
    fun g hg => of_decide_eq_true htyped g hg (key g) (by rw [hkey g]; rfl)
  obtain ⟨sorted, hsort, hstable, -⟩ :=
    hsorted gs key _ hgs (fun g _ => hkey g) (by decide) hkeys
  rw [hsorts] at hstable
  exact ⟨q, ts, gs, key, sorted, hq, hts, hgs, hkeys, hsort, hstable⟩

end Kennel

end EntityQuery
