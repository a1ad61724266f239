import EntityQuery.Proofs.Evaluation.Aggregates
import EntityQuery.Proofs.Evaluation.Soundness
import EntityQuery.Proofs.Evaluation.StableSort
import EntityQuery.Proofs.Kennel
import EntityQuery.Proofs.Session.Exchange
import EntityQuery.Session.Memory

/-! # Counting

The query that counts is assembled apart from the query for the rows: it has the same joins, the
same condition and the same groups, but nothing is fetched.  It counts the groups, or else the
tuples with a root.  These are the rows, unless a tuple is lost for what should have been fetched
with it, or has no root behind a right join. -/

namespace EntityQuery

variable {E : Type}

/-- There is a record of the root. -/
def Tuple.hasRoot (t : Tuple) : Bool := (t.record? .root).isSome

theorem Tuple.hasRoot_append {t : Tuple} (h : t.hasRoot) (u : Tuple) :
    Tuple.hasRoot (t ++ u) := by
  cases t with
  | nil => cases h
  | cons slot? t => exact h

/-- Only an inner fetch can lose a tuple. -/
theorem Plan.fetchesPresent_of_not_inner {p : Plan E} (h : ∀ f ∈ p.fetches, f.operator ≠ .inner)
    (t : Tuple) : p.fetchesPresent t := by
  rw [fetchesPresent]
  cases t.record? .root with
  | none => rfl
  | some root => exact List.all_eq_true.2 fun f hf => by simp [h f hf]

/-! ## Lengths -/

namespace Plan

variable {p : Plan E} {frames : Frames} {gs gs' : List (List Tuple)}

theorem length_of_sortKeys {keyed : List (List Value × List Tuple)}
    (h : p.sortKeys frames gs = .ok keyed) : keyed.length = gs.length := by
  induction gs generalizing keyed with
  | nil =>
    obtain rfl := Except.ok.inj h
    rfl
  | cons g gs ih =>
    obtain ⟨key, -, h⟩ := Result.bind_eq_ok.1 h
    obtain ⟨rest, hrest, h⟩ := Result.bind_eq_ok.1 h
    obtain rfl := Result.pure_eq_ok.1 h
    rw [List.length_cons, ih hrest, List.length_cons]

theorem length_of_sorted (h : p.sorted frames gs = .ok gs') : gs'.length = gs.length := by
  rw [sorted] at h
  split at h
  · obtain rfl := Except.ok.inj h
    rfl
  · obtain ⟨keyed, hkeyed, rfl⟩ := Result.map_eq_ok.1 h
    rw [List.length_map, (perm_stableSort _).length_eq, length_of_sortKeys hkeyed]

theorem length_of_rows {rows : List Row} (h : p.rows frames gs = .ok rows) :
    rows.length = gs.length := by
  induction gs generalizing rows with
  | nil =>
    obtain rfl := Except.ok.inj h
    rfl
  | cons g gs ih =>
    obtain ⟨columns, -, h⟩ := Result.bind_eq_ok.1 h
    obtain ⟨rest, hrest, h⟩ := Result.bind_eq_ok.1 h
    obtain rfl := Result.pure_eq_ok.1 h
    rw [List.length_cons, ih hrest, List.length_cons]

end Plan

/-! ## The query that counts -/

namespace GraphQuery

/-- The same query for the number of its rows. -/
def counting (q : GraphQuery E) : GraphQuery E :=
  { q with plan := { q.plan with
      fetches := []
      selections := [⟨.aggregate .count (.path (.ofOrigin ⟨q.plan.depth, .root⟩)), none⟩]
      orders := []
      first? := none
      max? := none
      resultType? := none } }

/-- The value of the root is null exactly where there is no root. -/
theorem operands_root (depth : Nat) (ts : List Tuple) :
    ∃ vs, Aggregate.operands [] (.path (.ofOrigin ⟨depth, .root⟩)) ts = .ok vs ∧
      vs.length = ts.countP Tuple.hasRoot := by
  refine ⟨_, Aggregate.operands_eq_arguments fun _ _ => rfl, ?_⟩
  rw [Aggregate.arguments, List.filter_map, List.length_map, ← List.countP_eq_length_filter]
  refine List.countP_congr fun t _ => ?_
  rw [Tuple.hasRoot]
  simp only [Function.comp_apply, Path.value, Path.tuple, Path.ofOrigin]
  cases h : t.record? .root <;> simp [h, Value.along, Value.isNull, Record.toValue]

/-- A count has one column: the number of tuples with a root. -/
theorem rows_counting (q : GraphQuery E) (gs : List (List Tuple)) : q.counting.plan.rows [] gs =
    .ok (gs.map fun g => ⟨[⟨none, .long (g.countP Tuple.hasRoot)⟩]⟩) := by
  induction gs with
  | nil => rfl
  | cons g gs ih =>
    obtain ⟨vs, hvs, hlength⟩ := operands_root q.plan.depth g
    have hcolumns : q.counting.plan.columns [] g q.counting.plan.selections =
        .ok [⟨none, .long (g.countP Tuple.hasRoot)⟩] := by
      change (Aggregate.ofGroup .count [] _ g >>= _) = _
      rw [Aggregate.ofGroup, hvs, ← hlength]
      rfl
    rw [Plan.rows, hcolumns, ih]
    rfl

end GraphQuery

variable [Schema E]

namespace GraphQuery

variable {data : Dataset} {q : GraphQuery E} {d : Draft E (ScopedCondition E)}

/-- A draft that has a query for its rows has one for their number. -/
theorem ofDraft_count (h : ofDraft .rows d = .ok q) : ofDraft .count d = .ok q.counting := by
  obtain ⟨known, h⟩ := ofLevel_eq_ok.1 h
  have hselections : selections .count known d.outline = .ok q.counting.plan.selections := by
    rw [counting, h.depth]
    rfl
  exact ofLevel_eq_ok.2 ⟨known, h.joins, rfl, hselections, rfl, h.condition, h.groups, h.depth,
    h.root, rfl, rfl, rfl⟩

/-- A query has as many keys as its draft has groups. -/
theorem groups_eq_nil_iff {purpose : Purpose} (h : ofDraft purpose d = .ok q) :
    q.plan.groups = [] ↔ d.outline.groups = [] := by
  obtain ⟨known, h⟩ := ofLevel_eq_ok.1 h
  have hlength := (Result.mapM_eq_ok.1 h.groups).length_eq
  rw [← List.length_eq_zero_iff, ← List.length_eq_zero_iff, hlength]

/-- Without groups and functions, every tuple is a row by itself. -/
theorem isGrouped_eq_false (h : ofDraft .rows d = .ok q) (hgroups : d.outline.groups = [])
    (hplain : ∀ s ∈ d.outline.selects, s.function? = none) : q.plan.isGrouped = false := by
  obtain ⟨known, hc⟩ := ofLevel_eq_ok.1 h
  have hselections : Selection.ofRows known d.outline.selects = _ := hc.selections
  have haggregate : ∀ s ∈ q.plan.selections, s.expression.isAggregate = false := by
    cases hselects : d.outline.selects with
    | nil =>
      rw [hselects] at hselections
      obtain h := Except.ok.inj hselections
      rw [← h]
      exact List.forall_mem_singleton.2 rfl
    | cons s ss =>
      rw [hselects] at hselections
      intro t ht
      obtain ⟨u, hu, htu⟩ := Result.exists_of_mem_mapM hselections ht
      obtain ⟨e, he, rfl⟩ := Result.map_eq_ok.1 htu
      obtain ⟨p, -, rfl⟩ := Result.map_eq_ok.1 he
      rw [hplain u (hselects ▸ hu)]
      rfl
  rw [Plan.isGrouped, (groups_eq_nil_iff h).2 hgroups]
  simpa using haggregate

/-- The joined tuples on which the condition of a query holds, whatever is fetched with them. -/
def kept (data : Dataset) (q : GraphQuery E) : Result (List Tuple) := do
  let ts ← q.plan.joined data []
  match q.condition? with
  | some c => keepHolding (fun t => (c.map (meaning data)).test [] t) ts
  | none => .ok ts

/-- A query drops those that lack what is fetched only after its condition. -/
theorem filtered_eq_kept : q.filtered data [] =
    (q.kept data).map fun ts => ts.filter q.plan.fetchesPresent := by
  rw [filtered, Plan.filtered, kept]
  cases q.plan.joined data [] with
  | error e => rfl
  | ok ts =>
    cases q.condition? with
    | none => rfl
    | some c =>
      change (keepHolding _ ts >>= _) = Except.map _ (keepHolding _ ts)
      cases keepHolding (fun t => (c.map (meaning data)).test [] t) ts <;> rfl

/-- Nothing is fetched with what is counted. -/
theorem filtered_counting : q.counting.filtered data [] = q.kept data := by
  have hall : q.counting.plan.fetchesPresent = fun _ => true := by
    funext t
    rw [Plan.fetchesPresent]
    cases t.record? .root <;> rfl
  rw [filtered_eq_kept, hall]
  simp only [List.filter_true]
  change (q.kept data).map id = q.kept data
  cases q.kept data <;> rfl

/-- The number of rows is that of the groups, or of the tuples that are kept. -/
theorem length_of_run {rows : List Row} (h : (q.withWindow none none).run data = .ok rows) :
    ∃ ts gs, q.kept data = .ok ts ∧
      q.plan.grouped [] (ts.filter q.plan.fetchesPresent) = .ok gs ∧ rows.length = gs.length := by
  rw [run, meaning_eq] at h
  obtain ⟨filtered, hfiltered, h⟩ := Result.bind_eq_ok.1 h
  obtain ⟨gs, hgs, h⟩ := Result.bind_eq_ok.1 h
  obtain ⟨sorted, hsorted, hrows⟩ := Result.bind_eq_ok.1 h
  change q.filtered data [] = .ok filtered at hfiltered
  rw [filtered_eq_kept, Result.map_eq_ok] at hfiltered
  obtain ⟨ts, hts, hfilter⟩ := hfiltered
  refine ⟨ts, gs, hts, hfilter ▸ hgs, ?_⟩
  rw [Plan.length_of_rows hrows, ← Plan.length_of_sorted hsorted]
  rfl

/-! ## What is counted -/

/-- What a compiled draft refers to, it resolves in a scope that knows its root and its joins. -/
theorem exists_valid_scope {purpose : Purpose} (h : ofDraft purpose d = .ok q) :
    ∃ known, Compiled purpose (.ofRoot d.outline.root) known d.outline
        (Draft.interpretAll subQuery d.conditions) q ∧
      known.Valid [] ⟨d.outline.root, q.plan.joins⟩ := by
  obtain ⟨known, hc⟩ := ofLevel_eq_ok.1 h
  have hs := Scope.valid_ofRoot d.outline.root
  have hroot : Joining.Has [] d.outline.root ⟨[], .ofRoot d.outline.root⟩
      (Scope.ofRoot d.outline.root).rootEntry := ⟨hs.depth, congrArg some hs.root.symm⟩
  obtain ⟨hjoined, -⟩ := Join.attachAll_valid (Joining.valid_start hs) hroot hc.joins
  exact ⟨known, hc, hjoined.scope⟩

/-- The keys of groups are paths, which have a value in every tuple. -/
theorem wellFormed_groups {purpose : Purpose} (h : ofDraft purpose d = .ok q) :
    ∀ e ∈ q.plan.groups, e.WellFormed ([] ++ [⟨d.outline.root, q.plan.joins⟩]) := by
  obtain ⟨known, hc, hknown⟩ := exists_valid_scope h
  intro e he
  obtain ⟨field, -, hfield⟩ := Result.exists_of_mem_mapM hc.groups he
  exact wellFormed_group hknown hfield

theorem groupTuples_ok {purpose : Purpose} (h : ofDraft purpose d = .ok q) (ts : List Tuple) :
    ∃ gs, groupTuples [] q.plan.groups ts = .ok gs :=
  exists_groupTuples (wellFormed_groups h) ts

/-- The groups of tuples, or else the tuples with a root. -/
def counted (q : GraphQuery E) (ts : List Tuple) : Result Nat :=
  if q.plan.groups = [] then .ok (ts.countP Tuple.hasRoot)
  else (groupTuples [] q.plan.groups ts).map List.length

/-- The query that counts has a row for each group. -/
theorem run_counting {ts : List Tuple} {gs : List (List Tuple)} (hts : q.kept data = .ok ts)
    (hgs : groupTuples [] q.plan.groups ts = .ok gs) : q.counting.run data =
      .ok (gs.map fun g => ⟨[⟨none, .long (g.countP Tuple.hasRoot)⟩]⟩) := by
  have hgrouped : q.counting.plan.grouped [] ts = .ok gs := by
    rw [Plan.grouped, if_pos (by simp [Plan.isGrouped, counting, Expression.isAggregate])]
    exact hgs
  rw [run, meaning_eq]
  change (q.counting.filtered data [] >>= fun ts => _) = _
  rw [filtered_counting, hts]
  change (q.counting.plan.grouped [] ts >>= fun gs => _) = _
  rw [hgrouped]
  exact q.rows_counting gs

end GraphQuery

/-! ## Roots and fetches -/

namespace JoinNode

variable {data : Dataset} {frames : Frames} {ts joined : List Tuple}

/-- A join that is not a right one extends tuples, and these keep their roots. -/
theorem join_hasRoot {n : JoinNode E} (hn : n.operator ≠ .right) {width : Nat}
    (hts : ∀ t ∈ ts, t.hasRoot) (h : n.join data frames width ts = .ok joined) :
    ∀ t ∈ joined, t.hasRoot := by
  obtain ⟨pairs, hpairs, h⟩ := Result.bind_eq_ok.1 h
  dsimp only at h
  rw [if_neg hn] at h
  obtain rfl := Result.pure_eq_ok.1 h
  intro u hu
  obtain ⟨p, hp, hu⟩ := List.mem_flatMap.1 hu
  obtain ⟨slot?, rfl, -⟩ := exists_of_mem_extensions hu
  exact Tuple.hasRoot_append (hts p.1 (exists_of_mem_pairings hpairs hp).1) _

/-- Only a right join makes tuples without a root. -/
theorem joinAll_hasRoot {ns : List (JoinNode E)} (hns : ∀ n ∈ ns, n.operator ≠ .right)
    {width : Nat} (hts : ∀ t ∈ ts, t.hasRoot) (h : joinAll data frames width ts ns = .ok joined) :
    ∀ t ∈ joined, t.hasRoot := by
  induction ns generalizing width ts with
  | nil =>
    obtain rfl := Except.ok.inj h
    exact hts
  | cons n ns ih =>
    obtain ⟨hn, hrest⟩ := List.forall_mem_cons.1 hns
    obtain ⟨ts', hjoin, h⟩ := Result.bind_eq_ok.1 h
    exact ih hrest (join_hasRoot hn hts hjoin) h

end JoinNode

namespace GraphQuery

variable {data : Dataset} {q : GraphQuery E} {ts : List Tuple}

theorem mem_joined_of_kept (h : q.kept data = .ok ts) :
    ∃ joined, q.plan.joined data [] = .ok joined ∧ ∀ t ∈ ts, t ∈ joined := by
  obtain ⟨joined, hjoined, h⟩ := Result.bind_eq_ok.1 h
  refine ⟨joined, hjoined, fun t ht => ?_⟩
  cases hc : q.condition? with
  | none =>
    rw [hc] at h
    obtain rfl := Except.ok.inj h
    exact ht
  | some c =>
    rw [hc] at h
    exact ((mem_keepHolding_iff h).1 ht).1

/-- Without right joins every tuple that is kept has a root. -/
theorem hasRoot_of_kept (h : q.kept data = .ok ts)
    (hjoins : ∀ n ∈ q.plan.joins, n.operator ≠ .right) :
    ∀ t ∈ ts, t.hasRoot := by
  obtain ⟨joined, hjoined, hmem⟩ := mem_joined_of_kept h
  have hroots : ∀ t ∈ q.plan.rootTuples data, t.hasRoot := List.forall_mem_map.2 fun r _ => rfl
  exact fun t ht => JoinNode.joinAll_hasRoot hjoins hroots hjoined t (hmem t ht)

end GraphQuery

/-! ## Terminal operations -/

theorem IntWidth.Holds.of_le {w : IntWidth} {m n : Nat} (h : w.Holds n) (hle : m ≤ n) :
    w.Holds m := by
  obtain ⟨hlower, -⟩ := w.holds_zero
  exact ⟨Int.le_trans hlower (Int.natCast_nonneg m), Int.lt_of_le_of_lt (Int.ofNat_le.2 hle) h.2⟩

/-- A count is read off as it is, if it fits. -/
theorem Bound.countOf_long {n : Nat} (hrange : IntWidth.long.Holds n) :
    countOf (.long n) = .ok n := by
  obtain ⟨a, ha⟩ : ∃ a : BoundedInt .long, a.val = n := ⟨⟨n, hrange⟩, rfl⟩
  have hlong : Value.long n = .scalar (.integer .long a) := by
    rw [Value.long, BoundedInt.ofInt?_eq_some_iff.2 ha]
  have hself : Scalar.cast? (.integer .long) (.integer .long a) = some (.integer .long a) :=
    Scalar.cast?_self (.integer .long a)
  have hcast : (Value.scalar (.integer .long a)).cast (.integer .long) =
      .ok (.integer .long a) := by
    rw [Value.cast, Scalar.cast, hself]
  rw [countOf, hlong, hcast]
  exact congrArg Except.ok (by rw [ha, Int.toNat_natCast] : a.val.toNat = n)

/-- The draft bound to a session in memory. -/
def Draft.inMemory (d : Draft E (ScopedCondition E)) :
    Bound E (ScopedCondition E) (GraphQuery E) (Memory E) :=
  ⟨d, GraphQuery.kind, some Memory.session⟩

/-- Whatever counts a draft over the records of a session comes to the same number. -/
structure Draft.CountsAs (d : Draft E (ScopedCondition E)) (m : Memory E) (total : Nat) :
    Prop where
  countResults : (d.inMemory.countResults m).1 = .ok total
  exist : (d.inMemory.exist m).1 = .ok (decide (0 < total))
  page : ∀ {T : Type} [Projectable T] (shape : Shape T) (limit offset : Nat)
      (page : Page Projected),
    (d.inMemory.page shape limit offset m).1 = .ok page → page.total = total

variable {d : Draft E (ScopedCondition E)} {m : Memory E} {total : Nat}

/-- There is one count, on which existence and every page go. -/
theorem Draft.CountsAs.of_countResults (h : (d.inMemory.countResults m).1 = .ok total) :
    d.CountsAs m total where
  countResults := h
  exist := by
    rw [Bound.exist, Exchange.bind_eq_ok]
    exact ⟨total, h, rfl⟩
  page shape limit offset page hpage := by
    rw [Bound.page, Exchange.bind_eq_ok] at hpage
    obtain ⟨total', htotal, hpage⟩ := hpage
    obtain rfl := Except.ok.inj (h.symm.trans htotal)
    rw [Exchange.bind_eq_ok] at hpage
    obtain ⟨q, -, hpage⟩ := hpage
    rw [Exchange.bind_eq_ok] at hpage
    obtain ⟨rows, -, hpage⟩ := hpage
    rw [Exchange.bind_eq_ok] at hpage
    obtain ⟨data, -, hpage⟩ := hpage
    exact (congrArg Page.total (Except.ok.inj hpage)).symm

namespace GraphQuery

variable {q : GraphQuery E} {ts : List Tuple}

/-- Counting comes to the number of groups, or of tuples with a root. -/
theorem countResults_eq (hq : ofDraft .rows d = .ok q) (hts : q.kept m.data = .ok ts)
    (hsize : IntWidth.long.Holds ts.length) (htotal : q.counted ts = .ok total) :
    (d.inMemory.countResults m).1 = .ok total := by
  obtain ⟨gs, hgs⟩ := groupTuples_ok hq ts
  have hrun := run_counting hts hgs
  have hsend : (d.inMemory.send q.counting m).1 =
      .ok (gs.map fun g => ⟨[⟨none, .long (g.countP Tuple.hasRoot)⟩]⟩) := by
    change (Memory.session.answer q.counting m).1 = _
    simp only [Memory.session, hrun]
  rw [Bound.countResults, Exchange.bind_eq_ok]
  refine ⟨q.counting, ofDraft_count hq, ?_⟩
  rw [Exchange.bind_eq_ok]
  refine ⟨_, hsend, ?_⟩
  rw [counted] at htotal
  by_cases hgroups : d.outline.groups = []
  · have hnone := (groups_eq_nil_iff hq).2 hgroups
    rw [if_pos hnone] at htotal
    rw [groupTuples, hnone] at hgs
    obtain rfl := Except.ok.inj hgs
    obtain rfl := Except.ok.inj htotal
    have hempty : d.inMemory.draft.outline.groups.isEmpty := List.isEmpty_iff.2 hgroups
    have hcount : Bound.countOf (.long (ts.countP Tuple.hasRoot)) =
        .ok (ts.countP Tuple.hasRoot) :=
      Bound.countOf_long (hsize.of_le List.countP_le_length)
    simp only [if_pos hempty, List.map_cons, List.map_nil, List.head?_cons, Option.bind_some,
      Row.first?, Option.map_some, hcount]
    rfl
  · rw [if_neg (mt (groups_eq_nil_iff hq).1 hgroups), hgs] at htotal
    obtain rfl := Except.ok.inj htotal
    have hsome : ¬d.inMemory.draft.outline.groups.isEmpty := mt List.isEmpty_iff.1 hgroups
    rw [if_neg hsome]
    change Except.ok _ = _
    rw [List.length_map]

/-- Groups or rows are all there if nothing is lost for a fetch and, without groups, no tuple lacks
its root. -/
theorem counted_eq_length (hq : ofDraft .rows d = .ok q)
    (hplain : d.outline.groups = [] → ∀ s ∈ d.outline.selects, s.function? = none)
    {gs : List (List Tuple)} (hgs : q.plan.grouped [] ts = .ok gs)
    (hroots : d.outline.groups = [] → ∀ t ∈ ts, t.hasRoot) : q.counted ts = .ok gs.length := by
  rw [counted]
  rw [Plan.grouped] at hgs
  by_cases hgroups : d.outline.groups = []
  · rw [if_neg (by simp [isGrouped_eq_false hq hgroups (hplain hgroups)])] at hgs
    obtain rfl := Except.ok.inj hgs
    rw [if_pos ((groups_eq_nil_iff hq).2 hgroups), List.length_map,
      List.countP_eq_length.2 (hroots hgroups)]
  · have hsome := mt (groups_eq_nil_iff hq).1 hgroups
    rw [if_pos (by simp [Plan.isGrouped, hsome])] at hgs
    rw [if_neg hsome, hgs]
    rfl

/-- Counting agrees with the rows but for the tuples that are lost for a fetch and those that lack
their root, which only come about by an inner fetch and a right join. -/
theorem countsAs_counted {rows : List Row} (hq : ofDraft .rows d = .ok q)
    (hplain : d.outline.groups = [] → ∀ s ∈ d.outline.selects, s.function? = none)
    (hrows : (q.withWindow none none).run m.data = .ok rows)
    (hsize : ∀ ts, q.kept m.data = .ok ts → IntWidth.long.Holds ts.length) :
    ∃ ts total, q.kept m.data = .ok ts ∧ q.counted ts = .ok total ∧ d.CountsAs m total ∧
      (q.plan.grouped [] (ts.filter q.plan.fetchesPresent)).map List.length = .ok rows.length ∧
      ((∀ t ∈ ts, q.plan.fetchesPresent t) → (d.outline.groups = [] → ∀ t ∈ ts, t.hasRoot) →
        total = rows.length) ∧
      ((∀ f ∈ q.plan.fetches, f.operator ≠ .inner) → ∀ t ∈ ts, q.plan.fetchesPresent t) ∧
      ((∀ n ∈ q.plan.joins, n.operator ≠ .right) → ∀ t ∈ ts, t.hasRoot) := by
  obtain ⟨ts, gs, hts, hgs, hlength⟩ := length_of_run hrows
  obtain ⟨total, htotal⟩ : ∃ total, q.counted ts = .ok total := by
    obtain ⟨keyed, hkeyed⟩ := groupTuples_ok hq ts
    rw [counted, hkeyed]
    split <;> exact ⟨_, rfl⟩
  have hcount := countResults_eq hq hts (hsize ts hts) htotal
  refine ⟨ts, total, hts, htotal, .of_countResults hcount, ?_, fun hfetched hroots => ?_,
    fun h t _ => Plan.fetchesPresent_of_not_inner h t, hasRoot_of_kept hts⟩
  · rw [hgs, hlength]
    rfl
  · rw [List.filter_eq_self.2 hfetched] at hgs
    have hsame := htotal.symm.trans (counted_eq_length hq hplain hgs hroots)
    rw [hlength]
    exact Except.ok.inj hsame

end GraphQuery

/-! ## Rows that are counted, and rows that are not -/

namespace Kennel

/-- An owner without dogs. -/
def ada : Record :=
  ⟨"Owner", [("id", .long 1), ("name", .scalar (.string "Ada")), ("dogs", .list [])]⟩

def rex : Record := ⟨"Dog", [("id", .long 5), ("name", .scalar (.string "Rex"))]⟩

def strays : Memory Kennel := ⟨⟨[("Owner", [ada]), ("Dog", [rex])]⟩, []⟩

/-- Owners and their dogs. -/
def ownersAndDogs (operator : JoinOperator) : Draft Kennel (ScopedCondition Kennel) :=
  (Draft.ofRoot .owner).join { Join.ofTable "dogs" with operator := operator }

/-- Owners whose dogs are fetched with them. -/
def ownersWithDogs : Draft Kennel (ScopedCondition Kennel) :=
  (Draft.ofRoot .owner).fetch (.ofRelationship "dogs" .inner)

/-- A left join keeps the owner, who is counted. -/
theorem countsAs_rows_of_left_join : ∃ q rows,
    GraphQuery.ofDraft .rows (ownersAndDogs .left) = .ok q ∧
    (q.withWindow none none).run strays.data = .ok rows ∧ rows.length = 1 ∧
    (ownersAndDogs .left).CountsAs strays rows.length := by
  have h : (GraphQuery.ofDraft .rows (ownersAndDogs .left)).map (fun q =>
      (q.plan.joins.map JoinNode.operator, q.plan.fetches,
        ((q.withWindow none none).run strays.data).map List.length,
        (q.kept strays.data).map List.length)) = .ok ([.left], [], .ok 1, .ok 1) := by
    decide +kernel
  obtain ⟨q, hq, h⟩ := Result.map_eq_ok.1 h
  simp only [Prod.mk.injEq] at h
  obtain ⟨hjoins, hfetches, hrun, hkept⟩ := h
  obtain ⟨rows, hrows, hlength⟩ := Result.map_eq_ok.1 hrun
  have hsize : ∀ ts, q.kept strays.data = .ok ts → IntWidth.long.Holds ts.length := by
    intro ts hts
    rw [hts] at hkept
    rw [Except.ok.inj hkept]
    decide
  obtain ⟨ts, total, -, -, hcounts, -, hsame, hfetched, hroots⟩ :=
    GraphQuery.countsAs_counted hq (fun _ => nofun) hrows hsize
  have hleft : ∀ n ∈ q.plan.joins, n.operator ≠ .right := by
    have hall : ∀ o ∈ q.plan.joins.map JoinNode.operator, o ≠ .right := by
      rw [hjoins]
      decide
    exact fun n hn => hall n.operator (List.mem_map_of_mem hn)
  have hfetch : ∀ f ∈ q.plan.fetches, f.operator ≠ .inner := by
    rw [hfetches]
    exact nofun
  refine ⟨q, rows, hq, hrows, hlength, ?_⟩
  rw [← hsame (hfetched hfetch) fun _ => hroots hleft]
  exact hcounts

/-- An owner who is lost for want of dogs is counted nevertheless, and a dog without an owner
behind a right join is not. -/
theorem not_countsAs_rows :
    (∃ q rows, GraphQuery.ofDraft .rows ownersWithDogs = .ok q ∧
      (q.withWindow none none).run strays.data = .ok rows ∧ rows.length = 0 ∧
      ownersWithDogs.CountsAs strays 1) ∧
    ∃ q rows, GraphQuery.ofDraft .rows (ownersAndDogs .right) = .ok q ∧
      (q.withWindow none none).run strays.data = .ok rows ∧ rows.length = 1 ∧
      (ownersAndDogs .right).CountsAs strays 0 := by
  have hlength (d : Draft Kennel (ScopedCondition Kennel)) (n : Nat)
      (h : ((GraphQuery.ofDraft .rows d).bind fun q =>
        (q.withWindow none none).run strays.data).map List.length = .ok n) :
      ∃ q rows, GraphQuery.ofDraft .rows d = .ok q ∧
        (q.withWindow none none).run strays.data = .ok rows ∧ rows.length = n := by
    obtain ⟨rows, h, hlength⟩ := Result.map_eq_ok.1 h
    obtain ⟨q, hq, hrows⟩ := Result.bind_eq_ok.1 h
    exact ⟨q, rows, hq, hrows, hlength⟩
  obtain ⟨q, rows, hq, hrows, hnone⟩ := hlength ownersWithDogs 0 (by decide +kernel)
  obtain ⟨q', rows', hq', hrows', hone⟩ := hlength (ownersAndDogs .right) 1 (by decide +kernel)
  exact ⟨⟨q, rows, hq, hrows, hnone, .of_countResults (by decide +kernel)⟩,
    q', rows', hq', hrows', hone, .of_countResults (by decide +kernel)⟩

end Kennel

end EntityQuery
