import EntityQuery.Proofs.Condition.Trimming
import EntityQuery.Proofs.Evaluation.Runs
import EntityQuery.Proofs.GraphQuery.Compilation
import EntityQuery.Proofs.GraphQuery.Lookup
import EntityQuery.Proofs.Kennel
import EntityQuery.Proofs.Value.Order

/-! # Membership and correlated existence

A value is in the column of a sub query if the sub query has a row with that value in the column.
Said in the condition of the sub query, this is an equality with a field of the query around it,
and the sub query is asked for existence only.  Both ways keep the same tuples of the outer query,
`GraphQuery.rows_isIn_eq_rows_exist`.

A test that is never looked at may be refused, so that one of the two can fail where the other
succeeds; nothing is said of such runs. -/

namespace EntityQuery

variable {E : Type}

/-! ## Conditions that are added -/

theorem Truth.and_eq_holds {a b : Truth} : a.and b = .holds ↔ a = .holds ∧ b = .holds := by
  cases a <;> cases b <;> simp [Truth.and]

namespace Predicate

variable {ρ σ : Type}

/-- A condition that is attached to the others with AND is their conjunction with it. -/
theorem fold_concat_and (items : List (Connective × Predicate ρ)) (p : Predicate ρ) :
    fold (items ++ [(.and, p)]) = both (fold items) (some p) := by
  cases items with
  | nil => rfl
  | cons first rest =>
    rw [List.cons_append, fold, fold, List.foldl_append]
    rfl

theorem map_both (f : ρ → σ) (p? q? : Option (Predicate ρ)) :
    (both p? q?).map (map f) = both (p?.map (map f)) (q?.map (map f)) := by
  cases p? <;> cases q? <;> rfl

variable {frames : Frames} {t : Tuple}

/-- A conjunction holds only after both sides were looked at. -/
theorem test_and_eq_holds {p q : Predicate Meaning} : (and p q).test frames t = .ok .holds ↔
    p.test frames t = .ok .holds ∧ q.test frames t = .ok .holds := by
  constructor
  · intro h
    obtain ⟨a, hp, h⟩ := Result.bind_eq_ok.1 h
    cases a with
    | fails => exact absurd (Result.pure_eq_ok.1 h) nofun
    | holds | unknown =>
      obtain ⟨b, hq, h⟩ := Result.bind_eq_ok.1 h
      obtain ⟨ha, rfl⟩ := Truth.and_eq_holds.1 (Result.pure_eq_ok.1 h)
      exact ⟨ha ▸ hp, hq⟩
  · rintro ⟨hp, hq⟩
    exact Result.bind_eq_ok.2 ⟨.holds, hp, Result.bind_eq_ok.2 ⟨.holds, hq, rfl⟩⟩

/-- A condition that is attached to others asks for both. -/
theorem forall_mem_both_eq_holds {w? : Option (Predicate Meaning)} {p : Predicate Meaning} :
    (∀ c ∈ both w? (some p), c.test frames t = .ok .holds) ↔
      (∀ c ∈ w?, c.test frames t = .ok .holds) ∧ p.test frames t = .ok .holds := by
  cases w? with
  | none => simp [both]
  | some w => simp [both, test_and_eq_holds]

/-- The right side is looked at only where the left one holds, and there it decides. -/
theorem test_and_congr_holds {w p p' : Predicate Meaning} {r r' : Truth}
    (hr : (and w p).test frames t = .ok r) (hr' : (and w p').test frames t = .ok r')
    (h : ∀ a a', p.test frames t = .ok a → p'.test frames t = .ok a' →
      (a = .holds ↔ a' = .holds)) : r = .holds ↔ r' = .holds := by
  obtain ⟨a, ha, hr⟩ := Result.bind_eq_ok.1 hr
  obtain ⟨a', ha', hr'⟩ := Result.bind_eq_ok.1 hr'
  obtain rfl := Except.ok.inj (ha.symm.trans ha')
  cases a with
  | fails =>
    obtain rfl := Result.pure_eq_ok.1 hr
    obtain rfl := Result.pure_eq_ok.1 hr'
    rfl
  | unknown =>
    obtain ⟨b, -, hr⟩ := Result.bind_eq_ok.1 hr
    obtain ⟨b', -, hr'⟩ := Result.bind_eq_ok.1 hr'
    obtain rfl := Result.pure_eq_ok.1 hr
    obtain rfl := Result.pure_eq_ok.1 hr'
    simp [Truth.and_eq_holds]
  | holds =>
    obtain ⟨b, hb, hr⟩ := Result.bind_eq_ok.1 hr
    obtain ⟨b', hb', hr'⟩ := Result.bind_eq_ok.1 hr'
    obtain rfl := Result.pure_eq_ok.1 hr
    obtain rfl := Result.pure_eq_ok.1 hr'
    simpa [Truth.and_eq_holds] using h b b' hb hb'

end Predicate

/-- The conditions of a call are behind those of the draft. -/
theorem Draft.interpretAll_filter_leaf {κ τ : Type} (level : Outline E → List (Clause τ κ) → τ)
    (d : Draft E κ) (l : Leaf (Draft E κ) κ) :
    interpretAll level (d.filter (.leaf none l)).conditions =
      interpretAll level d.conditions ++ [.leaf .and (l.map (interpret level))] := by
  rw [interpretAll_eq_map, interpretAll_eq_map, ← interpretLeaf_eq_map]
  exact List.map_append

/-! ## One column of a sub query -/

/-- Every kept tuple becomes a row of one value. -/
structure Plan.IsColumn (p : Plan E) (path : Path) : Prop where
  selections : p.selections = [⟨.path path, none⟩]
  groups : p.groups = []
  orders : p.orders = []
  fetches : p.fetches = []
  first : p.first? = none
  max : p.max? = none

theorem Plan.IsColumn.rows_singletons {p : Plan E} {path : Path} {frames : Frames}
    (h : p.IsColumn path) (ts : List Tuple) :
    p.rows frames (ts.map ([·])) = .ok (ts.map fun t => Row.single (path.value frames t)) := by
  induction ts with
  | nil => rfl
  | cons t ts ih =>
    rw [List.map_cons, Plan.rows, ih, h.selections]
    rfl

variable [Schema E]

/-! ## Queries with one more condition -/

namespace GraphClause

/-- A leaf that is added comes last. -/
theorem predicates_concat (scope : Scope E) (cs : List (GraphClause E)) (l : GraphLeaf E) :
    predicates scope (cs ++ [.leaf .and l]) = do
      let items ← predicates scope cs
      let p ← leafPredicate scope l
      return items ++ [(.and, p)] := by
  rw [predicates_append]
  refine bind_congr fun items => ?_
  rw [predicates, predicate?]
  cases leafPredicate scope l <;> rfl

/-- A leaf that is added to conditions is attached to all of them. -/
theorem foldPredicate_concat_eq_ok {scope : Scope E} {cs : List (GraphClause E)}
    {l : GraphLeaf E} {condition? : Option (Predicate (GraphQuery E))} :
    foldPredicate scope (cs ++ [.leaf .and l]) = .ok condition? ↔
      ∃ w? p, foldPredicate scope cs = .ok w? ∧ leafPredicate scope l = .ok p ∧
        condition? = Predicate.both w? (some p) := by
  simp only [foldPredicate, predicates_concat, Result.map_eq_ok, Result.bind_eq_ok,
    Result.pure_eq_ok]
  constructor
  · rintro ⟨_, ⟨items, hitems, p, hp, rfl⟩, rfl⟩
    exact ⟨_, p, ⟨items, hitems, rfl⟩, hp, Predicate.fold_concat_and items p⟩
  · rintro ⟨_, p, ⟨items, hitems, rfl⟩, hp, rfl⟩
    exact ⟨_, ⟨items, hitems, p, hp, rfl⟩, Predicate.fold_concat_and items p⟩

end GraphClause

/-- The last condition can be exchanged for one that holds of the same tuples. -/
theorem Plan.filtered_unique {p : Plan E} {data : Dataset} {frames : Frames}
    {w? : Option (Predicate Meaning)} {c c' : Predicate Meaning} {ts ts' : List Tuple}
    (h : p.filtered data (Predicate.both w? (some c)) frames = .ok ts)
    (h' : p.filtered data (Predicate.both w? (some c')) frames = .ok ts')
    (hiff : ∀ t a a', c.test frames t = .ok a → c'.test frames t = .ok a' →
      (a = .holds ↔ a' = .holds)) : ts = ts' := by
  obtain ⟨js, hjs, h⟩ := Result.bind_eq_ok.1 h
  obtain ⟨js', hjs', h'⟩ := Result.bind_eq_ok.1 h'
  obtain rfl := Except.ok.inj (hjs.symm.trans hjs')
  cases w? with
  | none =>
    obtain ⟨kept, hkept, h⟩ := Result.bind_eq_ok.1 h
    obtain ⟨kept', hkept', h'⟩ := Result.bind_eq_ok.1 h'
    obtain rfl := Result.pure_eq_ok.1 h
    obtain rfl := Result.pure_eq_ok.1 h'
    rw [keepHolding_unique hkept hkept' fun t _ => hiff t]
  | some w =>
    obtain ⟨kept, hkept, h⟩ := Result.bind_eq_ok.1 h
    obtain ⟨kept', hkept', h'⟩ := Result.bind_eq_ok.1 h'
    obtain rfl := Result.pure_eq_ok.1 h
    obtain rfl := Result.pure_eq_ok.1 h'
    rw [keepHolding_unique hkept hkept' fun t _ _ _ ht ht' =>
      Predicate.test_and_congr_holds ht ht' (hiff t)]

namespace Plan.IsColumn

variable {p : Plan E} {path : Path} {data : Dataset} {condition? : Option (Predicate Meaning)}
  {frames : Frames}

/-- One column of one path: the rows are the values of the path for the tuples that are kept. -/
theorem meaning (h : p.IsColumn path) {rows : List Row} :
    p.meaning data condition? frames = .ok rows ↔ ∃ ts,
      p.filtered data condition? frames = .ok ts ∧
        rows = ts.map fun t => Row.single (path.value frames t) := by
  have hgrouped : p.isGrouped = false := by
    rw [Plan.isGrouped, h.groups, h.selections]
    rfl
  have hrest : ∀ ts : List Tuple, (do
      let gs ← p.grouped frames ts
      let gs ← p.sorted frames gs
      p.rows frames (p.window gs)) = .ok (ts.map fun t => Row.single (path.value frames t)) := by
    intro ts
    rw [Plan.grouped, if_neg (by rw [hgrouped]; nofun)]
    change (p.sorted frames (ts.map ([·])) >>= _) = _
    rw [Plan.sorted, h.orders]
    change p.rows frames (p.window (ts.map ([·]))) = _
    rw [Plan.window, h.first, h.max]
    exact h.rows_singletons ts
  rw [Plan.meaning, Result.bind_eq_ok]
  refine exists_congr fun ts => and_congr_right fun _ => ?_
  rw [hrest, Except.ok.injEq, eq_comm]

/-- A tuple is kept if the condition holds on it. -/
theorem mem_filtered (h : p.IsColumn path) {ts : List Tuple}
    (hts : p.filtered data condition? frames = .ok ts) {t : Tuple} :
    t ∈ ts ↔ ∃ js, p.joined data frames = .ok js ∧ t ∈ js ∧
      ∀ c ∈ condition?, c.test frames t = .ok .holds := by
  have hpresent : p.fetchesPresent t := by
    rw [Plan.fetchesPresent, h.fetches]
    cases t.record? .root <;> rfl
  obtain ⟨js, hjs, hts⟩ := Result.bind_eq_ok.1 hts
  have hmem : t ∈ ts ↔ t ∈ js ∧ ∀ c ∈ condition?, c.test frames t = .ok .holds := by
    cases condition? with
    | none =>
      obtain ⟨kept, hkept, hts⟩ := Result.bind_eq_ok.1 hts
      obtain rfl := Except.ok.inj hkept
      obtain rfl := Result.pure_eq_ok.1 hts
      simp [hpresent]
    | some c =>
      obtain ⟨kept, hkept, hts⟩ := Result.bind_eq_ok.1 hts
      obtain rfl := Result.pure_eq_ok.1 hts
      simp [mem_keepHolding_iff hkept, hpresent]
  rw [hmem]
  constructor
  · exact fun h => ⟨js, hjs, h⟩
  · rintro ⟨js', hjs', h⟩
    obtain rfl := Except.ok.inj (hjs.symm.trans hjs')
    exact h

end Plan.IsColumn

namespace GraphQuery

variable {scope known : Scope E} {o : Outline E} {cs : List (GraphClause E)} {q : GraphQuery E}

/-- A sub query with one plain column has nothing but its condition to filter by. -/
theorem Compiled.isColumn {path : Path} (h : Compiled .column scope known o cs q)
    (hgroups : o.groups = [])
    (hpath : Selection.ofColumn known o.selects = .ok ⟨.path path, none⟩) :
    q.plan.IsColumn path where
  selections := by
    have hselections : (Selection.ofColumn known o.selects).map ([·]) = _ := h.selections
    rw [hpath] at hselections
    exact (Except.ok.inj hselections).symm
  groups := by
    have hmapped := h.groups
    rw [hgroups] at hmapped
    exact (Except.ok.inj hmapped).symm
  orders := (Except.ok.inj h.orders).symm
  fetches := (Except.ok.inj h.fetches).symm
  first := h.first
  max := h.max

/-- What is selected without a function is a path. -/
theorem Compiled.exists_isColumn (h : Compiled .column scope known o cs q)
    (hgroups : o.groups = []) (hplain : ∀ s ∈ o.selects, s.function? = none) :
    ∃ path, q.plan.IsColumn path := by
  obtain ⟨selection, hselection, -⟩ := Result.map_eq_ok.1 h.selections
  suffices hpath : ∃ path, selection = ⟨.path path, none⟩ by
    obtain ⟨path, rfl⟩ := hpath
    exact ⟨path, h.isColumn hgroups hselection⟩
  cases hselects : o.selects with
  | nil =>
    rw [hselects] at hselection
    exact ⟨_, (Except.ok.inj hselection).symm⟩
  | cons s ss =>
    rw [hselects] at hselection hplain
    cases ss with
    | nil =>
      obtain ⟨e, he, rfl⟩ := Result.map_eq_ok.1 hselection
      obtain ⟨p, -, rfl⟩ := Result.map_eq_ok.1 he
      rw [hplain s List.mem_cons_self]
      exact ⟨p, rfl⟩
    | cons t ts => exact absurd hselection nofun

/-- A level compiled with other conditions has the same plan in the same scope. -/
theorem Compiled.plan_eq {purpose : Purpose} {known' : Scope E} {cs' : List (GraphClause E)}
    {q' : GraphQuery E} (h : Compiled purpose scope known o cs q)
    (h' : Compiled purpose scope known' o cs' q') : known' = known ∧ q'.plan = q.plan := by
  obtain ⟨⟨depth, root, joins, fetches, selections, orders, groups, first?, max?, type?⟩, c?⟩ := q
  obtain ⟨⟨depth', root', joins', fetches', selections', orders', groups', first?', max?', type?'⟩,
    c?'⟩ := q'
  obtain ⟨rfl, rfl⟩ := Joining.mk.inj (Except.ok.inj (h.joins.symm.trans h'.joins))
  obtain rfl := Except.ok.inj (h.fetches.symm.trans h'.fetches)
  obtain rfl := Except.ok.inj (h.selections.symm.trans h'.selections)
  obtain rfl := Except.ok.inj (h.orders.symm.trans h'.orders)
  obtain rfl := Except.ok.inj (h.groups.symm.trans h'.groups)
  obtain rfl := h.depth.trans h'.depth.symm
  obtain rfl := h.root.trans h'.root.symm
  obtain rfl := h.first.trans h'.first.symm
  obtain rfl := h.max.trans h'.max.symm
  obtain rfl := h.resultType.trans h'.resultType.symm
  exact ⟨rfl, rfl⟩

end GraphQuery

/-! ## Fields without a name -/

/-- A field without a point does not name any rows. -/
theorem Scope.resolveFrom_bare {s : Scope E} {default : Entry E} {field : String}
    (h : '.' ∉ field.toList) : s.resolveFrom default field = default.resolve field := by
  rw [resolveFrom, Text.splitFirst?_eq_none h]

/-- A field without a name in a sub query is that of the query around it. -/
theorem Scope.resolveOuter_child {around known : Scope E} {root : E} {js : List (Join E)}
    {joins : List (JoinNode E)} {field : String} (h : '.' ∉ field.toList)
    (hjoins : Join.attachAll ⟨[], around.child root⟩ (around.child root).rootEntry js =
      .ok ⟨joins, known⟩) : known.resolveOuter field = around.resolve field := by
  have hparent := ((Join.attachAll_pushes hjoins).over (Joining.over_start _)).parentRoot
  rw [resolveOuter, resolve, resolveFrom_bare h, resolveFrom_bare h, hparent]
  rfl

/-! ## Both ways in the condition of the outer query -/

theorem Truth.ofBool_eq_holds {b : Bool} : Truth.ofBool b = .holds ↔ b = true := by
  cases b <;> simp [Truth.ofBool]

/-- Only an equal candidate makes membership hold, nulls or not. -/
theorem Value.memberTruth_eq_holds {v : Value} {candidates : List Value} :
    v.memberTruth candidates = .holds ↔ ∃ c ∈ candidates, v.compareTruth .equal c = .holds := by
  rw [memberTruth]
  split
  · rename_i hnull
    simp [compareTruth, hnull]
  · split
    · rename_i hany
      simpa using hany
    · rename_i hany
      split <;> simpa using hany

/-- The first column of rows of one value is the values. -/
theorem Predicate.firstColumn_singles (vs : List Value) :
    firstColumn (vs.map Row.single) = vs := by
  rw [firstColumn, List.filterMap_map]
  exact List.filterMap_some

/-- A path that starts in the tuple of a query has the same value in the queries inside it. -/
theorem Path.value_concat {p : Path} {frames : Frames} {t : Tuple}
    (h : p.origin.depth = frames.length) (u : Tuple) :
    p.value (frames ++ [t]) u = p.value frames t := by
  have houter : p.tuple (frames ++ [t]) u = t := by
    rw [tuple, h, List.getElem?_concat_length]
    rfl
  have hown : p.tuple frames t = t := by
    rw [tuple, h, List.getElem?_eq_none (Nat.le_refl _)]
    rfl
  rw [value, value, houter, hown]

namespace GraphQuery

variable {data : Dataset} {frames : Frames} {t : Tuple} {inner outer : Path} {q q' : GraphQuery E}

/-- The second query asks for the rows of the first one whose column has the value of a path that
starts outside. -/
structure Correlated (inner outer : Path) (q q' : GraphQuery E) : Prop where
  column : q.plan.IsColumn inner
  single : ∃ path, q'.plan.IsColumn path
  root : q'.plan.root = q.plan.root
  joins : q'.plan.joins = q.plan.joins
  condition : q'.condition? =
    Predicate.both q.condition? (some (.compare (.path inner) .equal (.path outer)))

/-- The correlated query has a row exactly if the value outside is in the column. -/
theorem Correlated.rows_ne_nil_iff (h : Correlated inner outer q q')
    (hdepth : outer.origin.depth = frames.length) {rows rows' : List Row}
    (hrows : q.meaning data (frames ++ [t]) = .ok rows)
    (hrows' : q'.meaning data (frames ++ [t]) = .ok rows') :
    rows' ≠ [] ↔ ∃ v ∈ Predicate.firstColumn rows,
      (outer.value frames t).compareTruth .equal v = .holds := by
  obtain ⟨path, hcolumn'⟩ := h.single
  rw [meaning_eq] at hrows hrows'
  obtain ⟨ts, hts, rfl⟩ := h.column.meaning.1 hrows
  obtain ⟨ts', hts', rfl⟩ := hcolumn'.meaning.1 hrows'
  have hjoined : q'.plan.joined data (frames ++ [t]) = q.plan.joined data (frames ++ [t]) := by
    rw [Plan.joined, Plan.joined, Plan.rootTuples, Plan.rootTuples, h.root, h.joins]
  have hequal : ∀ u, Predicate.test (frames ++ [t]) u
      (.compare (.path inner) .equal (.path outer)) = .ok .holds ↔
        (outer.value frames t).compareTruth .equal (inner.value (frames ++ [t]) u) = .holds := by
    intro u
    rw [Value.compareTruth_equal_comm, ← Path.value_concat hdepth u]
    exact iff_of_eq (Except.ok.injEq _ _)
  have hmem : ∀ u, u ∈ ts' ↔ u ∈ ts ∧
      (outer.value frames t).compareTruth .equal (inner.value (frames ++ [t]) u) = .holds := by
    intro u
    rw [hcolumn'.mem_filtered hts', h.column.mem_filtered hts, h.condition, Predicate.map_both,
      hjoined, ← hequal u]
    simp only [Option.map_some, Predicate.map, Predicate.forall_mem_both_eq_holds]
    constructor
    · rintro ⟨js, hjs, hu, hw, heq⟩
      exact ⟨⟨js, hjs, hu, hw⟩, heq⟩
    · rintro ⟨⟨js, hjs, hu, hw⟩, heq⟩
      exact ⟨js, hjs, hu, hw, heq⟩
  have hcolumn :
      Predicate.firstColumn (ts.map fun u => Row.single (inner.value (frames ++ [t]) u)) =
        ts.map fun u => inner.value (frames ++ [t]) u := by
    rw [← Predicate.firstColumn_singles (ts.map _), List.map_map]
    rfl
  rw [hcolumn, Ne, List.map_eq_nil_iff]
  constructor
  · intro hne
    obtain ⟨u, hu⟩ := List.exists_mem_of_ne_nil ts' hne
    obtain ⟨hts, heq⟩ := (hmem u).1 hu
    exact ⟨_, List.mem_map_of_mem hts, heq⟩
  · rintro ⟨v, hv, heq⟩
    obtain ⟨u, hu, rfl⟩ := List.mem_map.1 hv
    exact List.ne_nil_of_mem ((hmem u).2 ⟨hu, heq⟩)

/-- Looking for a value in the column holds exactly if the correlated query has a row. -/
theorem Correlated.test_eq_holds_iff (h : Correlated inner outer q q')
    (hdepth : outer.origin.depth = frames.length) {r r' : Truth}
    (hr : (Predicate.inSubQuery (.path outer) (q.meaning data)).test frames t = .ok r)
    (hr' : (Predicate.exist (q'.meaning data)).test frames t = .ok r') :
    r = .holds ↔ r' = .holds := by
  obtain ⟨v, hv, hr⟩ := Result.bind_eq_ok.1 hr
  obtain rfl := Except.ok.inj hv
  obtain ⟨rows, hrows, hr⟩ := Result.bind_eq_ok.1 hr
  obtain rfl := Result.pure_eq_ok.1 hr
  obtain ⟨rows', hrows', hr'⟩ := Result.bind_eq_ok.1 hr'
  obtain rfl := Result.pure_eq_ok.1 hr'
  rw [Value.memberTruth_eq_holds, ← h.rows_ne_nil_iff hdepth hrows hrows', Truth.ofBool_eq_holds]
  simp

variable {around : Scope E} {s : Draft E (ScopedCondition E)} {f : String} {g : Select}
  {type : ScalarType} {p p' : Predicate (GraphQuery E)}

/-- A column without a function and without `*` is the path of its field. -/
theorem resolve_of_ofColumn (hg : g.function? = none) (hstar : '*' ∉ g.field.toList)
    {scope : Scope E} {selection : Selection} (h : Selection.ofColumn scope [g] = .ok selection) :
    ∃ path, scope.resolve g.field = .ok path ∧ selection = ⟨.path path, none⟩ := by
  obtain ⟨e, he, rfl⟩ := Result.map_eq_ok.1 h
  obtain ⟨path, hpath, rfl⟩ := Result.map_eq_ok.1 he
  rw [Select.path, if_neg (by simpa using hstar)] at hpath
  rw [hg]
  exact ⟨path, hpath, rfl⟩

/-- A field in the column of a sub query, and the equality of both in the sub query. -/
theorem correlated_of_leafPredicate (hf : '.' ∉ f.toList) (hg : g.function? = none)
    (hstar : '*' ∉ g.field.toList) (hgroups : s.outline.groups = [])
    (hplain : ∀ c ∈ s.outline.selects, c.function? = none)
    (hp : GraphClause.leafPredicate around (.subQuery f .isIn
      (Draft.interpret subQuery ((s.selectOnly [g]).withResultType type))) = .ok p)
    (hp' : GraphClause.leafPredicate around (.exist (Draft.interpret subQuery
      (s.filter (.leaf none (.fields g.field .equal f)))) true) = .ok p') :
    ∃ inner outer q q', p = .inSubQuery (.path outer) q ∧ p' = .exist q' ∧
      outer.origin.depth = around.depth ∧ Correlated inner outer q q' := by
  obtain ⟨outer, houter, hp⟩ := Result.bind_eq_ok.1 hp
  obtain ⟨-, -, -, q, hq, rfl⟩ := GraphClause.inSubQuery_eq_ok.1 hp
  obtain ⟨q', hq', hp'⟩ := Result.bind_eq_ok.1 hp'
  obtain rfl := Result.pure_eq_ok.1 hp'
  rw [query_subQuery] at hq hq'
  obtain ⟨known, hc⟩ := ofLevel_eq_ok.1 hq
  rw [Draft.interpretAll_filter_leaf] at hq'
  obtain ⟨known', hc'⟩ := ofLevel_eq_ok.1 hq'
  obtain ⟨hjoins, rfl⟩ := Joining.mk.inj (Except.ok.inj (hc'.joins.symm.trans hc.joins))
  obtain ⟨selection, hselection, -⟩ := Result.map_eq_ok.1 hc.selections
  obtain ⟨inner, hinner, rfl⟩ := resolve_of_ofColumn hg hstar hselection
  obtain ⟨w?, equality, hw, hequality, hcondition⟩ :=
    GraphClause.foldPredicate_concat_eq_ok.1 hc'.condition
  obtain rfl := Except.ok.inj (hc.condition.symm.trans hw)
  obtain ⟨left, hleft, hequality⟩ := Result.bind_eq_ok.1 hequality
  obtain ⟨right, hright, hequality⟩ := Result.bind_eq_ok.1 hequality
  obtain rfl := Result.pure_eq_ok.1 hequality
  obtain rfl := Except.ok.inj (hinner.symm.trans hleft)
  rw [Scope.resolveOuter_child hf hc.joins] at hright
  obtain rfl := Except.ok.inj (houter.symm.trans hright)
  refine ⟨inner, outer, q, q', rfl, rfl, ?_, ?_⟩
  · rw [Scope.resolve, Scope.resolveFrom_bare hf] at houter
    rw [Entry.eq_of_resolve houter]
    rfl
  · exact {
      column := hc.isColumn hgroups hselection
      single := hc'.exists_isColumn hgroups hplain
      root := hc'.root.trans hc.root.symm
      joins := hjoins
      condition := hcondition }

variable {b : Draft E (ScopedCondition E)} {purpose : Purpose} {rows rows' : List Row}

/-- Rows of the values in the column of a sub query are those for which the sub query, correlated
by an equality with its column, has a row. -/
theorem rows_isIn_eq_rows_exist (hf : '.' ∉ f.toList) (hg : g.function? = none)
    (hstar : '*' ∉ g.field.toList) (hgroups : s.outline.groups = [])
    (hplain : ∀ c ∈ s.outline.selects, c.function? = none)
    (hq : ofDraft purpose
      (b.filter (.leaf none (.subQuery f .isIn ((s.selectOnly [g]).withResultType type)))) = .ok q)
    (hq' : ofDraft purpose
      (b.filter (.leaf none (.exist (s.filter (.leaf none (.fields g.field .equal f))) true))) =
        .ok q')
    (hrows : q.run data = .ok rows) (hrows' : q'.run data = .ok rows') : rows = rows' := by
  rw [ofDraft, Draft.interpretAll_filter_leaf] at hq hq'
  obtain ⟨known, hc⟩ := ofLevel_eq_ok.1 hq
  obtain ⟨known', hc'⟩ := ofLevel_eq_ok.1 hq'
  obtain ⟨w?, p, hw, hp, hcondition⟩ := GraphClause.foldPredicate_concat_eq_ok.1 hc.condition
  obtain ⟨w?', p', hw', hp', hcondition'⟩ := GraphClause.foldPredicate_concat_eq_ok.1 hc'.condition
  obtain ⟨rfl, hplan⟩ := hc.plan_eq hc'
  obtain rfl := Except.ok.inj (hw.symm.trans hw')
  obtain ⟨inner, outer, sub, sub', rfl, rfl, hdepth, hcorrelated⟩ :=
    correlated_of_leafPredicate hf hg hstar hgroups hplain hp hp'
  have houter : outer.origin.depth = ([] : Frames).length :=
    hdepth.trans ((Join.attachAll_pushes hc.joins).over (Joining.over_start _)).depth
  rw [run, meaning_eq, hcondition, Predicate.map_both] at hrows
  rw [run, meaning_eq, hcondition', Predicate.map_both, hplan] at hrows'
  obtain ⟨ts, hts, hrows⟩ := Result.bind_eq_ok.1 hrows
  obtain ⟨ts', hts', hrows'⟩ := Result.bind_eq_ok.1 hrows'
  obtain rfl : ts = ts' := Plan.filtered_unique hts hts' fun t _ _ =>
    hcorrelated.test_eq_holds_iff houter
  exact Except.ok.inj (hrows.symm.trans hrows')

end GraphQuery

/-! ## Owners who are called like a dog -/

namespace Kennel

def person (id : Int) (name : String) : Record :=
  ⟨"Owner", [("id", .long id), ("name", .string name), ("dogs", .list [])]⟩

/-- Eve has a dog that shares its name with an owner. -/
def town : Dataset := ⟨[("Owner", [person 1 "Ada", person 2 "Rex"]),
  ("Dog", [⟨"Dog", [("id", .long 5), ("name", .string "Rex"),
    ("owner", (person 3 "Eve").toValue)]⟩])]⟩

def owners : Draft Kennel (ScopedCondition Kennel) where
  outline := { root := .owner }
  conditions := [.leaf .and (.value "id" .greater (.string "0"))]

def dogsOfEve : Draft Kennel (ScopedCondition Kennel) where
  outline := { root := .dog, joins := [{ Join.ofTable "owner" with alias? := some "o" }] }
  conditions := [.leaf .and (.value "o.name" .equal (.string "Eve")),
    .leaf .or (.value "name" .like (.string "A%"))]

/-- Of both owners one is called like a dog of Eve. -/
theorem rows_isIn_eq_rows_exist_of_namesake : ∃ q q' rows rows',
    GraphQuery.ofDraft .rows (owners.filter (.leaf none (.subQuery "name" .isIn
      ((dogsOfEve.selectOnly [.ofField "name"]).withResultType .string)))) = .ok q ∧
    GraphQuery.ofDraft .rows (owners.filter (.leaf none (.exist
      (dogsOfEve.filter (.leaf none (.fields "name" .equal "name"))) true))) = .ok q' ∧
    q.run town = .ok rows ∧ q'.run town = .ok rows' ∧ rows = rows' ∧ rows.length = 1 := by
  have hrun (d : Draft Kennel (ScopedCondition Kennel)) (n : Nat)
      (h : ((GraphQuery.ofDraft .rows d).bind fun q => q.run town).map List.length = .ok n) :
      ∃ q rows, GraphQuery.ofDraft .rows d = .ok q ∧ q.run town = .ok rows ∧ rows.length = n := by
    obtain ⟨rows, h, hlength⟩ := Result.map_eq_ok.1 h
    obtain ⟨q, hq, hrows⟩ := Result.bind_eq_ok.1 h
    exact ⟨q, rows, hq, hrows, hlength⟩
  obtain ⟨q, rows, hq, hrows, hone⟩ := hrun (owners.filter (.leaf none (.subQuery "name" .isIn
    ((dogsOfEve.selectOnly [.ofField "name"]).withResultType .string)))) 1 (by decide +kernel)
  obtain ⟨q', rows', hq', hrows', -⟩ := hrun (owners.filter (.leaf none (.exist
    (dogsOfEve.filter (.leaf none (.fields "name" .equal "name"))) true))) 1 (by decide +kernel)
  have hplain : ∀ c ∈ dogsOfEve.outline.selects, c.function? = none := nofun
  exact ⟨q, q', rows, rows', hq, hq', hrows, hrows', GraphQuery.rows_isIn_eq_rows_exist (by decide)
    rfl (by decide) rfl hplain hq hq' hrows hrows', hone⟩

end Kennel

end EntityQuery
