import EntityQuery.GraphQuery
import EntityQuery.Proofs.Condition.Grouping
import EntityQuery.Proofs.GraphQuery.Joins

/-! # Compiled graphs are well formed

A draft without custom conditions compiles to a well-formed graph, whatever its joins are and
however deep its sub queries are nested.  The induction is on the draft: a sub query is well formed
in every valid scope, and the scope of a level is valid once its joins are attached. -/

namespace EntityQuery

variable {E κ : Type}

/-! ## Drafts without custom conditions -/

/-- A sub query stands for its own freedom of custom conditions. -/
def Leaf.CustomFree : Leaf Prop κ → Prop
  | .value .. | .fields .. => True
  | .subQuery _ _ query | .exist query _ => query
  | .custom _ => False

/-- No level has a custom condition. -/
def Draft.CustomFree : Draft E κ → Prop :=
  Draft.interpret fun _ conditions => ∀ l ∈ Clause.leavesAll conditions, l.CustomFree

/-- A draft is free of custom conditions if its leaves and its sub queries are. -/
theorem Draft.customFree_iff {d : Draft E κ} :
    d.CustomFree ↔ ∀ l ∈ Clause.leavesAll d.conditions, (l.map CustomFree).CustomFree := by
  obtain ⟨outline, conditions⟩ := d
  rw [CustomFree, interpret, leavesAll_interpretAll]
  exact List.forall_mem_map

/-- What conjunctions and disjunctions keep holds of a formula if it holds of its leaves. -/
theorem Formula.predicate_induction {ρ : Type} {motive : Predicate ρ → Prop}
    (and : ∀ p q, motive p → motive q → motive (.and p q))
    (or : ∀ p q, motive p → motive q → motive (.or p q)) (f : Formula (Predicate ρ))
    (leaves : ∀ p ∈ f.leaves, motive p) : motive f.predicate := by
  induction f with
  | atom p => exact leaves p (List.mem_singleton_self p)
  | and f g ihf ihg =>
    obtain ⟨hf, hg⟩ := List.forall_mem_append.1 leaves
    exact and _ _ (ihf hf) (ihg hg)
  | or f g ihf ihg =>
    obtain ⟨hf, hg⟩ := List.forall_mem_append.1 leaves
    exact or _ _ (ihf hf) (ihg hg)

variable [Schema E] {outer levels : List (Level E)} {l : Level E} {scope : Scope E}

/-! ## Conditions -/

namespace GraphClause

/-- A sub query that is well formed wherever the condition stands. -/
def SubQueriesWellFormed (scope : Scope E) (levels : List (Level E)) (leaf : GraphLeaf E) : Prop :=
  ∀ sub ∈ leaf.query?, ∀ q, SubQuery.query sub scope = .ok q → q.WellFormed levels

/-- A leaf compiles to a well-formed predicate if its sub query compiles to a well-formed query. -/
theorem wellFormed_leafPredicate {leaf : GraphLeaf E} {p : Predicate (GraphQuery E)}
    (hs : scope.Valid outer l) (hfree : ∀ build, leaf ≠ .custom build)
    (hq : SubQueriesWellFormed scope (outer ++ [l]) leaf)
    (h : leafPredicate scope leaf = .ok p) :
    (p.map GraphQuery.WellFormed).WellFormed (outer ++ [l]) := by
  cases leaf with
  | value field operator v =>
    obtain ⟨path, hpath, h⟩ := Result.bind_eq_ok.1 h
    exact Predicate.wellFormed_compareValue (hs.resolve hpath) h
  | subQuery field operator sub =>
    obtain ⟨path, hpath, h⟩ := Result.bind_eq_ok.1 h
    obtain ⟨-, -, -, query, hquery, rfl⟩ := inSubQuery_eq_ok.1 h
    exact Predicate.WellFormed.signed (p := .inSubQuery (.path path) query)
      ⟨.path (hs.resolve hpath), hq sub rfl query hquery⟩ _
  | fields field operator second =>
    obtain ⟨build, hb, left, hleft, right, hright, rfl⟩ := betweenFields_eq_ok.1 h
    exact Predicate.wellFormed_between? hb (hs.resolve hleft) (hs.resolveOuter hright)
  | exist sub positive =>
    obtain ⟨query, hquery, h⟩ := Result.bind_eq_ok.1 h
    obtain rfl := Result.pure_eq_ok.1 h
    exact Predicate.WellFormed.signed (p := .exist query) (hq sub rfl query hquery) _
  | custom build => exact absurd rfl (hfree build)

/-- Conditions compile to a well-formed predicate if their leaves do. -/
theorem wellFormed_foldPredicate {cs : List (GraphClause E)}
    {p? : Option (Predicate (GraphQuery E))} (hs : scope.Valid outer l)
    (hfree : ∀ leaf ∈ Clause.leavesAll cs, ∀ build, leaf ≠ .custom build)
    (hq : ∀ leaf ∈ Clause.leavesAll cs, SubQueriesWellFormed scope (outer ++ [l]) leaf)
    (h : foldPredicate scope cs = .ok p?) :
    ∀ p ∈ p?, (p.map GraphQuery.WellFormed).WellFormed (outer ++ [l]) := by
  obtain ⟨items, hi, rfl⟩ := Result.map_eq_ok.1 h
  obtain ⟨leaves, fs, hl, hf, rfl⟩ := predicates_fits hi
  intro p hp
  rw [← Formula.predicate_fold] at hp
  obtain ⟨f, hfold, rfl⟩ := Option.map_eq_some_iff.1 hp
  obtain rfl : f.leaves = leaves := by
    rw [← hf.fold_leaves, hfold]
    rfl
  refine Formula.predicate_induction
    (motive := fun p => (p.map GraphQuery.WellFormed).WellFormed (outer ++ [l]))
    (fun _ _ => And.intro) (fun _ _ => And.intro) f fun p hp => ?_
  obtain ⟨leaf, hmem, hleaf⟩ := Result.exists_of_mem_mapM hl hp
  exact wellFormed_leafPredicate hs (hfree leaf hmem) (hq leaf hmem) hleaf

end GraphClause

/-! ## Selections -/

theorem Select.wellFormed_path {s : Select} {p : Path} (hs : scope.Valid outer l)
    (h : s.path scope = .ok p) : p.WellFormed (outer ++ [l]) := by
  rw [path] at h
  split at h
  · split at h
    · split at h
      · rename_i hrows
        obtain rfl := Except.ok.inj h
        exact hs.rows hrows
      · exact absurd h nofun
    · obtain rfl := Except.ok.inj h
      exact hs.rootPath
  · exact hs.resolve h

theorem Select.wellFormed_expression {s : Select} {e : Expression} (hs : scope.Valid outer l)
    (h : s.expression scope = .ok e) (alias? : Option String) :
    Selection.WellFormed (outer ++ [l]) ⟨e, alias?⟩ := by
  obtain ⟨p, hp, rfl⟩ := Result.map_eq_ok.1 h
  have hpath := wellFormed_path hs hp
  cases s.function? with
  | none => exact .path hpath
  | some f => exact .path hpath

namespace Selection

theorem wellFormed_root (hs : scope.Valid outer l) : (root scope).WellFormed (outer ++ [l]) :=
  .path hs.rootPath

theorem wellFormed_ofRows {selects : List Select} {selections : List Selection}
    (hs : scope.Valid outer l) (h : ofRows scope selects = .ok selections) :
    ∀ s ∈ selections, s.WellFormed (outer ++ [l]) := by
  cases selects with
  | nil =>
    obtain rfl := Except.ok.inj h
    exact List.forall_mem_singleton.2 (wellFormed_root hs)
  | cons s ss =>
    intro t ht
    obtain ⟨u, -, hu⟩ := Result.exists_of_mem_mapM h ht
    obtain ⟨e, he, rfl⟩ := Result.map_eq_ok.1 hu
    exact Select.wellFormed_expression hs he _

theorem wellFormed_ofColumn {selects : List Select} {selection : Selection}
    (hs : scope.Valid outer l) (h : ofColumn scope selects = .ok selection) :
    selection.WellFormed (outer ++ [l]) := by
  match selects with
  | [] =>
    obtain rfl := Except.ok.inj h
    exact wellFormed_root hs
  | [s] =>
    obtain ⟨e, he, rfl⟩ := Result.map_eq_ok.1 h
    exact Select.wellFormed_expression hs he _
  | _ :: _ :: _ => exact absurd h nofun

end Selection

/-! ## Levels -/

namespace GraphQuery

theorem wellFormed_sorting {o : Order} {s : Sorting} (hs : scope.Valid outer l)
    (h : sorting scope o = .ok s) : s.expression.WellFormed (outer ++ [l]) := by
  obtain ⟨p, hp, rfl⟩ := Result.map_eq_ok.1 h
  exact .path (hs.resolve hp)

theorem wellFormed_group {field : String} {e : Expression} (hs : scope.Valid outer l)
    (h : group scope field = .ok e) : e.WellFormed (outer ++ [l]) := by
  obtain ⟨p, hp, rfl⟩ := Result.map_eq_ok.1 h
  exact .path (hs.resolve hp)

theorem wellFormed_orders {purpose : Purpose} {o : Outline E} {ss : List Sorting}
    (hs : scope.Valid outer l) (h : orders purpose scope o = .ok ss) :
    ∀ s ∈ ss, s.expression.WellFormed (outer ++ [l]) := by
  rw [orders] at h
  split at h
  · intro s hmem
    obtain ⟨o, -, ho⟩ := Result.exists_of_mem_mapM h hmem
    exact wellFormed_sorting hs ho
  · obtain rfl := Except.ok.inj h
    exact nofun

/-- Selections for any purpose are well formed. -/
theorem wellFormed_selections {purpose : Purpose} {o : Outline E} {ss : List Selection}
    (hs : scope.Valid outer l) (h : selections purpose scope o = .ok ss) :
    ∀ s ∈ ss, s.WellFormed (outer ++ [l]) := by
  cases purpose with
  | rows => exact Selection.wellFormed_ofRows hs h
  | count =>
    obtain rfl := Except.ok.inj h
    exact List.forall_mem_singleton.2 (.path hs.rootPath)
  | column =>
    obtain ⟨s, hc, rfl⟩ := Result.map_eq_ok.1 h
    exact List.forall_mem_singleton.2 (Selection.wellFormed_ofColumn hs hc)

/-- The condition of a level without custom conditions is well formed if its sub queries are in
every valid scope. -/
theorem wellFormed_condition {d : Draft E (ScopedCondition E)}
    {condition? : Option (Predicate (GraphQuery E))} (hs : scope.Valid outer l)
    (hfree : d.CustomFree)
    (hq : ∀ leaf ∈ Clause.leavesAll d.conditions, ∀ sub ∈ leaf.query?, sub.CustomFree →
      ∀ (outer : List (Level E)) (l : Level E) (scope : Scope E), scope.Valid outer l →
      ∀ q, (Draft.interpret subQuery sub).query scope = .ok q → q.WellFormed (outer ++ [l]))
    (h : GraphClause.foldPredicate scope (Draft.interpretAll subQuery d.conditions) =
      .ok condition?) :
    ∀ p ∈ condition?, (p.map GraphQuery.WellFormed).WellFormed (outer ++ [l]) := by
  have hleaves := Draft.customFree_iff.1 hfree
  refine GraphClause.wellFormed_foldPredicate hs ?_ ?_ h
  · rw [Draft.leavesAll_interpretAll]
    refine List.forall_mem_map.2 fun leaf hleaf build hcustom => ?_
    cases leaf with
    | custom c => exact hleaves _ hleaf
    | value | subQuery | fields | exist => exact absurd hcustom nofun
  · rw [Draft.leavesAll_interpretAll]
    refine List.forall_mem_map.2 fun leaf hleaf sub hsub q hsubquery => ?_
    have hsubfree := hleaves leaf hleaf
    cases leaf with
    | subQuery field operator sub' | exist sub' positive =>
      rw [← Option.some.inj hsub] at hsubquery
      exact hq _ hleaf sub' rfl hsubfree outer _ scope hs q hsubquery
    | value | fields | custom => exact absurd hsub nofun

/-- The parts of a graph are compiled in the scope that knows its joins. -/
structure Compiled (purpose : Purpose) (scope known : Scope E) (o : Outline E)
    (conditions : List (GraphClause E)) (q : GraphQuery E) : Prop where
  joins : Join.attachAll ⟨[], scope⟩ scope.rootEntry o.joins = .ok ⟨q.plan.joins, known⟩
  fetches : GraphQuery.fetches purpose known o = .ok q.plan.fetches
  selections : GraphQuery.selections purpose known o = .ok q.plan.selections
  orders : GraphQuery.orders purpose known o = .ok q.plan.orders
  condition : GraphClause.foldPredicate known conditions = .ok q.condition?
  groups : o.groups.mapM (group known) = .ok q.plan.groups
  depth : q.plan.depth = known.depth
  root : q.plan.root = o.root
  first : q.plan.first? = if purpose = .rows then o.offset? else none
  max : q.plan.max? = if purpose = .rows then o.limit? else none
  resultType : q.plan.resultType? = if purpose = .column then o.resultType? else none

/-- A level compiles if each of its parts does, one after the other. -/
theorem ofLevel_eq_ok {purpose : Purpose} {o : Outline E} {conditions : List (GraphClause E)}
    {q : GraphQuery E} : ofLevel purpose scope o conditions = .ok q ↔
      ∃ known, Compiled purpose scope known o conditions q := by
  constructor
  · intro h
    obtain ⟨⟨joins, known⟩, hjoins, h⟩ := Result.bind_eq_ok.1 h
    obtain ⟨fetches, hfetches, h⟩ := Result.bind_eq_ok.1 h
    obtain ⟨selections, hselections, h⟩ := Result.bind_eq_ok.1 h
    obtain ⟨orders, horders, h⟩ := Result.bind_eq_ok.1 h
    obtain ⟨condition?, hcondition, h⟩ := Result.bind_eq_ok.1 h
    obtain ⟨groups, hgroups, h⟩ := Result.bind_eq_ok.1 h
    obtain rfl := Result.pure_eq_ok.1 h
    exact ⟨known, hjoins, hfetches, hselections, horders, hcondition, hgroups, rfl, rfl, rfl, rfl,
      rfl⟩
  · rintro ⟨known, h⟩
    obtain ⟨plan, condition?⟩ := q
    obtain ⟨depth, root, joins, fetches, selections, orders, groups, first?, max?, resultType?⟩ :=
      plan
    obtain ⟨hjoins, hfetches, hselections, horders, hcondition, hgroups, rfl, rfl, rfl, rfl,
      rfl⟩ := h
    simp only [ofLevel, Result.bind_eq_ok]
    exact ⟨⟨joins, known⟩, hjoins, fetches, hfetches, selections, hselections, orders, horders,
      condition?, hcondition, groups, hgroups, rfl⟩

/-- A level is well formed in a valid scope if its sub queries are in every such scope. -/
theorem wellFormed_ofLevel {purpose : Purpose} {d : Draft E (ScopedCondition E)}
    {q : GraphQuery E} (hs : scope.Valid outer ⟨d.outline.root, []⟩) (hfree : d.CustomFree)
    (hq : ∀ leaf ∈ Clause.leavesAll d.conditions, ∀ sub ∈ leaf.query?, sub.CustomFree →
      ∀ (outer : List (Level E)) (l : Level E) (scope : Scope E), scope.Valid outer l →
      ∀ q, (Draft.interpret subQuery sub).query scope = .ok q → q.WellFormed (outer ++ [l]))
    (h : ofLevel purpose scope d.outline (Draft.interpretAll subQuery d.conditions) = .ok q) :
    q.WellFormed outer := by
  obtain ⟨known, h⟩ := ofLevel_eq_ok.1 h
  have hroot : Joining.Has outer d.outline.root ⟨[], scope⟩ scope.rootEntry :=
    ⟨hs.depth, congrArg some hs.root.symm⟩
  obtain ⟨hjoined, -⟩ := Join.attachAll_valid (Joining.valid_start hs) hroot h.joins
  rw [← h.root] at hjoined
  have hknown : known.Valid outer q.plan.level := hjoined.scope
  refine wellFormed_iff.2 ⟨?_, ?_⟩
  · exact {
      depth := h.depth.trans hknown.depth
      aliases := hjoined.aliases
      joins := hjoined.nodes
      selections := wellFormed_selections hknown h.selections
      orders := wellFormed_orders hknown h.orders
      groups := by
        intro e hmem
        obtain ⟨field, -, hfield⟩ := Result.exists_of_mem_mapM h.groups hmem
        exact wellFormed_group hknown hfield }
  · exact wellFormed_condition hknown hfree hq h.condition

theorem outline_subQuery (d : Draft E (ScopedCondition E)) :
    (Draft.interpret subQuery d).outline = d.outline := by
  obtain ⟨outline, conditions⟩ := d
  rfl

theorem query_subQuery (d : Draft E (ScopedCondition E)) (around : Scope E) :
    (Draft.interpret subQuery d).query around =
      ofLevel .column (around.child d.outline.root) d.outline
        (Draft.interpretAll subQuery d.conditions) := by
  obtain ⟨outline, conditions⟩ := d
  rfl

/-- A sub query is well formed inside every level that its scope is valid for. -/
theorem wellFormed_subQuery (d : Draft E (ScopedCondition E)) : d.CustomFree →
    ∀ (outer : List (Level E)) (l : Level E) (scope : Scope E), scope.Valid outer l →
    ∀ q, (Draft.interpret subQuery d).query scope = .ok q → q.WellFormed (outer ++ [l]) := by
  induction d using Draft.induction with
  | level d ih =>
    intro hfree outer l scope hs q h
    rw [query_subQuery] at h
    exact wellFormed_ofLevel (hs.child d.outline.root) hfree ih h

/-- The graph of a draft without custom conditions is well formed. -/
theorem ofDraft_wellFormed {purpose : Purpose} {d : Draft E (ScopedCondition E)}
    {q : GraphQuery E} (hfree : d.CustomFree) (h : ofDraft purpose d = .ok q) :
    q.WellFormed [] :=
  wellFormed_ofLevel (Scope.valid_ofRoot d.outline.root) hfree
    (fun _ _ sub _ => wellFormed_subQuery sub) h

end GraphQuery

/-- Dogs that are called like the joined dog `d` and whose owner is, too. -/
def Kennel.namesakes : Draft Kennel (ScopedCondition Kennel) where
  outline := { root := .dog, joins := [{ Join.ofTable "owner" with alias? := some "o" }] }
  conditions := [.leaf .and (.fields "name" .equal "d.name"),
    .leaf .and (.fields "o.name" .equal "name")]

/-- Owners with a dog behind `A` that has namesakes. -/
def Kennel.ownersOfNamesakes : Draft Kennel (ScopedCondition Kennel) where
  outline := {
    root := .owner
    joins := [({ Join.ofTable "dogs" with alias? := some "d" }).withCondition
      ⟨"name", .greater, .string "A", .and⟩] }
  conditions := [.leaf .and (.exist namesakes true)]

theorem Kennel.customFree_ownersOfNamesakes : ownersOfNamesakes.CustomFree := by
  have hnamesakes : namesakes.CustomFree := Draft.customFree_iff.2
    (List.forall_mem_cons.2 ⟨trivial, List.forall_mem_singleton.2 trivial⟩)
  exact Draft.customFree_iff.2 (List.forall_mem_singleton.2 hnamesakes)

theorem GraphQuery.ofDraft_wellFormed_of_namesakes :
    Kennel.ownersOfNamesakes.CustomFree ∧
      ∃ q, ofDraft .rows Kennel.ownersOfNamesakes = .ok q ∧ q.WellFormed [] := by
  have hok : (ofDraft .rows Kennel.ownersOfNamesakes).isOk := by decide +kernel
  obtain ⟨q, hq⟩ := Result.exists_of_isOk hok
  exact ⟨Kennel.customFree_ownersOfNamesakes, q, hq,
    ofDraft_wellFormed Kennel.customFree_ownersOfNamesakes hq⟩

end EntityQuery
