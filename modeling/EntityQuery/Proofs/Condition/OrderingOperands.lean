import EntityQuery.Proofs.Condition.PlainDraft

/-! # Operands of orderings

Both kinds of queries cast what a field is ordered against to the type of the field, which a text
query finds through the names of its level and a query graph through its scope.  For plain drafts
the two agree on every field of the level itself (`ordering_operands_agree`).  A text query knows no
alias of the queries around it, so that a field behind such an alias has a type in the graph
only. -/

namespace EntityQuery

variable {E κ σ : Type}

/-! ## One draft for both kinds of queries -/

/-- A condition that every kind of query knows. -/
def Leaf.widen : Leaf σ Empty → Leaf σ κ
  | .value field operator v => .value field operator v
  | .subQuery field operator query => .subQuery field operator query
  | .fields field operator second => .fields field operator second
  | .exist query positive => .exist query positive
  | .custom c => c.elim

namespace Clause

mutual

/-- A condition without custom parts is one whatever custom parts may be. -/
def widen : Clause σ Empty → Clause σ κ
  | .leaf a l => .leaf a l.widen
  | .group a members => .group a (widenAll members)

def widenAll : List (Clause σ Empty) → List (Clause σ κ)
  | [] => []
  | c :: cs => widen c :: widenAll cs

end

mutual

/-- Widening leaves the leaves where they are. -/
theorem leaves_widen (c : Clause σ Empty) :
    (c.widen : Clause σ κ).leaves = c.leaves.map Leaf.widen := by
  match c with
  | .leaf a l => rfl
  | .group a members => exact leavesAll_widenAll members

theorem leavesAll_widenAll (cs : List (Clause σ Empty)) :
    leavesAll (widenAll cs : List (Clause σ κ)) = (leavesAll cs).map Leaf.widen := by
  match cs with
  | [] => rfl
  | c :: cs =>
    rw [widenAll, leavesAll, leavesAll, List.map_append, leaves_widen c, leavesAll_widenAll cs]

end

end Clause

namespace Draft

/-- The draft for a kind of query that knows conditions of its own, of which it has none. -/
def widen : Draft E Empty → Draft E κ :=
  interpret fun outline conditions => ⟨outline, Clause.widenAll conditions⟩

theorem outline_widen (d : Draft E Empty) : (d.widen : Draft E κ).outline = d.outline := by
  obtain ⟨outline, conditions⟩ := d
  rfl

theorem leavesAll_widen (d : Draft E Empty) :
    Clause.leavesAll (d.widen : Draft E κ).conditions =
      (Clause.leavesAll d.conditions).map fun l => (l.map widen).widen := by
  obtain ⟨outline, conditions⟩ := d
  rw [widen, interpret, Clause.leavesAll_widenAll, leavesAll_interpretAll, List.map_map]
  rfl

end Draft

open ValueCondition (OrderAlike)

/-! ## Levels -/

variable [Schema E]

open GraphQuery (Compiled subQuery)

section Levels

variable {base known : Scope E} {l : Level E} {outer : List (Level E)} {purpose : Purpose}

/-- The leaves of a condition are ordered alike if their sub queries are. -/
theorem GraphClause.orderAlike_leafPredicate {names : Names E}
    {leaf : Leaf (Draft E Empty) Empty} {p : Predicate (GraphQuery E)}
    (hnames : names.ReadsOff l outer) (hk : known.ReadsOff l outer)
    (hq : ∀ sub ∈ leaf.query?, ∀ q, (Draft.interpret subQuery sub.widen).query known = .ok q →
      OrderAlike sub.widen.valueConditions q.orderings)
    (h : leafPredicate known ((leaf.map Draft.widen).widen.map (Draft.interpret subQuery)) =
      .ok p) :
    OrderAlike (Leaf.valueConditions names ((leaf.map Draft.widen).widen.map Draft.valueConditions))
      (p.orderings GraphQuery.orderings outer.length) := by
  cases leaf with
  | value field operator v =>
    obtain ⟨path, hpath, h⟩ := Result.bind_eq_ok.1 h
    obtain ⟨ha, ht⟩ := hnames.type?_of_resolve hk hpath
    exact Predicate.orderAlike_compareValue h ha ht
  | subQuery field operator sub =>
    obtain ⟨path, -, h⟩ := Result.bind_eq_ok.1 h
    obtain ⟨-, -, -, q, hsub, rfl⟩ := inSubQuery_eq_ok.1 h
    rw [Predicate.orderings_signed]
    exact hq sub rfl q hsub
  | fields field operator second =>
    obtain ⟨build, hb, left, -, right, -, rfl⟩ := betweenFields_eq_ok.1 h
    rw [Predicate.orderings_between? _ _ hb]
    exact .nil
  | exist sub positive =>
    obtain ⟨q, hsub, h⟩ := Result.bind_eq_ok.1 h
    obtain rfl := Result.pure_eq_ok.1 h
    rw [Predicate.orderings_signed]
    exact hq sub rfl q hsub
  | custom c => exact c.elim

/-- The conditions of a draft: those of its joins, and behind them those of its leaves. -/
theorem Draft.valueConditions_eq (d : Draft E String) : d.valueConditions =
    d.outline.rows.flatMap JoinedRows.valueConditions ++
      (Clause.leavesAll d.conditions).flatMap fun leaf =>
        Leaf.valueConditions d.outline.names (leaf.map Draft.valueConditions) := by
  obtain ⟨outline, conditions⟩ := d
  rw [valueConditions, interpret, Outline.valueConditions, leavesAll_interpretAll,
    List.flatMap_map]

theorem Draft.valueConditions_widen (d : Draft E Empty) :
    (d.widen : Draft E String).valueConditions =
      d.outline.rows.flatMap JoinedRows.valueConditions ++
        (Clause.leavesAll d.conditions).flatMap fun leaf =>
          Leaf.valueConditions d.outline.names
            ((leaf.map widen).widen.map Draft.valueConditions) := by
  rw [valueConditions_eq, outline_widen, leavesAll_widen, List.flatMap_map]

/-- The names of a plain outline stand for the nodes of its joins. -/
theorem Outline.IsPlain.names_readsOff {o : Outline E} {nodes : List (JoinNode E)}
    (ho : o.IsPlain) (h : o.rows.map JoinedRows.source = nodes.map JoinNode.source)
    (outer : List (Level E)) : o.names.ReadsOff ⟨o.root, nodes⟩ outer where
  root := Names.root_introduceAll _ _
  entity? name := by
    have hnodup : (Level.names ⟨o.root, nodes⟩).Nodup := by
      rw [Level.names, JoinNode.map_name_eq h]
      exact ho.aliases
    have hname : o.name = Schema.acronym o.root := by
      rw [Outline.name, ho.acronym, Option.getD_none]
    rw [Outline.names, Names.entity?_introduceAll _ h hnodup outer.length, Names.entity?_ofRoot,
      hname]

/-- A plain level is ordered alike in both kinds of queries if its sub queries are. -/
theorem GraphQuery.orderAlike_of_compiled {d : Draft E Empty} {q : GraphQuery E}
    (hd : d.outline.IsPlain) (hroot : base.root = d.outline.root)
    (hc : Compiled purpose base known d.outline
      (Draft.interpretAll subQuery (d.widen : Draft E (ScopedCondition E)).conditions) q)
    (hn : Scope.Nested (q.plan.level :: outer) known)
    (hq : ∀ leaf ∈ Clause.leavesAll d.conditions, ∀ sub ∈ leaf.query?, ∀ q',
      (Draft.interpret subQuery sub.widen).query known = .ok q' →
      OrderAlike sub.widen.valueConditions q'.orderings) :
    OrderAlike (d.widen : Draft E String).valueConditions q.orderings := by
  have hk := hn.readsOff
  have hparent : some d.outline.root = some base.rootEntry.entity := congrArg some hroot.symm
  have hfresh : Joining.Fresh ⟨[], base⟩ d.outline.rows := hd.aliases
  obtain ⟨nodes, hnodes, hdepth, hm⟩ := Join.attachAll_makes hd.joins hparent hfresh hc.joins
  obtain rfl : q.plan.joins = nodes := hnodes
  have hnames : d.outline.names.ReadsOff q.plan.level outer := by
    rw [Plan.level, hc.root]
    exact hd.names_readsOff hm.sources outer
  obtain ⟨leaves, hl, hcondition⟩ :=
    GraphClause.orderings_foldPredicate GraphQuery.orderings q.plan.depth hc.condition
  rw [Draft.leavesAll_interpretAll, Draft.leavesAll_widen, List.map_map, Result.mapM_eq_ok,
    List.forall₂_map_left_iff] at hl
  rw [GraphQuery.orderings_eq, Draft.valueConditions_widen, hcondition]
  have hplan : q.plan.depth = outer.length := hc.depth.trans hk.depth
  refine .append ?_ (.flatMap ?_)
  · have hbase : base.depth = q.plan.depth := (hc.depth.trans hdepth).symm
    exact hbase ▸ hm.orderings
  · rw [hplan]
    refine ((List.forall₂_and_left _ _).2 ⟨hq, hl⟩).imp fun leaf p hp => ?_
    exact GraphClause.orderAlike_leafPredicate hnames hk hp.1 hp.2

/-- However deep a plain sub query stands, it is ordered alike in both kinds of queries. -/
theorem GraphQuery.orderAlike_subQuery (d : Draft E Empty) : d.IsPlain →
    ∀ (outer : List (Level E)) (around : Scope E), Scope.Nested outer around →
    ∀ q, (Draft.interpret subQuery d.widen).query around = .ok q →
      OrderAlike (d.widen : Draft E String).valueConditions q.orderings := by
  induction d using Draft.induction with
  | level d ih =>
    intro hd outer around ha q h
    obtain ⟨houtline, hsubs⟩ := Draft.isPlain_iff.1 hd
    rw [query_subQuery, Draft.outline_widen] at h
    obtain ⟨known, hc⟩ := ofLevel_eq_ok.1 h
    have hn := Scope.Nested.inner_of_compiled ha hc
    -- The scope of this level is the one around its sub queries.
    refine orderAlike_of_compiled houtline rfl hc hn fun leaf hleaf sub hsub => ?_
    exact ih leaf hleaf sub hsub (hsubs leaf hleaf sub hsub) _ known hn

end Levels

/-! ## Drafts -/

/-- What an ordering in a draft comes to in both kinds of queries: the parameter that is bound for
it, and a comparison in the graph.  They are made with the same value, unless the graph compares a
field of a query around the one that the ordering stands in. -/
structure BoundAlike (c : ValueCondition) (bound : Value) (o : GraphOrdering) : Prop where
  comparator : c.operator.comparator? = some o.comparator
  attributes : o.path.attributes <:+ Text.split '.' c.field
  value : o.IsOwn → bound = o.literal

/-- Conditions that order alike are bound to equal values. -/
theorem ValueCondition.OrderAlike.boundAlike {cs : List ValueCondition} {ps : Parameters}
    {os : List GraphOrdering} (h : OrderAlike cs os)
    (hb : List.Forall₂ (fun c p => c.operand = .ok p.2) cs ps) :
    List.Forall₂ (fun b o => BoundAlike b.1 b.2.2 o)
      ((cs.zip ps).filter fun b => b.1.operator.isOrdering) os := by
  induction hb generalizing os with
  | nil =>
    cases h
    exact .nil
  | @cons c p cs ps hp _ ih =>
    rw [List.zip_cons_cons]
    by_cases ho : c.operator.isOrdering
    · rw [OrderAlike, orderings, List.filter_cons_of_pos (by exact ho)] at h
      rw [List.filter_cons_of_pos (by exact ho)]
      cases h with
      | @cons _ o _ os here hos =>
        have hvalue : o.IsOwn → p.2 = o.literal := fun hown =>
          Except.ok.inj (hp.symm.trans (here.operand hown))
        exact .cons ⟨here.comparator, here.attributes, hvalue⟩ (ih hos)
    · -- Another condition binds a parameter, too, but the graph orders nothing for it.
      rw [OrderAlike, orderings, List.filter_cons_of_neg (by exact ho)] at h
      rw [List.filter_cons_of_neg (by exact ho)]
      exact ih h

/-- The orderings of a plain draft come to the same comparisons in a text query and in a graph, one
by one. -/
theorem ordering_operands_agree {purpose : Purpose} {d : Draft E Empty} {t : TextQuery}
    {q : GraphQuery E} (hd : d.IsPlain) (ht : TextQuery.ofDraft purpose d.widen = .ok t)
    (hq : GraphQuery.ofDraft purpose d.widen = .ok q) :
    t.parameters.map Prod.fst =
        ValueCondition.names 0 (d.widen : Draft E String).valueConditions ∧
      List.Forall₂ (fun b o => BoundAlike b.1 b.2.2 o)
        (((d.widen : Draft E String).valueConditions.zip t.parameters).filter
          fun b => b.1.operator.isOrdering)
        q.orderings := by
  obtain ⟨houtline, hsubs⟩ := Draft.isPlain_iff.1 hd
  obtain ⟨known, hc⟩ := GraphQuery.ofLevel_eq_ok.1 hq
  have horders : OrderAlike (d.widen : Draft E String).valueConditions q.orderings := by
    rw [Draft.outline_widen] at hc
    have hn := Scope.Nested.outermost_of_compiled hc
    refine GraphQuery.orderAlike_of_compiled houtline rfl hc hn fun leaf hleaf sub hsub => ?_
    exact GraphQuery.orderAlike_subQuery sub (hsubs leaf hleaf sub hsub) _ known hn
  obtain ⟨bound, hbound, hkeys, hnames, hoperands⟩ :=
    ValueCondition.bindAll_eq_ok (TextQuery.ofDraft_binds ht)
  rw [List.nil_append] at hbound
  rw [hbound]
  exact ⟨hkeys.trans hnames, horders.boundAlike hoperands⟩

/-! ## An alias of the query around -/

namespace Kennel

/-- Owners of dogs behind the third one, not too young, and with a dog of an owner who is not too
old. -/
def seniorOwners : Draft Kennel Empty where
  outline := {
    root := .owner
    joins := [({ Join.ofTable "dogs" with alias? := some "d" }).withCondition
      ⟨"id", .greater, .string "3", .and⟩] }
  conditions := [.leaf .and (.value "age" .greaterOrEqual (.string "40")),
    .leaf .and (.exist {
      outline := {
        root := .dog
        joins := [{ Join.ofTable "owner" with alias? := some "o" }] }
      conditions := [.leaf .and (.value "o.age" .less (.string "70"))] } true)]

/-- Owners of a dog behind the third one, which is asked for in a query inside theirs. -/
def ownersOfThird : Draft Kennel Empty where
  outline := { root := .owner, joins := [{ Join.ofTable "dogs" with alias? := some "d" }] }
  conditions := [.leaf .and (.exist {
    outline := { root := .dog }
    conditions := [.leaf .and (.value "d.id" .greater (.string "3"))] } true)]

theorem isPlain_seniorOwners : seniorOwners.IsPlain := by
  have hinner : Outline.IsPlain
      { root := dog, joins := [{ Join.ofTable "owner" with alias? := some "o" }] } :=
    ⟨rfl, ⟨⟨⟨by decide, rfl, by decide⟩, trivial⟩, trivial⟩, by decide +kernel⟩
  refine Draft.isPlain_iff.2 ⟨⟨rfl, ⟨⟨⟨by decide, rfl, by decide⟩, trivial⟩, trivial⟩,
    by decide +kernel⟩, ?_⟩
  refine List.forall_mem_cons.2 ⟨nofun, List.forall_mem_singleton.2 ?_⟩
  rintro _ ⟨⟩
  exact Draft.isPlain_iff.2 ⟨hinner, List.forall_mem_singleton.2 nofun⟩

theorem isPlain_ownersOfThird : ownersOfThird.IsPlain := by
  have hinner : Outline.IsPlain { root := dog } := ⟨rfl, trivial, by decide +kernel⟩
  refine Draft.isPlain_iff.2 ⟨⟨rfl, ⟨⟨⟨by decide, rfl, by decide⟩, trivial⟩, trivial⟩,
    by decide +kernel⟩, ?_⟩
  refine List.forall_mem_singleton.2 ?_
  rintro _ ⟨⟩
  exact Draft.isPlain_iff.2 ⟨hinner, List.forall_mem_singleton.2 nofun⟩

/-- The names and types of what a text query binds. -/
def boundTypes (t : TextQuery) : List (String × Option ScalarType) :=
  t.parameters.map fun p => (p.1, p.2.scalarType?)

/-- Where the orderings of a graph stand and where their paths start, and the types of their
literals. -/
def orderedTypes (q : GraphQuery Kennel) : List (Nat × Origin × Option ScalarType) :=
  q.orderings.map fun o => (o.depth, o.path.origin, o.literal.scalarType?)

theorem exists_queries (d : Draft Kennel Empty) (bound : List (String × Option ScalarType))
    (ordered : List (Nat × Origin × Option ScalarType))
    (ht : (TextQuery.ofDraft .rows d.widen).map boundTypes = .ok bound)
    (hq : (GraphQuery.ofDraft .rows d.widen).map orderedTypes = .ok ordered) :
    ∃ t q, TextQuery.ofDraft .rows d.widen = .ok t ∧ GraphQuery.ofDraft .rows d.widen = .ok q ∧
      boundTypes t = bound ∧ orderedTypes q = ordered := by
  obtain ⟨t, ht, hbound⟩ := Result.map_eq_ok.1 ht
  obtain ⟨q, hq, hordered⟩ := Result.map_eq_ok.1 hq
  exact ⟨t, q, ht, hq, hbound, hordered⟩

/-- Texts that stand for numbers are cast alike on the owners, on their dogs, and on the owners that
a sub query joins. -/
theorem ordering_operands_agree_seniorOwners : ∃ t q, seniorOwners.IsPlain ∧
    TextQuery.ofDraft .rows seniorOwners.widen = .ok t ∧
    GraphQuery.ofDraft .rows seniorOwners.widen = .ok q ∧
    orderedTypes q = [(0, ⟨0, .join 0⟩, some (.integer .long)),
      (0, ⟨0, .root⟩, some (.integer .int)), (1, ⟨1, .join 0⟩, some (.integer .int))] ∧
    List.Forall₂ (fun b o => b.2.2 = o.literal)
      (((seniorOwners.widen : Draft Kennel String).valueConditions.zip t.parameters).filter
        fun b => b.1.operator.isOrdering)
      q.orderings := by
  obtain ⟨t, q, ht, hq, -, hordered⟩ := exists_queries seniorOwners
    [("id_1", some (.integer .long)), ("age_2", some (.integer .int)),
      ("oage_3", some (.integer .int))]
    [(0, ⟨0, .join 0⟩, some (.integer .long)), (0, ⟨0, .root⟩, some (.integer .int)),
      (1, ⟨1, .join 0⟩, some (.integer .int))] (by decide +kernel) (by decide +kernel)
  have hagree := (ordering_operands_agree isPlain_seniorOwners ht hq).2
  have hown : ∀ o ∈ q.orderings, o.IsOwn := by
    intro o ho
    have hmem := List.mem_map_of_mem (f := fun o : GraphOrdering =>
      (o.depth, o.path.origin, o.literal.scalarType?)) ho
    rw [show q.orderings.map _ = _ from hordered] at hmem
    have hlist : ∀ x ∈ [(0, (⟨0, .join 0⟩ : Origin), some (ScalarType.integer .long)),
        (0, ⟨0, .root⟩, some (.integer .int)), (1, ⟨1, .join 0⟩, some (.integer .int))],
        x.2.1.depth = x.1 := by decide
    exact hlist _ hmem
  refine ⟨t, q, isPlain_seniorOwners, ht, hq, hordered, ?_⟩
  exact (((List.forall₂_and_left _ _).2 ⟨hown, hagree.flip⟩).imp fun o b h => h.2.value h.1).flip

/-- An alias of the query around is of no type in the text of the sub query, where the number stays
a text, while the graph casts it. -/
theorem not_ordering_operands_agree : ∃ t q, ownersOfThird.IsPlain ∧
    TextQuery.ofDraft .rows ownersOfThird.widen = .ok t ∧
    GraphQuery.ofDraft .rows ownersOfThird.widen = .ok q ∧
    boundTypes t = [("did_1", some .string)] ∧
    orderedTypes q = [(1, ⟨0, .join 0⟩, some (.integer .long))] ∧
    ¬List.Forall₂ (fun b o => b.2.2 = o.literal)
      (((ownersOfThird.widen : Draft Kennel String).valueConditions.zip t.parameters).filter
        fun b => b.1.operator.isOrdering)
      q.orderings := by
  obtain ⟨t, q, ht, hq, hbound, hordered⟩ := exists_queries ownersOfThird
    [("did_1", some .string)] [(1, ⟨0, .join 0⟩, some (.integer .long))]
    (by decide +kernel) (by decide +kernel)
  refine ⟨t, q, isPlain_ownersOfThird, ht, hq, hbound, hordered, fun hagree => ?_⟩
  obtain ⟨o, os, horderings, hliteral, -⟩ := List.map_eq_cons_iff.1 hordered
  -- The only ordering compares with a number, but only a text is bound.
  rw [horderings] at hagree
  obtain ⟨b, bs, hvalue, -, hbs⟩ := List.forall₂_cons_right_iff.1 hagree
  have hb : b ∈ (ownersOfThird.widen : Draft Kennel String).valueConditions.zip t.parameters :=
    List.mem_of_mem_filter (hbs ▸ List.mem_cons_self)
  have hmem : (b.2.1, b.2.2.scalarType?) ∈ boundTypes t :=
    List.mem_map_of_mem (List.of_mem_zip hb).2
  rw [hbound, List.mem_singleton] at hmem
  have htext := (Prod.mk.inj hmem).2
  rw [hvalue, (Prod.mk.inj (Prod.mk.inj hliteral).2).2] at htext
  exact absurd htext (by decide)

end Kennel

end EntityQuery
