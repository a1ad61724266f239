import EntityQuery.GraphQuery.Join
import EntityQuery.Proofs.GraphQuery.Scope
import EntityQuery.Proofs.Scalar

/-! # Joins are well formed

While joins are attached, the nodes made so far are the level that the scope is valid for.  A node
is made in this scope before the scope knows it, so its condition sees its own rows and the nodes
before it; an alias that is taken stands for the node that took it, so no two nodes share one. -/

namespace EntityQuery

variable {E : Type}

/-! ## Rows of a level -/

section Level

variable {outer : List (Level E)} {root : E}

/-- Rows that the level itself has so far. -/
structure Joining.Has (outer : List (Level E)) (root : E) (s : Joining E) (rows : Entry E) :
    Prop where
  depth : rows.origin.depth = outer.length
  entity : Level.entity? ⟨root, s.nodes⟩ rows.origin.node = some rows.entity

/-- Nodes are only added behind those that are there. -/
def Joining.Grows (s s' : Joining E) : Prop := ∃ more, s'.nodes = s.nodes ++ more

namespace Joining

variable {s s' s'' : Joining E} {rows : Entry E} {name : String}

theorem Grows.refl (s : Joining E) : s.Grows s := ⟨[], (List.append_nil _).symm⟩

theorem Grows.trans : s.Grows s' → s'.Grows s'' → s.Grows s'' := by
  rintro ⟨more, hm⟩ ⟨more', hm'⟩
  exact ⟨more ++ more', by rw [hm', hm, List.append_assoc]⟩

theorem grows_push (s : Joining E) (n : JoinNode E) : s.Grows (s.push n) := ⟨[n], rfl⟩

/-- Rows that a level has stay where they are. -/
theorem Has.grows (h : s.Has outer root rows) (hg : s.Grows s') : s'.Has outer root rows := by
  obtain ⟨more, hm⟩ := hg
  refine ⟨h.depth, ?_⟩
  rw [hm]
  exact Level.entity?_append h.entity more

/-- Rows of a level are valid inside all levels around it. -/
theorem Has.valid (h : s.Has outer root rows) : rows.Valid (outer ++ [⟨root, s.nodes⟩]) := by
  obtain ⟨⟨depth, node⟩, e⟩ := rows
  obtain rfl : depth = outer.length := h.depth
  exact (Origin.entity?_last node outer _).trans h.entity

/-- A name is free if no node has it. -/
theorem taken?_eq_none : s.taken? name = none ↔ name ∉ s.nodes.map JoinNode.name := by
  cases hi : s.nodes.findIdx? fun n => n.name = name with
  | none =>
    have hne := List.findIdx?_eq_none_iff.1 hi
    simp only [taken?, hi, List.mem_map, not_exists, not_and]
    exact ⟨fun _ n hn => of_decide_eq_false (hne n hn), fun _ => rfl⟩
  | some i =>
    obtain ⟨hlt, hat, -⟩ := List.findIdx?_eq_some_iff_getElem.1 hi
    have hmem : name ∈ s.nodes.map JoinNode.name :=
      List.mem_map.2 ⟨_, List.getElem_mem hlt, of_decide_eq_true hat⟩
    simp [taken?, hi, hlt, hmem]

end Joining

/-- Rows of a level are those of the root or of one of its joins. -/
theorem Level.parent_of_entity? {joins : List (JoinNode E)} {node : Node} {e : E}
    (h : entity? ⟨root, joins⟩ node = some e) :
    node = .root ∨ ∃ index < joins.length, node = .join index := by
  cases node with
  | root => exact .inl rfl
  | join index =>
    obtain ⟨n, hn, -⟩ := Option.map_eq_some_iff.1 h
    exact .inr ⟨index, (List.getElem?_eq_some_iff.1 hn).1, rfl⟩

end Level

variable [Schema E] {levels : List (Level E)}

/-! ## Comparisons -/

namespace Predicate

variable {ρ : Type} {f : ρ → List (Level E) → Prop} {path : Path}

theorem WellFormed.signed {p : Predicate ρ} (h : (p.map f).WellFormed levels) (positive : Bool) :
    ((signed positive p).map f).WellFormed levels := by
  cases positive with
  | false => exact h
  | true => exact h

/-- Only orderings ask for a type. -/
theorem ordersInType_of_equality {left right : Expression} {comparator : Comparator}
    (h : comparator.isOrdering = false) : left.OrdersInType comparator right := by
  intro p v type _ _ ho
  rw [h] at ho
  exact absurd ho nofun

/-- A comparison with a value is well formed if it is no ordering in another type. -/
theorem wellFormed_compareLiteral (hp : path.WellFormed levels) {comparator : Comparator}
    {v : Value} (h : ∀ type, path.type? = some type → comparator.isOrdering →
      v.scalarType? = some type) :
    ((compareLiteral path comparator v : Predicate ρ).map f).WellFormed levels := by
  refine ⟨.path hp, .literal v, ?_⟩
  rintro p w type ⟨⟩ ⟨⟩ ho ht
  exact h type ht ho

/-- An ordering is well formed since its value was cast to the type of the attribute. -/
theorem wellFormed_ordered (hp : path.WellFormed levels) {comparator : Comparator} {v : Value}
    {p : Predicate ρ} (h : ordered path comparator v = .ok p) : (p.map f).WellFormed levels := by
  obtain ⟨w, hw, rfl⟩ := Result.map_eq_ok.1 h
  refine wellFormed_compareLiteral hp fun type ht _ => ?_
  unfold orderingOperand at hw
  rw [ht] at hw
  split at hw
  · exact absurd hw nofun
  · obtain ⟨s, hs, rfl⟩ := Result.map_eq_ok.1 hw
    exact congrArg some (Value.scalarType?_of_cast hs)

theorem wellFormed_findInSet (hp : path.WellFormed levels) (comparator : Comparator) (v : Value) :
    ((findInSet path comparator v : Predicate ρ).map f).WellFormed levels := by
  refine ⟨.findInSet (.literal _) (.path hp), .literal _, ?_⟩
  intro p w type hleft
  exact absurd hleft nofun

/-- The comparison of a well-formed path with a value is well formed. -/
theorem wellFormed_compareValue (hp : path.WellFormed levels) {operator : Operator} {v : Value}
    {p : Predicate ρ} (h : compareValue path operator v = .ok p) :
    (p.map f).WellFormed levels := by
  cases operator with
  | isNull | isNotNull =>
    obtain rfl := Except.ok.inj h
    exact .path hp
  | equal | diff =>
    obtain rfl := Except.ok.inj h
    split
    · exact .path hp
    · exact wellFormed_compareLiteral hp fun _ _ ho => absurd ho nofun
  | less | lessOrEqual | greater | greaterOrEqual => exact wellFormed_ordered hp h
  | like | notLike =>
    obtain rfl := Except.ok.inj h
    exact ⟨.path hp, .literal _⟩
  | isIn | notIn =>
    rw [compareValue] at h
    split at h
    · obtain rfl := Except.ok.inj h
      exact WellFormed.signed (p := .isIn (.path path) _) (.path hp) _
    · exact absurd h nofun
  | findInSet | notFindInSet =>
    obtain rfl := Except.ok.inj h
    exact wellFormed_findInSet hp _ v

/-- Two paths are never compared with a literal. -/
theorem wellFormed_between? {operator : Operator} {build : Expression → Expression → Predicate ρ}
    (h : between? operator = some build) {left right : Path} (hl : left.WellFormed levels)
    (hr : right.WellFormed levels) :
    ((build (.path left) (.path right)).map f).WellFormed levels := by
  have horders : ∀ comparator, (Expression.path left).OrdersInType comparator (.path right) := by
    intro comparator p v type _ hright
    exact absurd hright nofun
  cases operator with
  | isIn | notIn | isNull | isNotNull | findInSet | notFindInSet => exact absurd h nofun
  | equal | diff | less | lessOrEqual | greater | greaterOrEqual =>
    obtain rfl := Option.some.inj h
    exact ⟨.path hl, .path hr, horders _⟩
  | like | notLike =>
    obtain rfl := Option.some.inj h
    exact ⟨.path hl, .path hr⟩

theorem WellFormed.foldl {p : Predicate ρ} (hp : (p.map f).WellFormed levels)
    {items : List (Connective × Predicate ρ)}
    (h : ∀ item ∈ items, (item.2.map f).WellFormed levels) :
    ((items.foldl (fun p next => attach next.1 p next.2) p).map f).WellFormed levels := by
  induction items generalizing p with
  | nil => exact hp
  | cons item items ih =>
    obtain ⟨hitem, hitems⟩ := List.forall_mem_cons.1 h
    refine ih ?_ hitems
    obtain ⟨c, q⟩ := item
    cases c with
    | and => exact ⟨hp, hitem⟩
    | or => exact ⟨hp, hitem⟩

/-- Folding keeps predicates well formed. -/
theorem WellFormed.fold {items : List (Connective × Predicate ρ)}
    (h : ∀ item ∈ items, (item.2.map f).WellFormed levels) :
    ∀ p ∈ fold items, (p.map f).WellFormed levels := by
  cases items with
  | nil => exact nofun
  | cons item items =>
    obtain ⟨hitem, hitems⟩ := List.forall_mem_cons.1 h
    rintro _ ⟨⟩
    exact WellFormed.foldl hitem hitems

theorem WellFormed.both {p? q? : Option (Predicate ρ)}
    (hp : ∀ p ∈ p?, (p.map f).WellFormed levels) (hq : ∀ q ∈ q?, (q.map f).WellFormed levels) :
    ∀ p ∈ both p? q?, (p.map f).WellFormed levels := by
  match p?, q? with
  | some p, some q =>
    rintro _ ⟨⟩
    exact ⟨hp p rfl, hq q rfl⟩
  | some p, none => exact hp
  | none, q? => exact hq

end Predicate

/-! ## The condition of a join -/

namespace JoinCondition

/-- The condition of a join is well formed on the rows it leads to. -/
theorem wellFormed_predicate {c : JoinCondition} {rows : Entry E} {p : Predicate Empty}
    (hr : rows.Valid levels) (h : c.predicate rows = .ok p) :
    (p.map Empty.elim).WellFormed levels := by
  obtain ⟨field, operator, v, attach⟩ := c
  obtain ⟨path, hpath, h⟩ := Result.bind_eq_ok.1 h
  have hp := hr.resolve hpath
  cases operator with
  | findInSet | notFindInSet => exact absurd h nofun
  | isIn | notIn =>
    obtain rfl := Except.ok.inj h
    exact Predicate.WellFormed.signed (p := .isIn (.path path) _) (.path hp) _
  | equal | diff | lessOrEqual | less | greaterOrEqual | greater | like | notLike | isNull
  | isNotNull => exact Predicate.wellFormed_compareValue hp h

theorem wellFormed_predicates {cs : List JoinCondition} {rows : Entry E}
    {items : List (Connective × Predicate Empty)} (hr : rows.Valid levels)
    (h : predicates rows cs = .ok items) :
    ∀ item ∈ items, (item.2.map Empty.elim).WellFormed levels := by
  induction cs generalizing items with
  | nil =>
    obtain rfl := Except.ok.inj h
    exact nofun
  | cons c cs ih =>
    obtain ⟨p, hp, h⟩ := Result.bind_eq_ok.1 h
    obtain ⟨ps, hps, h⟩ := Result.bind_eq_ok.1 h
    obtain rfl := Result.pure_eq_ok.1 h
    exact List.forall_mem_cons.2 ⟨wellFormed_predicate hr hp, ih hps⟩

end JoinCondition

variable {outer : List (Level E)} {root : E} {joins : List (JoinNode E)} {n : JoinNode E}

/-- The condition of the next node sees its rows, though the scope does not know them yet. -/
theorem Join.wellFormed_on? {j : Join E} {scope : Scope E} {rows : Entry E}
    {on? : Option (Predicate Empty)} (hs : scope.Valid outer ⟨root, joins⟩)
    (hr : rows.Valid (outer ++ [⟨root, joins ++ [n]⟩])) (h : j.on? scope rows = .ok on?) :
    ∀ p ∈ on?, (p.map Empty.elim).WellFormed (outer ++ [⟨root, joins ++ [n]⟩]) := by
  obtain ⟨e?, he, h⟩ := Result.bind_eq_ok.1 h
  obtain ⟨items, hi, h⟩ := Result.bind_eq_ok.1 h
  obtain rfl := Result.pure_eq_ok.1 h
  refine Predicate.WellFormed.both ?_
    (Predicate.WellFormed.fold (JoinCondition.wellFormed_predicates hr hi))
  unfold equality? at he
  split at he
  · obtain ⟨left, hleft, he⟩ := Result.bind_eq_ok.1 he
    obtain ⟨right, hright, he⟩ := Result.bind_eq_ok.1 he
    obtain rfl := Result.pure_eq_ok.1 he
    rintro _ ⟨⟩
    exact ⟨.path (hr.resolve hleft), .path ((hs.joins [n]).resolve hright),
      Predicate.ordersInType_of_equality rfl⟩
  · obtain rfl := Except.ok.inj he
    exact nofun

/-! ## Attaching joins -/

/-- The nodes that were made so far are well formed, and the scope is valid for them. -/
structure Joining.Valid (outer : List (Level E)) (root : E) (s : Joining E) : Prop where
  scope : s.scope.Valid outer ⟨root, s.nodes⟩
  aliases : (s.nodes.map JoinNode.name).Nodup
  nodes : ∀ before n after, s.nodes = before ++ n :: after → n.WellFormed outer root before

/-- Before the first join there is only the root. -/
theorem Joining.valid_start {outer : List (Level E)} {root : E} {scope : Scope E}
    (hs : scope.Valid outer ⟨root, []⟩) : Joining.Valid outer root ⟨[], scope⟩ where
  scope := hs
  aliases := .nil
  nodes before n after hn := by cases before <;> cases hn

namespace Joining

variable {s : Joining E} {rows : Entry E} {name : String}

theorem Valid.has_taken (h : s.Valid outer root) (ht : s.taken? name = some rows) :
    s.Has outer root rows := by
  obtain ⟨index, -, ht⟩ := Option.bind_eq_some_iff.1 ht
  obtain ⟨n, hn, ht⟩ := Option.bind_eq_some_iff.1 ht
  obtain rfl := Option.some.inj ht
  exact ⟨h.scope.depth, Option.map_eq_some_iff.2 ⟨n, hn, rfl⟩⟩

/-- The rows of the next node are there once it is. -/
theorem Valid.has_next (h : s.Valid outer root) (n : JoinNode E) :
    (s.push n).Has outer root (s.next n.entity) :=
  ⟨h.scope.depth, Level.entity?_next root s.nodes n⟩

theorem Valid.push (h : s.Valid outer root) (hn : n.WellFormed outer root s.nodes)
    (ha : n.name ∉ s.nodes.map JoinNode.name) : (s.push n).Valid outer root where
  scope := (h.scope.joins [n]).register (h.has_next n).valid n.name
  aliases := by
    rw [Joining.push, List.map_append, List.nodup_append]
    refine ⟨h.aliases, List.nodup_cons.2 ⟨List.not_mem_nil, .nil⟩, fun a ha' b hb => ?_⟩
    rw [List.mem_singleton.1 hb]
    exact fun he => ha (he ▸ ha')
  nodes before m after hm := by
    rcases List.eq_nil_or_concat after with rfl | ⟨rest, last, rfl⟩
    · obtain ⟨rfl, hlast⟩ := List.append_inj' hm rfl
      obtain rfl := (List.cons.inj hlast).1
      exact hn
    · rw [List.concat_eq_append, ← List.cons_append, ← List.append_assoc] at hm
      exact h.nodes before m rest (List.append_inj' hm rfl).1

/-- What attaching joins comes to: more nodes, and rows of the level to go on from. -/
structure Reached (outer : List (Level E)) (root : E) (s s' : Joining E) (rows : Entry E) :
    Prop where
  valid : s'.Valid outer root
  grows : s.Grows s'
  has : s'.Has outer root rows

end Joining

namespace Join

variable {j : Join E} {s s' : Joining E} {rows current parent : Entry E}

theorem attachEntity_reached (h : s.Valid outer root) {entity : E}
    (ha : j.attachEntity s entity = .ok (s', rows)) :
    Joining.Reached outer root s s' rows := by
  rw [attachEntity] at ha
  split at ha
  · rename_i ht
    obtain ⟨rfl, rfl⟩ := Prod.mk.inj (Except.ok.inj ha)
    exact ⟨h, .refl s, h.has_taken ht⟩
  · rename_i ht
    obtain ⟨on?, hon, ha⟩ := Result.bind_eq_ok.1 ha
    obtain ⟨rfl, rfl⟩ := Prod.mk.inj (Result.pure_eq_ok.1 ha)
    refine ⟨h.push ⟨.inl rfl, nofun, ?_⟩ (Joining.taken?_eq_none.1 ht),
      Joining.grows_push s _, h.has_next _⟩
    exact wellFormed_on? h.scope (h.has_next _).valid hon

theorem attachSegments_reached {segments : List String} {s : Joining E} {current : Entry E}
    (h : s.Valid outer root) (hc : s.Has outer root current)
    (ha : j.attachSegments s current segments = .ok (s', rows)) :
    Joining.Reached outer root s s' rows := by
  induction segments generalizing s current with
  | nil =>
    obtain ⟨rfl, rfl⟩ := Prod.mk.inj (Except.ok.inj ha)
    exact ⟨h, .refl s, hc⟩
  | cons segment rest ih =>
    rw [attachSegments] at ha
    dsimp only at ha
    -- which alias the segment gets does not matter here, only whether it is taken
    generalize (if rest.isEmpty then j.alias?.getD segment else segment) = name at ha
    split at ha
    · rename_i ht
      exact ih h (h.has_taken ht) ha
    · rename_i ht
      split at ha
      · exact absurd ha nofun
      · rename_i target htarget
        have step : ∀ on?, (∀ p ∈ on?, (p.map Empty.elim).WellFormed
            (outer ++ [⟨root, s.nodes ++ [⟨current.origin.node, segment, target, name, j.operator,
              .relation, on?⟩]⟩])) →
            j.attachSegments (s.push ⟨current.origin.node, segment, target, name, j.operator,
              .relation, on?⟩) (s.next target) rest = .ok (s', rows) →
            Joining.Reached outer root s s' rows := by
          intro on? hon ha
          obtain ⟨a, hattribute, hrelation⟩ := Option.bind_eq_some_iff.1 htarget
          have hn := Joining.taken?_eq_none.1 ht
          have hv := h.push (n := ⟨current.origin.node, segment, target, name, j.operator,
            .relation, on?⟩) ⟨Level.parent_of_entity? hc.entity,
            fun _ => ⟨_, a, hc.entity, hattribute, hrelation⟩, hon⟩ hn
          obtain ⟨hv', hg, hh⟩ := ih hv (h.has_next _) ha
          exact ⟨hv', (Joining.grows_push s _).trans hg, hh⟩
        split at ha
        · obtain ⟨on?, hon, ha⟩ := Result.bind_eq_ok.1 ha
          exact step on? (wellFormed_on? h.scope (h.has_next _).valid hon) ha
        · exact step none nofun ha

theorem attachLevel_reached (h : s.Valid outer root) (hp : s.Has outer root parent)
    (ha : j.attachLevel s parent = .ok (s', rows)) : Joining.Reached outer root s s' rows := by
  rw [attachLevel] at ha
  split at ha
  · split at ha
    · exact attachEntity_reached h ha
    · exact attachSegments_reached h hp ha
  · exact absurd ha nofun

mutual

theorem attach_valid {j : Join E} {s s' : Joining E} {parent : Entry E}
    (h : s.Valid outer root) (hp : s.Has outer root parent)
    (ha : attach s parent j = .ok s') : s'.Valid outer root ∧ s.Grows s' := by
  match j with
  | ⟨table, alias?, operator, fieldJoin?, fieldReference?, entity?, conditions, nested⟩ =>
    rw [attach] at ha
    obtain ⟨⟨here, rows⟩, hl, ha⟩ := Result.bind_eq_ok.1 ha
    obtain ⟨hv, hg, hh⟩ := attachLevel_reached h hp hl
    obtain ⟨hv', hg'⟩ := attachAll_valid hv hh ha
    exact ⟨hv', hg.trans hg'⟩

/-- Attaching joins keeps everything valid and takes nothing away. -/
theorem attachAll_valid {js : List (Join E)} {s s' : Joining E} {parent : Entry E}
    (h : s.Valid outer root) (hp : s.Has outer root parent)
    (ha : attachAll s parent js = .ok s') : s'.Valid outer root ∧ s.Grows s' := by
  match js with
  | [] =>
    obtain rfl := Except.ok.inj ha
    exact ⟨h, .refl s⟩
  | j :: js =>
    rw [attachAll] at ha
    obtain ⟨s₁, hj, ha⟩ := Result.bind_eq_ok.1 ha
    obtain ⟨hv, hg⟩ := attach_valid h hp hj
    obtain ⟨hv', hg'⟩ := attachAll_valid hv (hp.grows hg) ha
    exact ⟨hv', hg.trans hg'⟩

end

end Join

end EntityQuery
