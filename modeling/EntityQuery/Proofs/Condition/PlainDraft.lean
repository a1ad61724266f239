import EntityQuery.Proofs.Condition.OrderAlike
import EntityQuery.Proofs.GraphQuery.JoinLevels
import Mathlib.Data.List.Induction

/-! # Plain drafts

The joins of a plain draft lead along one relationship each, and every one has an alias of its own.
A text query then names exactly the rows that a query graph has nodes for (`Join.attachAll_makes`),
and a field of the query itself has the same type in both (`Names.ReadsOff.type?_of_resolve`). -/

namespace EntityQuery

variable {E κ : Type}

/-! ## Plain drafts -/

/-- A join along one relationship, under an alias. -/
structure Join.IsPlain (j : Join E) : Prop where
  segment : '.' ∉ j.table.toList
  called : j.alias?.isSome
  relationship : ¬j.isCustom

namespace Join

mutual

/-- A join is plain, and so are the joins inside it. -/
def AllPlain : Join E → Prop
  | ⟨table, alias?, operator, fieldJoin?, fieldReference?, entity?, conditions, nested⟩ =>
    let level : Join E :=
      ⟨table, alias?, operator, fieldJoin?, fieldReference?, entity?, conditions, []⟩
    level.IsPlain ∧ ListPlain nested

def ListPlain : List (Join E) → Prop
  | [] => True
  | j :: js => AllPlain j ∧ ListPlain js

end

variable {j : Join E}

theorem IsPlain.split_table (hj : j.IsPlain) : Text.split '.' j.table = [j.table] :=
  Text.split_of_notMem hj.segment

/-- A plain join does not name both fields of an equality. -/
theorem IsPlain.fields_eq_none (hj : j.IsPlain) :
    j.fieldJoin? = none ∨ j.fieldReference? = none := by
  have hrelationship := hj.relationship
  rw [isCustom, Bool.and_eq_true, not_and_or] at hrelationship
  exact hrelationship.imp Option.not_isSome_iff_eq_none.1 Option.not_isSome_iff_eq_none.1

end Join

/-! ## Rows and their names -/

/-- The name of the rows of a node, and their entity. -/
def JoinNode.source (n : JoinNode E) : Source E := ⟨n.name, some n.entity⟩

theorem JoinNode.map_name_eq {rows : List (JoinedRows E)} {nodes : List (JoinNode E)}
    (h : rows.map JoinedRows.source = nodes.map source) :
    nodes.map name = rows.map fun r => r.source.name := by
  have hnames := congrArg (List.map Source.name) h
  rw [List.map_map, List.map_map] at hnames
  exact hnames.symm

namespace Joining

variable {s : Joining E} {rows rows' : List (JoinedRows E)}

/-- The names of rows that are joined next are new. -/
def Fresh (s : Joining E) (rows : List (JoinedRows E)) : Prop :=
  (s.nodes.map JoinNode.name ++ rows.map fun r => r.source.name).Nodup

theorem Fresh.left (h : s.Fresh (rows ++ rows')) : s.Fresh rows := by
  rw [Fresh, List.map_append, ← List.append_assoc] at h
  exact h.of_append_left

end Joining

namespace Names

theorem root_introduceAll (names : Names E) (rows : List (JoinedRows E)) :
    (names.introduceAll rows).root = names.root := by
  induction rows generalizing names with
  | nil => rfl
  | cons r rows ih =>
    rw [introduceAll, List.foldl_cons, ← introduceAll, ih]
    obtain ⟨⟨name, entity?⟩, conditions⟩ := r
    cases entity? <;> rfl

theorem entity?_register (names : Names E) (key : String) (e : E) (name : String) :
    (names.register key (some e)).entity? name =
      if name = key then some e else names.entity? name :=
  lookup_cons_eq_ite key e names.entries name

/-- Names are registered as the nodes come. -/
theorem introduceAll_eq_foldl (names : Names E) {rows : List (JoinedRows E)}
    {nodes : List (JoinNode E)} (h : rows.map JoinedRows.source = nodes.map JoinNode.source) :
    names.introduceAll rows =
      nodes.foldl (fun names n => names.register n.name (some n.entity)) names := by
  have hrows : names.introduceAll rows = (rows.map JoinedRows.source).foldl
      (fun names source => names.register source.name source.entity?) names := by
    rw [List.foldl_map]
    rfl
  rw [hrows, h, List.foldl_map]
  rfl

/-- Names that differ are looked up alike from the front and from the back. -/
theorem entity?_introduceAll (names : Names E) {rows : List (JoinedRows E)} {l : Level E}
    (h : rows.map JoinedRows.source = l.joins.map JoinNode.source) (hl : l.names.Nodup)
    (depth : Nat) (name : String) :
    (names.introduceAll rows).entity? name =
      ((l.join? depth name).map Entry.entity).or (names.entity? name) := by
  rw [names.introduceAll_eq_foldl h]
  obtain ⟨root, nodes⟩ := l
  clear h
  let scope : Scope E := ⟨depth, root, [], none⟩
  -- From the back, since the name that is registered last is the first to be found.
  induction nodes using List.reverseRecOn with
  | nil => rfl
  | append_singleton nodes n ih =>
    rw [Level.names, List.map_append, List.nodup_append] at hl
    obtain ⟨hbefore, -, hne⟩ := hl
    have free : Joining.taken? ⟨nodes, scope⟩ n.name = none := by
      refine Joining.taken?_eq_none.2 fun hmem => ?_
      exact hne _ hmem _ (List.mem_singleton_self _) rfl
    have hpush : Level.join? ⟨root, nodes ++ [n]⟩ depth name =
        if name = n.name then some (Joining.next ⟨nodes, scope⟩ n.entity)
        else Level.join? ⟨root, nodes⟩ depth name := Joining.taken?_push free name
    rw [List.foldl_concat, entity?_register, ih hbefore, hpush]
    split <;> rfl

theorem entity?_ofRoot (root : E) (key name : String) :
    (ofRoot root key).entity? name = if key = name then some root else none := by
  rw [entity?, ofRoot, lookup_cons_eq_ite, List.lookup_nil]
  exact if_congr eq_comm rfl rfl

end Names

/-! ## Drafts of plain joins -/

variable [Schema E]

/-- The root is called by its entity, all joins are plain, and no two have the same alias. -/
structure Outline.IsPlain (o : Outline E) : Prop where
  acronym : o.acronym? = none
  joins : Join.ListPlain o.joins
  aliases : (o.rows.map fun rows => rows.source.name).Nodup

/-- A sub query stands for its being plain. -/
def Draft.IsPlain : Draft E κ → Prop :=
  Draft.interpret fun outline conditions =>
    outline.IsPlain ∧ ∀ l ∈ Clause.leavesAll conditions, ∀ p ∈ l.query?, p

/-- A draft is plain if its outline and its sub queries are. -/
theorem Draft.isPlain_iff {d : Draft E κ} : d.IsPlain ↔
    d.outline.IsPlain ∧ ∀ l ∈ Clause.leavesAll d.conditions, ∀ q ∈ l.query?, q.IsPlain := by
  obtain ⟨outline, conditions⟩ := d
  rw [IsPlain, interpret, leavesAll_interpretAll, List.forall_mem_map]
  refine and_congr_right fun _ => forall₂_congr fun l _ => ?_
  cases l with
  | subQuery field operator q | exist q positive =>
    simp only [Leaf.map, Leaf.query?, Option.mem_some_iff, forall_eq']
  | value | fields | custom => simp [Leaf.map, Leaf.query?]

open ValueCondition (OrderAlike)

/-! ## Joins -/

/-- Rows are joined by nodes under the same names, with the same orderings. -/
structure Joining.Matches (depth : Nat) (rows : List (JoinedRows E)) (nodes : List (JoinNode E)) :
    Prop where
  sources : rows.map JoinedRows.source = nodes.map JoinNode.source
  orderings : OrderAlike (rows.flatMap JoinedRows.valueConditions)
    (nodes.flatMap (JoinNode.orderings depth))

namespace Joining

variable {depth : Nat} {rows rows' : List (JoinedRows E)} {nodes nodes' : List (JoinNode E)}
  {s s' s'' : Joining E}

theorem Matches.nil : Matches depth ([] : List (JoinedRows E)) [] := ⟨rfl, .nil⟩

theorem Matches.append (h : Matches depth rows nodes) (h' : Matches depth rows' nodes') :
    Matches depth (rows ++ rows') (nodes ++ nodes') where
  sources := by rw [List.map_append, List.map_append, h.sources, h'.sources]
  orderings := by
    rw [List.flatMap_append, List.flatMap_append]
    exact h.orderings.append h'.orderings

/-- For each of the rows a node was made. -/
def Makes (s : Joining E) (rows : List (JoinedRows E)) (s' : Joining E) : Prop :=
  ∃ nodes, s'.nodes = s.nodes ++ nodes ∧ s'.scope.depth = s.scope.depth ∧
    Matches s.scope.depth rows nodes

theorem Makes.refl (s : Joining E) : s.Makes [] s := ⟨[], (List.append_nil _).symm, rfl, .nil⟩

theorem Makes.trans (h : s.Makes rows s') (h' : s'.Makes rows' s'') :
    s.Makes (rows ++ rows') s'' := by
  obtain ⟨nodes, hnodes, hdepth, hm⟩ := h
  obtain ⟨nodes', hnodes', hdepth', hm'⟩ := h'
  refine ⟨nodes ++ nodes', ?_, hdepth'.trans hdepth, hm.append (hdepth ▸ hm')⟩
  rw [hnodes', hnodes, List.append_assoc]

/-- Rows that were new before are new still, unless they were just made. -/
theorem Makes.fresh (hm : s.Makes rows s') (h : s.Fresh (rows ++ rows')) : s'.Fresh rows' := by
  obtain ⟨nodes, hnodes, -, hm⟩ := hm
  rw [Fresh, hnodes, List.map_append, JoinNode.map_name_eq hm.sources, List.append_assoc,
    ← List.map_append]
  exact h

end Joining

namespace Join

variable {j : Join E} {s s' : Joining E} {source : Source E} {parent landed : Entry E}

/-- A plain join leads to the rows of one relationship. -/
theorem IsPlain.rowsOfLevel (hj : j.IsPlain) {name : String} (hname : j.alias? = some name)
    (source : Source E) :
    j.rowsOfLevel source = [⟨reached source j.table name, j.conditions⟩] := by
  have hrows : j.rowsOfLevel source = rowsAlong j source (Text.split '.' j.table) := by
    rw [Join.rowsOfLevel]
    obtain hf | hr := hj.fields_eq_none
    · rw [hf]
    · rw [hr]
      cases j.fieldJoin? <;> rfl
  rw [hrows, hj.split_table, rowsAlong, hname, Option.getD_some]

/-- A plain join has no equality. -/
theorem IsPlain.equality? (hj : j.IsPlain) (scope : Scope E) (landed : Entry E) :
    j.equality? scope landed = .ok none := by
  rw [Join.equality?]
  obtain hf | hr := hj.fields_eq_none
  · rw [hf]
  · rw [hr]
    cases j.fieldJoin? <;> rfl

/-- The conditions of a join are ordered alike on the rows it leads to. -/
theorem IsPlain.orderAlike_on? (hj : j.IsPlain) {scope : Scope E} {p? : Option (Predicate Empty)}
    (name : String) (depth : Nat) (h : j.on? scope landed = .ok p?) :
    OrderAlike (JoinedRows.valueConditions ⟨⟨name, some landed.entity⟩, j.conditions⟩)
      (p?.elim [] (Predicate.orderings Empty.elim depth)) := by
  obtain ⟨equality?, he, h⟩ := Result.bind_eq_ok.1 h
  obtain rfl := Except.ok.inj ((hj.equality? scope landed).symm.trans he)
  obtain ⟨items, hi, h⟩ := Result.bind_eq_ok.1 h
  obtain rfl := Result.pure_eq_ok.1 h
  rw [Predicate.both, Predicate.orderings_fold]
  refine .flatMap ?_
  refine (JoinCondition.forall₂_predicates hi).imp fun c p hp => ?_
  exact JoinCondition.orderAlike_predicate depth hp.2

/-- The level of a plain join makes one node, under its alias. -/
theorem attachLevel_makes (hj : j.IsPlain) (hsource : source.entity? = some parent.entity)
    (hfresh : s.Fresh (j.rowsOfLevel source)) (h : j.attachLevel s parent = .ok (s', landed)) :
    s.Makes (j.rowsOfLevel source) s' ∧
      (landing source (j.rowsOfLevel source)).entity? = some landed.entity := by
  obtain ⟨name, hname⟩ := Option.isSome_iff_exists.1 hj.called
  rw [hj.rowsOfLevel hname] at hfresh ⊢
  have hlevel : j.attachSegments s parent [j.table] = .ok (s', landed) := by
    rw [attachLevel, hj.split_table] at h
    split at h
    · split at h
      · rename_i hcustom
        exact absurd hcustom hj.relationship
      · exact h
    · cases h
  have free : s.taken? name = none := by
    refine Joining.taken?_eq_none.2 fun hmem => ?_
    exact (List.nodup_append.1 hfresh).2.2 _ hmem _ (List.mem_singleton_self _) rfl
  -- The walk is one step, and it makes a node since the alias is new.
  rw [attachSegments] at hlevel
  simp only [List.isEmpty_nil, if_true, hname, Option.getD_some, free] at hlevel
  split at hlevel
  · cases hlevel
  · rename_i target htarget
    obtain ⟨on?, hon, hlevel⟩ := Result.bind_eq_ok.1 hlevel
    obtain ⟨rfl, rfl⟩ := Prod.mk.inj (Except.ok.inj hlevel)
    have hreached : reached source j.table name = ⟨name, some target⟩ := by
      rw [reached, hsource, Option.bind_some, htarget]
    rw [hreached]
    refine ⟨⟨[_], rfl, rfl, rfl, ?_⟩, rfl⟩
    have horders := hj.orderAlike_on? name s.scope.depth hon
    rw [List.flatMap_singleton, List.flatMap_singleton]
    exact horders

mutual

theorem attach_makes {j : Join E} {s s' : Joining E} {source : Source E} {parent : Entry E}
    (hj : AllPlain j) (hsource : source.entity? = some parent.entity)
    (hfresh : s.Fresh (rows source j)) (h : attach s parent j = .ok s') :
    s.Makes (rows source j) s' := by
  match j with
  | ⟨table, alias?, operator, fieldJoin?, fieldReference?, entity?, conditions, nested⟩ =>
    obtain ⟨hlevel, hnested⟩ := hj
    obtain ⟨⟨here, landed⟩, hl, h⟩ := Result.bind_eq_ok.1 h
    obtain ⟨hm, hlanding⟩ := attachLevel_makes hlevel hsource hfresh.left hl
    exact hm.trans (attachAll_makes hnested hlanding (hm.fresh hfresh) h)

/-- Plain joins under new names make a node for each of their rows. -/
theorem attachAll_makes {js : List (Join E)} {s s' : Joining E} {source : Source E}
    {parent : Entry E} (hjs : ListPlain js) (hsource : source.entity? = some parent.entity)
    (hfresh : s.Fresh (rowsAll source js)) (h : attachAll s parent js = .ok s') :
    s.Makes (rowsAll source js) s' := by
  match js with
  | [] =>
    obtain rfl := Except.ok.inj h
    exact .refl s
  | j :: js =>
    obtain ⟨hj, hjs⟩ := hjs
    obtain ⟨s₁, hfirst, h⟩ := Result.bind_eq_ok.1 h
    have hm := attach_makes hj hsource hfresh.left hfirst
    exact hm.trans (attachAll_makes hjs hsource (hm.fresh hfresh) h)

end

end Join

/-! ## Names -/

namespace Names

/-- The names of a text query stand for the joins and the root of one level of a graph. -/
structure ReadsOff (names : Names E) (l : Level E) (outer : List (Level E)) : Prop where
  root : names.root = l.root
  entity? : ∀ name, names.entity? name = ((l.join? outer.length name).map Entry.entity).or
    (if Schema.acronym l.root = name then some l.root else none)

variable {names : Names E} {known : Scope E} {l : Level E} {outer : List (Level E)}
  {field : String} {path : Path}

/-- Rows of a level itself are known to the text by the same name. -/
theorem ReadsOff.entity?_of_visible? (h : names.ReadsOff l outer) {name : String} {e : Entry E}
    (hv : visible? name l outer = some e) (hown : e.origin.depth = outer.length) :
    names.entity? name = some e.entity := by
  rw [visible?, Option.or_eq_some_iff] at hv
  rw [h.entity?]
  obtain hj | ⟨hj, hv⟩ := hv
  · rw [hj]
    rfl
  · rw [hj]
    split at hv
    · rename_i hroot
      obtain rfl := Option.some.inj hv
      exact if_pos hroot
    · exact absurd hown (Nat.ne_of_lt (unhiddenJoin?_depth_lt hv))

theorem ReadsOff.entity?_of_visible?_eq_none (h : names.ReadsOff l outer) {name : String}
    (hv : visible? name l outer = none) : names.entity? name = none := by
  rw [visible?, Option.or_eq_none_iff] at hv
  rw [h.entity?, hv.1]
  split at hv
  · cases hv.2
  · rename_i hroot
    exact if_neg hroot

/-- A field that a graph finds in the query itself has the type that the text finds. -/
theorem ReadsOff.type?_of_resolve (h : names.ReadsOff l outer) (hk : known.ReadsOff l outer)
    (hp : known.resolve field = .ok path) :
    path.attributes <:+ Text.split '.' field ∧
      (path.origin.depth = outer.length → path.type? = names.type? field) := by
  -- What does not start with a name is a field of the root on both sides.
  have hfromRoot (hroot : (l.rootRows outer).resolve field = .ok path)
      (ht : names.type? field = (Schema.resolvePath? names.root field).bind Attribute.type?) :
      path.attributes <:+ Text.split '.' field ∧
        (path.origin.depth = outer.length → path.type? = names.type? field) := by
    obtain rfl := Entry.eq_of_resolve hroot
    rw [ht, h.root]
    exact ⟨List.suffix_refl _, fun _ => rfl⟩
  rw [Scope.resolve, hk.rootEntry] at hp
  cases hsplit : Text.splitFirst? '.' field with
  | none =>
    rw [Scope.resolveFrom, hsplit] at hp
    refine hfromRoot hp ?_
    rw [type?, hsplit]
  | some pair =>
    obtain ⟨head, rest⟩ := pair
    rw [Scope.resolveFrom_of_name hsplit, hk.entry?] at hp
    cases hv : visible? head l outer with
    | none =>
      rw [hv] at hp
      refine hfromRoot hp ?_
      rw [type?, hsplit]
      simp only [h.entity?_of_visible?_eq_none hv]
    | some e =>
      rw [hv] at hp
      obtain rfl := Entry.eq_of_resolve hp
      refine ⟨?_, fun hown => ?_⟩
      · rw [Text.split_of_splitFirst? hsplit]
        exact List.suffix_cons head _
      · rw [type?, hsplit]
        simp only [h.entity?_of_visible? hv hown]

end Names

end EntityQuery
