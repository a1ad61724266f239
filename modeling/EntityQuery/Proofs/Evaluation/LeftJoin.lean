import EntityQuery.Proofs.Evaluation.Conditions
import EntityQuery.Proofs.Evaluation.MappedTuples
import EntityQuery.Proofs.Schema

/-! # Left joins along a relationship to one

A left join along a relationship to one adds to every tuple the record that the relationship leads
to, or an empty slot.  A field behind the relationship is a field of the joined rows from then on,
and no longer a path from the root, but it has the value it had, so the rows of the query are the
same in the same order (`GraphQuery.run_leftJoin_eq`). -/

namespace EntityQuery

variable {E : Type}

/-! ## The joined tuples -/

/-- The record of the root and the one it is related with. -/
def Tuple.withRelated (via : String) (t : Tuple) : Tuple :=
  [t.record? .root, (t.record? .root).bind fun r => (r.get via).toRecord?]

/-- The only node of a left join along a relationship to one. -/
def JoinNode.leftOf (via : String) (target : E) : JoinNode E where
  parent := .root
  via := via
  entity := target
  name := via
  operator := .left
  kind := .relation
  on? := none

namespace JoinNode

theorem heldRecords_of_toList? {v : Value} (h : v.toList? = none) :
    heldRecords v = v.toRecord?.toList := by
  cases v with
  | list => cases h
  | null | scalar | record | object => rfl

variable [Schema E] {via : String} {target : E} {data : Dataset} {rs : List Record}

/-- Each tuple is paired with the record that its relationship holds, if there is one. -/
theorem pairings_leftOf (ts : List Tuple) : (leftOf via target).pairings data [] ts =
    .ok (ts.map fun t => (t, (leftOf via target).candidates data t)) := by
  have haccepted : ∀ t, (leftOf via target).accepted data [] t =
      .ok ((leftOf via target).candidates data t) := by
    intro t
    have hall : ∀ r ∈ (leftOf via target).candidates data t,
        (leftOf via target).testOn [] t r = .ok .holds := fun _ _ => rfl
    rw [accepted, keepHolding_eq_filter hall]
    simp
  induction ts with
  | nil => rfl
  | cons t ts ih =>
    rw [pairings, haccepted, ih]
    rfl

/-- A root that holds no list there is related with one record at most. -/
theorem joinAll_leftOf (h : ∀ r ∈ rs, (r.get via).toList? = none) :
    joinAll data [] 1 (rs.map fun r => [some r]) [leftOf via target] =
      .ok ((rs.map fun r => [some r]).map (Tuple.withRelated via)) := by
  have hextended : ∀ r ∈ rs, (leftOf via target).extensions [some r]
      ((leftOf via target).candidates data [some r]) = [Tuple.withRelated via [some r]] := by
    intro r hr
    have hcandidates : (leftOf via target).candidates data [some r] =
        (r.get via).toRecord?.toList := heldRecords_of_toList? (h r hr)
    rw [hcandidates]
    change _ = [[some r, (r.get via).toRecord?]]
    cases (r.get via).toRecord? <;> rfl
  have hjoin : (leftOf via target).join data [] 1 (rs.map fun r => [some r]) =
      .ok ((rs.map fun r => [some r]).map (Tuple.withRelated via)) := by
    rw [join, pairings_leftOf]
    refine congrArg Except.ok ?_
    rw [List.flatMap_map, List.flatMap_map, List.map_map, List.map_eq_flatMap]
    exact List.flatMap_congr hextended
  rw [joinAll, hjoin]
  rfl

end JoinNode

/-! ## Fields -/

namespace Path

theorem follows_of_root {p : Path} (via : String) (h : p.origin.node = .root) :
    p.Follows (Tuple.withRelated via) p := by
  refine ⟨rfl, fun t => ?_⟩
  rw [value, value, h]
  rfl

/-- What is behind a relationship of the root is a field of the record it leads to. -/
theorem follows_of_related (via : String) {depth : Nat} {rest : List String}
    (hrest : rest ≠ []) (type? : Option ScalarType) :
    Follows (Tuple.withRelated via) ⟨⟨depth, .root⟩, via :: rest, type?⟩
      ⟨⟨depth, .join 0⟩, rest, type?⟩ := by
  refine ⟨rfl, fun t => ?_⟩
  obtain ⟨a, rest, rfl⟩ := List.exists_cons_of_ne_nil hrest
  simp only [value, tuple, List.getElem?_nil, Option.getD_none]
  have hjoined : (Tuple.withRelated via t).record? (.join 0) =
      (t.record? .root).bind fun r => (r.get via).toRecord? := rfl
  rw [hjoined]
  cases t.record? .root with
  | none => rfl
  | some r =>
    change _ = (r.get via).along (a :: rest)
    rw [Option.bind_some]
    cases r.get via <;> rfl

end Path

/-! ## Scopes -/

variable [Schema E]

namespace Scope

/-- The scope of a query that only has this join. -/
def ofRelated (root target : E) (via : String) : Scope E :=
  (ofRoot root).register via ⟨⟨0, .join 0⟩, target⟩

end Scope

/-- The entities and the name of a relationship to one, which is not called like the root. -/
structure Schema.IsOne (root target : E) (via : String) : Prop where
  relationship : ∃ a, Schema.attribute? root via = some a ∧ a.kind = .relation target false
  name : via ≠ Schema.acronym root

variable {root target : E} {via : String}

/-- The join adds one node, and the scope knows it by its name. -/
theorem Join.attachAll_leftOf (h : Schema.IsOne root target via) :
    Join.attachAll ⟨[], .ofRoot root⟩ (Scope.ofRoot root).rootEntry
      [{ Join.ofTable via with operator := .left }] =
      .ok ⟨[.leftOf via target], .ofRelated root target via⟩ := by
  obtain ⟨a, ha, hkind⟩ := h.relationship
  obtain ⟨hempty, hpoint, -⟩ := Schema.isIdentifier_of_attribute? ha
  have hsplit := Text.split_of_notMem hpoint
  have hpath : ({ Join.ofTable via with operator := .left } : Join E).hasPath := by
    rw [Join.hasPath, Join.ofTable, hsplit]
    simpa using hempty
  have htarget : (Schema.attribute? root via).bind Attribute.target? = some target := by
    rw [ha, Option.bind_some, Attribute.target?, hkind]
  have hlevel : ({ Join.ofTable via with operator := .left } : Join E).attachLevel
      ⟨[], .ofRoot root⟩ (Scope.ofRoot root).rootEntry =
      .ok (⟨[.leftOf via target], .ofRelated root target via⟩, ⟨⟨0, .join 0⟩, target⟩) := by
    rw [Join.attachLevel, if_pos hpath]
    change Join.attachSegments _ _ _ (Text.split '.' via) = _
    have hentity : (Scope.ofRoot root).rootEntry.entity = root := rfl
    simp only [hsplit, Join.attachSegments, hentity, htarget]
    rfl
  rw [Join.attachAll, Join.ofTable, Join.attach]
  change (Join.attachLevel { Join.ofTable via with operator := .left } _ _ >>= _) >>= _ = _
  rw [hlevel]
  rfl

namespace Scope

/-- A field of the root is read as before. -/
theorem follows_of_rootEntry {field : String} {p : Path}
    (hp : Entry.resolve ⟨⟨0, .root⟩, root⟩ field = .ok p) : p.Follows (Tuple.withRelated via) p :=
  Path.follows_of_root via (by rw [Entry.eq_of_resolve hp])

/-- The join adds one name. -/
theorem entry?_ofRelated (name : String) : Scope.entry? (ofRelated root target via) name =
    if name = via then some ⟨⟨0, .join 0⟩, target⟩ else Scope.entry? (ofRoot root) name :=
  entry?_register _ via _ name

/-- A field behind the relationship is found in the joined rows, and nowhere else. -/
theorem resolve_related {rest : String} (field : String)
    (hfield : Text.splitFirst? '.' field = some (via, rest)) :
    (ofRelated root target via).resolve field =
      Entry.resolve ⟨⟨0, .join 0⟩, target⟩ rest := by
  rw [resolve, resolveFrom_of_name hfield, entry?_ofRelated, if_pos rfl]
  rfl

/-- What led through the relationship leads now through the joined rows, to the same value. -/
theorem follows_related (h : Schema.IsOne root target via)
    {field rest : String} {p : Path} (hfield : Text.splitFirst? '.' field = some (via, rest))
    (hp : Entry.resolve ⟨⟨0, .root⟩, root⟩ field = .ok p) :
    ∃ p', Entry.resolve ⟨⟨0, .join 0⟩, target⟩ rest = .ok p' ∧
      p.Follows (Tuple.withRelated via) p' := by
  obtain ⟨a, ha, hkind⟩ := h.relationship
  rw [Entry.resolve] at hp
  split at hp
  · cases hp
  · obtain ⟨type?, htype, rfl⟩ := Result.map_eq_ok.1 hp
    rw [Text.split_of_splitFirst? hfield] at htype ⊢
    rw [typeAlong, ha] at htype
    simp only [hkind] at htype
    have hrest : rest ≠ "" := by
      rintro rfl
      have hempty : Text.split '.' "" = [""] := by decide
      rw [hempty, typeAlong] at htype
      cases hb : Schema.attribute? target "" with
      | none =>
        rw [hb] at htype
        cases htype
      | some b => exact (Schema.isIdentifier_of_attribute? hb).ne_empty rfl
    refine ⟨_, ?_, Path.follows_of_related via ?_ type?⟩
    · rw [Entry.resolve, if_neg hrest]
      exact Result.map_eq_ok.2 ⟨type?, htype, rfl⟩
    · exact mt List.map_eq_nil_iff.1 (Text.pieces_ne_nil '.' rest.toList)

/-- Every field that is found without the join is found with it, and has the same value. -/
theorem resolve_follows (h : Schema.IsOne root target via)
    {field : String} {p : Path} (hp : (ofRoot root).resolve field = .ok p) :
    ∃ p', (ofRelated root target via).resolve field = .ok p' ∧
      p.Follows (Tuple.withRelated via) p' := by
  have hroot : Scope.entry? (ofRoot root) via = none := by
    rw [entry?_ofRoot, if_neg h.name.symm]
  cases hfield : Text.splitFirst? '.' field with
  | none =>
    rw [resolve, resolveFrom, hfield] at hp ⊢
    exact ⟨p, hp, follows_of_rootEntry hp⟩
  | some pair =>
    obtain ⟨name, rest⟩ := pair
    by_cases hname : name = via
    · subst hname
      rw [resolve, resolveFrom_of_name hfield, hroot] at hp
      rw [resolve_related field hfield]
      exact follows_related h hfield hp
    · rw [resolve, resolveFrom_of_name hfield] at hp
      rw [resolve, resolveFrom_of_name hfield, entry?_ofRelated, if_neg hname]
      refine ⟨p, hp, ?_⟩
      rw [entry?_ofRoot] at hp
      split at hp
      · exact follows_of_rootEntry hp
      · exact follows_of_rootEntry hp

end Scope

/-! ## Compilation -/

/-- Items that are compiled one by one follow one another if each does. -/
theorem Result.exists_mapM {α β γ : Type} {g : α → Result β} {g' : α → Result γ}
    {r : β → γ → Prop} (h : ∀ a b, g a = .ok b → ∃ c, g' a = .ok c ∧ r b c) {as : List α}
    {bs : List β} (hbs : as.mapM g = .ok bs) :
    ∃ cs, as.mapM g' = .ok cs ∧ List.Forall₂ r bs cs := by
  rw [mapM_eq_ok] at hbs
  induction hbs with
  | nil => exact ⟨[], rfl, .nil⟩
  | @cons a b _ _ hb _ ih =>
    obtain ⟨c, hc, hr⟩ := h a b hb
    obtain ⟨cs, hcs, hrs⟩ := ih
    refine ⟨c :: cs, ?_, .cons hr hrs⟩
    rw [List.mapM_cons, hc, hcs]
    rfl

namespace GraphClause

variable {f : Tuple → Tuple} {scope scope' : Scope E}

/-- A condition that is compiled in the one scope is compiled in the other, and follows there. -/
def LeafFollows (f : Tuple → Tuple) (scope scope' : Scope E) (l : GraphLeaf E) : Prop :=
  ∀ p, leafPredicate scope l = .ok p →
    ∃ p', leafPredicate scope' l = .ok p' ∧ p.Follows f p'

mutual

/-- Conditions compile on the joined rows to predicates that test as before. -/
theorem predicate?_follows {c : GraphClause E} {p? : Option (Predicate (GraphQuery E))}
    (hleaves : ∀ l ∈ c.leaves, LeafFollows f scope scope' l) (hp : predicate? scope c = .ok p?) :
    ∃ p'?, predicate? scope' c = .ok p'? ∧ Option.Rel (Predicate.Follows f) p? p'? := by
  match c with
  | .leaf a l =>
    obtain ⟨p, hleaf, rfl⟩ := Result.map_eq_ok.1 hp
    obtain ⟨p', hp', hfollows⟩ := hleaves l (List.mem_singleton_self l) p hleaf
    exact ⟨some p', Result.map_eq_ok.2 ⟨p', hp', rfl⟩, .some hfollows⟩
  | .group a members =>
    obtain ⟨items, hitems, rfl⟩ := Result.map_eq_ok.1 hp
    obtain ⟨items', hitems', hfollows⟩ := predicates_follows hleaves hitems
    exact ⟨_, Result.map_eq_ok.2 ⟨items', hitems', rfl⟩, Predicate.follows_fold hfollows⟩

/-- Conditions follow as a whole if they do one by one. -/
theorem predicates_follows {cs : List (GraphClause E)}
    {items : List (Connective × Predicate (GraphQuery E))}
    (hleaves : ∀ l ∈ Clause.leavesAll cs, LeafFollows f scope scope' l)
    (hitems : predicates scope cs = .ok items) :
    ∃ items', predicates scope' cs = .ok items' ∧
      List.Forall₂ (fun i i' => i'.1 = i.1 ∧ i.2.Follows f i'.2) items items' := by
  match cs with
  | [] =>
    obtain rfl := Except.ok.inj hitems
    exact ⟨[], rfl, .nil⟩
  | c :: cs =>
    obtain ⟨hc, hcs⟩ := List.forall_mem_append.1 hleaves
    obtain ⟨p?, hp, hitems⟩ := Result.bind_eq_ok.1 hitems
    obtain ⟨rest, hrest, hitems⟩ := Result.bind_eq_ok.1 hitems
    obtain ⟨p'?, hp', hfollows⟩ := predicate?_follows hc hp
    obtain ⟨rest', hrest', hall⟩ := predicates_follows hcs hrest
    simp only [predicates, Result.bind_eq_ok]
    cases hfollows with
    | none =>
      obtain rfl := Result.pure_eq_ok.1 hitems
      exact ⟨rest', ⟨none, hp', rest', hrest', rfl⟩, hall⟩
    | @some p p' hfollows =>
      obtain rfl := Result.pure_eq_ok.1 hitems
      exact ⟨_, ⟨some p', hp', rest', hrest', rfl⟩, .cons ⟨rfl, hfollows⟩ hall⟩

end

end GraphClause

section Compile

variable (h : Schema.IsOne root target via)

include h

/-- A selected field leads on the joined rows to the same value. -/
theorem Select.path_follows {s : Select} {p : Path} (hp : s.path (.ofRoot root) = .ok p) :
    ∃ p', s.path (.ofRelated root target via) = .ok p' ∧ p.Follows (Tuple.withRelated via) p' := by
  rw [path] at hp ⊢
  split
  · rename_i hstar
    rw [if_pos hstar] at hp
    split at hp
    · rename_i name hname
      -- only the root has a name without the join, so that the new name is none of those asked for
      by_cases hroot : Schema.acronym root = name
      · have hne : name ≠ via := hroot ▸ h.name.symm
        rw [Scope.rows?, Scope.entry?_ofRoot, if_pos hroot] at hp
        rw [Scope.rows?, Scope.entry?_ofRelated, if_neg hne, Scope.entry?_ofRoot, if_pos hroot]
        obtain rfl := Except.ok.inj hp
        exact ⟨_, rfl, Path.follows_of_root via rfl⟩
      · rw [Scope.rows?, Scope.entry?_ofRoot, if_neg hroot] at hp
        cases hp
    · obtain rfl := Except.ok.inj hp
      exact ⟨_, rfl, Path.follows_of_root via rfl⟩
  · rename_i hstar
    rw [if_neg hstar] at hp
    exact Scope.resolve_follows h hp

theorem Select.selection_follows {s : Select} {t : Selection}
    (ht : s.selection (.ofRoot root) = .ok t) :
    ∃ t', s.selection (.ofRelated root target via) = .ok t' ∧
      t.Follows (Tuple.withRelated via) t' := by
  obtain ⟨e, he, rfl⟩ := Result.map_eq_ok.1 ht
  obtain ⟨p, hp, rfl⟩ := Result.map_eq_ok.1 he
  obtain ⟨p', hp', hfollows⟩ := path_follows h hp
  refine ⟨_, Result.map_eq_ok.2 ⟨_, Result.map_eq_ok.2 ⟨p', hp', rfl⟩, rfl⟩, ?_, rfl⟩
  cases s.function? with
  | none => exact .path hfollows
  | some f => exact .aggregate f hfollows

theorem Selection.ofRows_follows {selects : List Select} {ss : List Selection}
    (hss : ofRows (.ofRoot root) selects = .ok ss) :
    ∃ ss', ofRows (.ofRelated root target via) selects = .ok ss' ∧
      List.Forall₂ (Selection.Follows (Tuple.withRelated via)) ss ss' := by
  cases selects with
  | nil =>
    obtain rfl := Except.ok.inj hss
    exact ⟨_, rfl, .cons ⟨.path (Path.follows_of_root via rfl), rfl⟩ .nil⟩
  | cons s selects => exact Result.exists_mapM (fun _ _ => Select.selection_follows h) hss

theorem GraphQuery.sorting_follows {o : Order} {s : Sorting}
    (hs : sorting (.ofRoot root) o = .ok s) :
    ∃ s', sorting (.ofRelated root target via) o = .ok s' ∧
      s.Follows (Tuple.withRelated via) s' := by
  obtain ⟨p, hp, rfl⟩ := Result.map_eq_ok.1 hs
  obtain ⟨p', hp', hfollows⟩ := Scope.resolve_follows h hp
  exact ⟨_, Result.map_eq_ok.2 ⟨p', hp', rfl⟩, .path hfollows, rfl⟩

theorem GraphQuery.group_follows {field : String} {e : Expression}
    (he : group (.ofRoot root) field = .ok e) :
    ∃ e', group (.ofRelated root target via) field = .ok e' ∧
      e.Follows (Tuple.withRelated via) e' := by
  obtain ⟨p, hp, rfl⟩ := Result.map_eq_ok.1 he
  obtain ⟨p', hp', hfollows⟩ := Scope.resolve_follows h hp
  exact ⟨_, Result.map_eq_ok.2 ⟨p', hp', rfl⟩, .path hfollows⟩

namespace GraphClause

/-- A condition on fields and values alone. -/
theorem leafFollows_related {l : GraphLeaf E} (hquery : l.query? = none)
    (hcustom : ∀ build, l ≠ .custom build) :
    LeafFollows (Tuple.withRelated via) (.ofRoot root) (.ofRelated root target via) l := by
  intro p hp
  cases l with
  | value field operator v =>
    obtain ⟨path, hpath, hp⟩ := Result.bind_eq_ok.1 hp
    obtain ⟨path', hpath', hfollows⟩ := Scope.resolve_follows h hpath
    obtain ⟨p', hp', hfollows⟩ := Predicate.follows_compareValue hfollows hp
    exact ⟨p', Result.bind_eq_ok.2 ⟨path', hpath', hp'⟩, hfollows⟩
  | fields field operator second =>
    obtain ⟨build, hbuild, left, hleft, right, hright, rfl⟩ := betweenFields_eq_ok.1 hp
    obtain ⟨left', hleft', hl⟩ := Scope.resolve_follows h hleft
    -- an outermost query has none around it, so that the second field is looked up like the first
    obtain ⟨right', hright', hr⟩ := Scope.resolve_follows h hright
    exact ⟨_, betweenFields_eq_ok.2 ⟨build, hbuild, left', hleft', right', hright', rfl⟩,
      Predicate.follows_between? hbuild hl hr⟩
  | subQuery | exist => cases hquery
  | custom build => exact absurd rfl (hcustom build)

end GraphClause

end Compile

/-! ## The query with the join -/

namespace GraphQuery

variable {d : Draft E (ScopedCondition E)} {q : GraphQuery E}

/-- A leaf without a sub query compiles on the joined rows to one that tests as before. -/
theorem leafFollows_of_plain (h : Schema.IsOne d.outline.root target via) (hcustom : d.CustomFree)
    (hplain : ∀ l ∈ Clause.leavesAll d.conditions, l.query? = none) :
    ∀ l ∈ Clause.leavesAll (Draft.interpretAll subQuery d.conditions),
      GraphClause.LeafFollows (Tuple.withRelated via) (.ofRoot d.outline.root)
        (.ofRelated d.outline.root target via) l := by
  rw [Draft.leavesAll_interpretAll]
  refine List.forall_mem_map.2 fun l hl => ?_
  have hfree := Draft.customFree_iff.1 hcustom l hl
  have hquery := hplain l hl
  cases l with
  | value | fields => exact GraphClause.leafFollows_related h rfl nofun
  | subQuery | exist => cases hquery
  | custom => exact absurd hfree nofun

/-- In a draft without joins it is the only one. -/
theorem attachAll_leftJoin (h : Schema.IsOne d.outline.root target via)
    (hjoins : d.outline.joins = []) :
    Join.attachAll ⟨[], .ofRoot d.outline.root⟩ (Scope.ofRoot d.outline.root).rootEntry
      (d.join { Join.ofTable via with operator := .left }).outline.joins =
      .ok ⟨[.leftOf via target], .ofRelated d.outline.root target via⟩ := by
  have hjoin : (d.join { Join.ofTable via with operator := .left }).outline.joins =
      [{ Join.ofTable via with operator := .left }] := congrArg (· ++ _) hjoins
  rw [hjoin]
  exact Join.attachAll_leftOf h

/-- The query of a draft without joins, and that of the draft with a left join. -/
theorem exists_ofDraft_leftJoin (h : Schema.IsOne d.outline.root target via)
    (hjoins : d.outline.joins = []) (hcustom : d.CustomFree)
    (hplain : ∀ l ∈ Clause.leavesAll d.conditions, l.query? = none) (hq : ofDraft .rows d = .ok q) :
    ∃ q', ofDraft .rows (d.join { Join.ofTable via with operator := .left }) = .ok q' ∧
      q.plan.joins = [] ∧ q'.plan.joins = [.leftOf via target] ∧
      q.plan.root = d.outline.root ∧ q'.plan.root = d.outline.root ∧
      Option.Rel (Predicate.Follows (Tuple.withRelated via)) q.condition? q'.condition? ∧
      q.plan.Follows (Tuple.withRelated via) q'.plan := by
  obtain ⟨known, hc⟩ := ofLevel_eq_ok.1 hq
  have hknown := hc.joins
  rw [hjoins] at hknown
  obtain ⟨hnone, rfl⟩ := Joining.mk.inj (Except.ok.inj hknown)
  obtain ⟨selections, hselections, hss⟩ := Selection.ofRows_follows h hc.selections
  obtain ⟨orders, horders, hos⟩ :=
    Result.exists_mapM (fun _ _ => sorting_follows h) hc.orders
  obtain ⟨groups, hgroups, hgs⟩ := Result.exists_mapM (fun _ _ => group_follows h) hc.groups
  obtain ⟨items, hitems, hcondition⟩ := Result.map_eq_ok.1 hc.condition
  obtain ⟨items', hitems', hall⟩ :=
    GraphClause.predicates_follows (leafFollows_of_plain h hcustom hplain) hitems
  let plan : Plan E := { q.plan with
    joins := [.leftOf via target]
    selections := selections
    orders := orders
    groups := groups }
  refine ⟨⟨plan, Predicate.fold items'⟩, ?_, hnone.symm, rfl, hc.root, hc.root, ?_, ?_⟩
  · exact ofLevel_eq_ok.2 ⟨.ofRelated d.outline.root target via, {
      joins := attachAll_leftJoin h hjoins
      fetches := hc.fetches
      selections := hselections
      orders := horders
      condition := Result.map_eq_ok.2 ⟨items', hitems', rfl⟩
      groups := hgroups
      depth := hc.depth
      root := hc.root
      first := hc.first
      max := hc.max
      resultType := hc.resultType }⟩
  · rw [← hcondition]
    exact Predicate.follows_fold hall
  · exact {
      selections := hss
      orders := hos
      groups := hgs
      fetches := fun _ => rfl
      empty := by rw [← hnone]; rfl
      first := rfl
      max := rfl }

/-- A left join along a relationship to one, in a query without joins and without queries in its
conditions, leaves the rows as they are, although all fields behind the relationship are fields of
the joined rows then.  All that the data must not hold there is a list. -/
theorem run_leftJoin_eq (h : Schema.IsOne d.outline.root target via)
    (hjoins : d.outline.joins = []) (hcustom : d.CustomFree)
    (hplain : ∀ l ∈ Clause.leavesAll d.conditions, l.query? = none)
    (hq : ofDraft .rows d = .ok q) :
    ∃ q' known, ofDraft .rows (d.join { Join.ofTable via with operator := .left }) = .ok q' ∧
      (d.join { Join.ofTable via with operator := .left }).scope = .ok known ∧
      (∀ field rest, Text.splitFirst? '.' field = some (via, rest) →
        known.resolve field = Entry.resolve ⟨⟨0, .join 0⟩, target⟩ rest) ∧
      ∀ data : Dataset, (∀ r ∈ data.records (Schema.name d.outline.root),
        (r.get via).toList? = none) → q'.run data = q.run data := by
  obtain ⟨q', hq', hnone, hnode, hroot, hroot', hcondition, hplan⟩ :=
    exists_ofDraft_leftJoin h hjoins hcustom hplain hq
  refine ⟨q', .ofRelated d.outline.root target via, hq', ?_,
    fun field rest => Scope.resolve_related field, fun data hdata => ?_⟩
  · exact Result.map_eq_ok.2 ⟨_, attachAll_leftJoin h hjoins, rfl⟩
  · refine Follows.run_eq ⟨?_, hcondition, hplan⟩
    rw [Plan.joined, Plan.joined, hnone, hnode, Plan.rootTuples, Plan.rootTuples, hroot, hroot']
    exact JoinNode.joinAll_leftOf hdata

end GraphQuery

/-- Typed records hold no list behind a relationship to one. -/
theorem Dataset.WellTyped.toList?_eq_none {data : Dataset} (hdata : data.WellTyped E)
    (h : Schema.IsOne root target via) :
    ∀ r ∈ data.records (Schema.name root), (r.get via).toList? = none := by
  intro r hr
  obtain ⟨a, ha, hkind⟩ := h.relationship
  have hadmits := (hdata root r hr).get ha
  rw [hkind] at hadmits
  generalize r.get via = v at hadmits
  cases hadmits <;> rfl

/-! ## Dogs with and without an owner -/

namespace Kennel

def dogOf (name : String) (owner : Value) : Record :=
  ⟨"Dog", [("name", .string name), ("owner", owner)]⟩

def ownerNamed (name : String) : Record := ⟨"Owner", [("name", .string name)]⟩

/-- Bo has no owner. -/
def pack : Dataset := ⟨[("Dog", [dogOf "Rex" (ownerNamed "Ada").toValue, dogOf "Bo" .null,
  dogOf "Max" (ownerNamed "Eve").toValue])]⟩

theorem wellTyped_pack : pack.WellTyped Kennel := by
  have howner (name : String) : (ownerNamed name).Of owner := by
    refine .of_attributes rfl ?_
    refine List.forall_mem_cons.2 ⟨.null _, List.forall_mem_cons.2 ⟨.basic rfl, ?_⟩⟩
    exact List.forall_mem_cons.2 ⟨.null _, List.forall_mem_singleton.2 (.null _)⟩
  have hdog (name : String) (v : Value) (hv : (AttributeKind.relation owner false).Admits v) :
      (dogOf name v).Of dog := by
    refine .of_attributes rfl ?_
    refine List.forall_mem_cons.2 ⟨.null _, List.forall_mem_cons.2 ⟨.basic rfl, ?_⟩⟩
    exact List.forall_mem_singleton.2 hv
  intro e
  cases e with
  | owner => exact nofun
  | dog =>
    refine List.forall_mem_cons.2 ⟨hdog _ _ (.one (howner "Ada")), ?_⟩
    refine List.forall_mem_cons.2 ⟨hdog _ _ (.null _), ?_⟩
    exact List.forall_mem_singleton.2 (hdog _ _ (.one (howner "Eve")))

/-- Dogs without an owner or with one whose name begins with A, in the order of these names. -/
def straysOrAs : Draft Kennel (ScopedCondition Kennel) where
  outline := {
    root := .dog
    selects := [.ofField "name", .ofField "owner.name"]
    orders := [⟨"owner.name", .desc⟩] }
  conditions := [.leaf .and (.value "owner.name" .isNull .null),
    .leaf .or (.value "owner.name" .like (.string "A%"))]

theorem run_leftJoin_eq_of_straysOrAs : ∃ q q' rows,
    GraphQuery.ofDraft .rows straysOrAs = .ok q ∧
    GraphQuery.ofDraft .rows (straysOrAs.join { Join.ofTable "owner" with operator := .left }) =
      .ok q' ∧
    q.run pack = .ok rows ∧ rows.length = 2 ∧ q'.run pack = .ok rows := by
  have hrun : (GraphQuery.ofDraft .rows straysOrAs).bind (fun q =>
      (q.run pack).map List.length) = .ok 2 := by
    decide +kernel
  obtain ⟨q, hq, hrun⟩ := Result.bind_eq_ok.1 hrun
  obtain ⟨rows, hrows, htwo⟩ := Result.map_eq_ok.1 hrun
  have hone : Schema.IsOne dog owner "owner" := ⟨⟨_, rfl, rfl⟩, by decide⟩
  have hfree : straysOrAs.CustomFree := Draft.customFree_iff.2
    (List.forall_mem_cons.2 ⟨trivial, List.forall_mem_singleton.2 trivial⟩)
  have hplain : ∀ l ∈ Clause.leavesAll straysOrAs.conditions, l.query? = none :=
    List.forall_mem_cons.2 ⟨rfl, List.forall_mem_singleton.2 rfl⟩
  obtain ⟨q', -, hq', -, -, hsame⟩ :=
    GraphQuery.run_leftJoin_eq hone rfl hfree hplain hq
  have hlists := wellTyped_pack.toList?_eq_none hone
  exact ⟨q, q', rows, hq, hq', hrows, htwo, (hsame pack hlists).trans hrows⟩

end Kennel

end EntityQuery
