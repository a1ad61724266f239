import EntityQuery.Proofs.Evaluation.Tuples
import EntityQuery.Proofs.GraphQuery.Compilation

/-! # What inner fetches find

An inner fetch keeps a root behind which its path finds something.  The path is followed value by
value: from a record to a record or to a list of records, and from a list to the list of what its
records lead to.  As long as at most one relationship on the path leads to many records, what is
found are the records that are reached.  A second one makes lists inside a list.  At the end of the
path each of them counts, even one without records, and beyond the end nothing is found at all. -/

namespace EntityQuery

variable {E : Type} [Schema E]

/-! ## Relationships and the records behind them -/

/-- The records that are reached from a record along relationships. -/
def Record.reached : Record → List String → List Record
  | r, [] => [r]
  | r, segment :: rest =>
    (JoinNode.heldRecords (r.get segment)).flatMap fun next => next.reached rest

/-- How many of the relationships along a path lead to many records. -/
def Schema.manyAlong (e : E) : List String → Nat
  | [] => 0
  | segment :: rest =>
    match attribute? e segment with
    | some a => a.isMany.toNat + a.target?.elim 0 fun target => manyAlong target rest
    | none => 0

/-- Each relationship to many counts. -/
theorem Schema.manyAlong_cons {e target : E} {segment : String} {a : Attribute E}
    (ha : attribute? e segment = some a) (ht : a.target? = some target) (rest : List String) :
    manyAlong e (segment :: rest) = a.isMany.toNat + manyAlong target rest := by
  rw [manyAlong, ha]
  simp only [ht, Option.elim_some]

/-! ## Values on the way -/

namespace Value

variable {e target : E} {listed : Bool} {v : Value} {a : Attribute E} {segment : String}

/-- There is something in the value. -/
def isFound : Value → Bool
  | .null => false
  | .list items => items.any fun i => !i.isNull
  | _ => true

/-- Nothing, a record, or a list of both that a relationship to many has led to. -/
inductive Flat (e : E) : Bool → Value → Prop
  | null (listed : Bool) : Flat e listed .null
  | one {r : Record} (h : r.Of e) : Flat e false r.toValue
  | many {items : List Value} (h : ∀ i ∈ items, i = .null ∨ ∃ r : Record, r.Of e ∧ i = r.toValue) :
      Flat e true (.list items)

/-- The records that are held are of the entity that the path has come to. -/
theorem Flat.heldRecords (h : Flat e listed v) : ∀ r ∈ JoinNode.heldRecords v, r.Of e := by
  cases h with
  | null => exact nofun
  | one h => exact List.forall_mem_singleton.2 h
  | many h =>
    intro r hr
    obtain ⟨i, hi, hr⟩ := List.mem_filterMap.1 hr
    rcases h i hi with rfl | ⟨s, hs, rfl⟩
    · cases hr
    · obtain rfl := Option.some.inj hr
      exact hs

/-- Something is in a flat value exactly if a record is. -/
theorem Flat.isFound_iff (h : Flat e listed v) : v.isFound ↔ JoinNode.heldRecords v ≠ [] := by
  cases h with
  | null => simp [isFound, JoinNode.heldRecords]
  | one => simp [isFound, Record.toValue, JoinNode.heldRecords]
  | @many items h =>
    rw [isFound, List.any_eq_true, JoinNode.heldRecords, ne_eq, List.filterMap_eq_nil_iff]
    push Not
    refine exists_congr fun i => and_congr_right fun hi => ?_
    rcases h i hi with rfl | ⟨r, -, rfl⟩
    · simp [isNull, toRecord?]
    · simp [Record.toValue, isNull, toRecord?]

/-- From a list the path goes on at each of its records. -/
theorem step_list (items : List Value) (segment : String) :
    Fetch.step (.list items) segment =
      .list ((JoinNode.heldRecords (.list items)).map fun r => r.get segment) := by
  rw [Fetch.step, JoinNode.heldRecords, List.map_filterMap]

/-- What a relationship holds is flat. -/
theorem Flat.of_admits (h : a.kind.Admits v) (ht : a.target? = some target) :
    Flat target a.isMany v := by
  obtain ⟨name, kind⟩ := a
  cases h with
  | null => exact .null _
  | basic => cases ht
  | one h =>
    obtain rfl := Option.some.inj ht
    exact .one h
  | many h =>
    obtain rfl := Option.some.inj ht
    refine .many (List.forall_mem_map.2 fun r hr => .inr ⟨r, h r hr, rfl⟩)

theorem Flat.eq_null_or_record (h : Flat e false v) :
    v = .null ∨ ∃ r : Record, r.Of e ∧ v = r.toValue := by
  cases h with
  | null => exact .inl rfl
  | one h => exact .inr ⟨_, h, rfl⟩

/-- One step leads to what the records lead to, unless it is the second one to many. -/
theorem Flat.step (h : Flat e listed v) (ha : Schema.attribute? e segment = some a)
    (ht : a.target? = some target) (hone : (listed && a.isMany) = false) :
    Flat target (listed || a.isMany) (Fetch.step v segment) ∧
      JoinNode.heldRecords (Fetch.step v segment) =
        (JoinNode.heldRecords v).flatMap fun r => JoinNode.heldRecords (r.get segment) := by
  have hget (r : Record) (hr : r.Of e) : Flat target a.isMany (r.get segment) :=
    .of_admits (hr.get ha) ht
  cases h with
  | null => exact ⟨.null _, rfl⟩
  | @one r hr =>
    constructor
    · rw [Bool.false_or]
      exact hget r hr
    · exact (List.flatMap_singleton _ _).symm
  | @many items hitems =>
    rw [Bool.true_and] at hone
    have hslot : ∀ r ∈ JoinNode.heldRecords (.list items),
        r.get segment = .null ∨ ∃ s : Record, s.Of target ∧ r.get segment = s.toValue := by
      intro r hr
      have hflat := hget r ((Flat.many hitems).heldRecords r hr)
      rw [hone] at hflat
      exact hflat.eq_null_or_record
    rw [step_list]
    constructor
    · rw [Bool.true_or]
      exact .many (List.forall_mem_map.2 hslot)
    · rw [JoinNode.heldRecords, List.filterMap_map, List.filterMap_eq_flatMap_toList]
      refine List.flatMap_congr fun r hr => ?_
      rcases hslot r hr with hnull | ⟨s, -, hs⟩
      · rw [Function.comp_apply, hnull]
        rfl
      · rw [Function.comp_apply, hs]
        rfl

/-- After the second step to many, whatever a record holds counts, be it a list without records. -/
theorem Flat.isFound_step (h : Flat e true v) :
    (Fetch.step v segment).isFound ↔
      ∃ r ∈ JoinNode.heldRecords v, (r.get segment).isNull = false := by
  cases h with
  | null => simp [Fetch.step, isFound, JoinNode.heldRecords]
  | many => rw [step_list, isFound, List.any_map, List.any_eq_true]; simp

/-- There is nothing in the value, and nothing behind it. -/
def IsLost (v : Value) : Prop := v = .null ∨ v = .list []

/-- What is lost stays lost. -/
theorem IsLost.foldl_step (h : v.IsLost) (path : List String) :
    (path.foldl Fetch.step v).IsLost := by
  induction path generalizing v with
  | nil => exact h
  | cons segment path ih =>
    apply ih
    rcases h with rfl | rfl
    · exact .inl rfl
    · exact .inr rfl

theorem IsLost.isFound (h : v.IsLost) : v.isFound = false := by
  rcases h with rfl | rfl <;> rfl

/-- Beyond the second step to many there are no records to go on from. -/
theorem Flat.isLost_step_step (h : Flat e true v) (ha : Schema.attribute? e segment = some a)
    (ht : a.target? = some target) (hmany : a.isMany) (next : String) :
    (Fetch.step (Fetch.step v segment) next).IsLost := by
  have hheld := h.heldRecords
  cases h with
  | null => exact .inl rfl
  | @many items hitems =>
    have hnone : JoinNode.heldRecords (.list ((JoinNode.heldRecords (.list items)).map fun r =>
        r.get segment)) = [] := by
      refine List.filterMap_eq_nil_iff.2 (List.forall_mem_map.2 fun r hr => ?_)
      have hflat : Flat target a.isMany (r.get segment) := .of_admits ((hheld r hr).get ha) ht
      rw [hmany] at hflat
      generalize r.get segment = held at hflat
      cases hflat <;> rfl
    rw [step_list, step_list, hnone]
    exact .inr rfl

end Value

/-! ## Values at the end of a path -/

/-- What a path from records of an entity comes to, if so many relationships to many records led to
them. -/
structure Value.Ends (e : E) (before : Nat) (rs : List Record) (path : List String) (v : Value) :
    Prop where
  records : before + Schema.manyAlong e path ≤ 1 →
    (v.isFound ↔ (rs.flatMap fun r => r.reached path) ≠ [])
  lists : 2 ≤ before + Schema.manyAlong e path →
    before + Schema.manyAlong e path.dropLast ≤ 1 →
    (v.isFound ↔ ∃ r ∈ rs.flatMap fun r => r.reached path.dropLast,
      ∃ last ∈ path.getLast?, (r.get last).isNull = false)
  nothing : 2 ≤ before + Schema.manyAlong e path.dropLast → v.isFound = false

namespace Value

variable {e target : E} {listed : Bool} {v : Value} {a : Attribute E} {segment : String}
  {path : List String}

/-- A step in front of a path. -/
theorem Ends.cons {rs : List Record} (ha : Schema.attribute? e segment = some a)
    (ht : a.target? = some target) (hone : (listed && a.isMany) = false)
    (h : Ends target (listed || a.isMany).toNat
      (rs.flatMap fun r => JoinNode.heldRecords (r.get segment)) path v) :
    Ends e listed.toNat rs (segment :: path) v := by
  have hcount : (listed || a.isMany).toNat = listed.toNat + a.isMany.toNat := by
    cases listed <;> cases hmany : a.isMany <;> simp_all
  have hle : (listed || a.isMany).toNat ≤ 1 := Bool.toNat_le _
  have hreached (rest : List String) : (rs.flatMap fun r => r.reached (segment :: rest)) =
      (rs.flatMap fun r => JoinNode.heldRecords (r.get segment)).flatMap fun r => r.reached rest :=
    List.flatMap_assoc.symm
  have hmany (rest : List String) : listed.toNat + Schema.manyAlong e (segment :: rest) =
      (listed || a.isMany).toNat + Schema.manyAlong target rest := by
    rw [Schema.manyAlong_cons ha ht, hcount, Nat.add_assoc]
  cases path with
  | nil =>
    have htwo : listed.toNat + Schema.manyAlong e [segment] ≤ 1 := by
      rw [hmany]
      exact hle
    have hempty : listed.toNat + Schema.manyAlong e [] ≤ 1 := Bool.toNat_le _
    constructor
    · intro _
      rw [hreached]
      exact h.records hle
    · intro hlists
      omega
    · intro hnothing
      change 2 ≤ listed.toNat + Schema.manyAlong e [] at hnothing
      omega
  | cons next rest =>
    constructor
    · intro hrecords
      rw [hmany] at hrecords
      rw [hreached]
      exact h.records hrecords
    · intro hlists hbefore
      rw [hmany] at hlists
      rw [List.dropLast_cons_cons, hmany] at hbefore
      rw [List.dropLast_cons_cons, hreached, List.getLast?_cons_cons]
      exact h.lists hlists hbefore
    · intro hnothing
      rw [List.dropLast_cons_cons, hmany] at hnothing
      exact h.nothing hnothing

/-- The second step to many. -/
theorem Ends.second (h : Flat e true v) (ha : Schema.attribute? e segment = some a)
    (ht : a.target? = some target) (hmany : a.isMany) (path : List String) :
    Ends e 1 (JoinNode.heldRecords v) (segment :: path)
      ((segment :: path).foldl Fetch.step v) := by
  have hcount (rest : List String) : 2 ≤ 1 + Schema.manyAlong e (segment :: rest) := by
    rw [Schema.manyAlong_cons ha ht, hmany, Bool.toNat_true]
    omega
  cases path with
  | nil =>
    constructor
    · have := hcount []
      omega
    · intro _ _
      rw [List.foldl_cons, List.foldl_nil, h.isFound_step]
      simp [Record.reached]
    · intro hnothing
      change 2 ≤ 1 + 0 at hnothing
      omega
  | cons next rest =>
    constructor
    · have := hcount (next :: rest)
      omega
    · have := hcount (next :: rest).dropLast
      rw [List.dropLast_cons_cons]
      omega
    · intro _
      exact ((h.isLost_step_step ha ht hmany next).foldl_step rest).isFound

/-- The run along a path, from a value that is flat. -/
theorem Flat.foldl_step {type? : Option ScalarType} (hw : Walks e path type?) (htype : type? = none)
    (h : Flat e listed v) :
    Ends e listed.toNat (JoinNode.heldRecords v) path (path.foldl Fetch.step v) := by
  induction hw generalizing listed v with
  | rows e =>
    have hbefore : listed.toNat + Schema.manyAlong e [] ≤ 1 := Bool.toNat_le _
    constructor
    · intro _
      simpa [Record.reached] using h.isFound_iff
    · intro hlists
      omega
    · intro hnothing
      change 2 ≤ listed.toNat + Schema.manyAlong e [] at hnothing
      omega
  | basic => cases htype
  | @relationship e target segment a rest type? ha ht hrest ih =>
    cases hone : listed && a.isMany with
    | false =>
      obtain ⟨hflat, hheld⟩ := h.step ha ht hone
      have hends := ih htype hflat
      rw [hheld] at hends
      exact hends.cons ha ht hone
    | true =>
      obtain ⟨rfl, hmany⟩ := (Bool.and_eq_true _ _).mp hone
      exact .second h ha ht hmany rest

end Value

/-! ## Inner fetches -/

/-- What an inner fetch has to find behind a record.  Up to one relationship to many, it is a record
at the end of the path.  With a second one at the end, it is a record before the end that has
anything there, if only a list without records; and with a second one before the end there is
nothing to find. -/
def Fetch.Finds (f : Fetch) (e : E) (r : Record) : Prop :=
  let path := Text.split '.' f.path
  if Schema.manyAlong e path ≤ 1 then r.reached path ≠ []
  else if Schema.manyAlong e path.dropLast ≤ 1 then
    ∃ s ∈ r.reached path.dropLast, ∃ last ∈ path.getLast?, (s.get last).isNull = false
  else False

/-- Following the path step by step comes to what the fetch has to find. -/
theorem Fetch.isPresent_iff_finds {f : Fetch} {e : E} {r : Record}
    (hw : Walks e (Text.split '.' f.path) none) (hr : r.Of e) : f.isPresent r ↔ f.Finds e r := by
  have hends := (Value.Flat.one hr).foldl_step hw rfl
  rw [show JoinNode.heldRecords r.toValue = [r] from rfl] at hends
  obtain ⟨hrecords, hlists, hnothing⟩ := hends
  simp only [Bool.toNat_false, Nat.zero_add, List.flatMap_singleton] at hrecords hlists hnothing
  change Value.isFound _ ↔ _
  rw [Finds]
  split_ifs with hone hlast
  · exact hrecords hone
  · exact hlists (by omega) hlast
  · rw [hnothing (by omega)]
    simp

namespace GraphQuery

variable {data : Dataset} {purpose : Purpose} {d : Draft E (ScopedCondition E)}
  {q : GraphQuery E} {ts : List Tuple} {t : Tuple} {r : Record} {f : Fetch}

/-- The joins of a draft are well formed, and the scope that knows them has the root. -/
theorem joining_valid {known : Scope E} {cs : List (GraphClause E)}
    (h : Compiled purpose (.ofRoot d.outline.root) known d.outline cs q) :
    Joining.Valid [] q.plan.root ⟨q.plan.joins, known⟩ := by
  have hs := Scope.valid_ofRoot d.outline.root
  have hroot : Joining.Has [] d.outline.root ⟨[], .ofRoot d.outline.root⟩
      (Scope.ofRoot d.outline.root).rootEntry := ⟨rfl, rfl⟩
  rw [h.root]
  exact (Join.attachAll_valid (Joining.valid_start hs) hroot h.joins).1

/-- The path of a fetch follows relationships from the root. -/
theorem walks_of_mem_fetches (hq : ofDraft purpose d = .ok q) (hf : f ∈ q.plan.fetches) :
    Walks q.plan.root (Text.split '.' f.path) none := by
  obtain ⟨known, h⟩ := ofLevel_eq_ok.1 hq
  have hroot : known.root = q.plan.root := (joining_valid h).scope.root
  have hfetches := h.fetches
  rw [fetches] at hfetches
  split at hfetches
  · obtain ⟨fetch, -, hfetch⟩ := Result.exists_of_mem_mapM hfetches hf
    obtain ⟨path, hpath, hfetch⟩ := Result.bind_eq_ok.1 hfetch
    split at hfetch
    · cases hfetch
    · rename_i htype
      obtain rfl := Result.pure_eq_ok.1 hfetch
      rw [Entry.resolve] at hpath
      split at hpath
      · cases hpath
      · obtain ⟨type?, hwalk, rfl⟩ := Result.map_eq_ok.1 hpath
        obtain rfl : type? = none := by simpa using htype
        rw [← hroot]
        exact Scope.walks_of_typeAlong hwalk
  · obtain hnone := Except.ok.inj hfetches
    rw [← hnone] at hf
    exact absurd hf List.not_mem_nil

/-- Whatever is joined, the root of a tuple is a record of the root of the query. -/
theorem root_of_joined (hdata : data.WellTyped E) (hq : ofDraft purpose d = .ok q)
    (hts : q.plan.joined data [] = .ok ts) (ht : t ∈ ts) (hr : t.record? .root = some r) :
    r.Of q.plan.root := by
  obtain ⟨known, h⟩ := ofLevel_eq_ok.1 hq
  have hfits : ∀ t ∈ ts, Tuple.Fits ⟨q.plan.root, [] ++ q.plan.joins⟩ t :=
    JoinNode.joinAll_fits hdata (joining_valid h).nodes (Plan.rootTuples_fits hdata) hts
  exact (hfits t ht).slots .root q.plan.root r rfl hr

/-- On typed records, the tuples with a root that inner fetches keep are those behind whose root
each of them finds something. -/
theorem fetchesPresent_iff_finds (hdata : data.WellTyped E) (hq : ofDraft purpose d = .ok q)
    (hts : q.plan.joined data [] = .ok ts) (ht : t ∈ ts) (hr : t.record? .root = some r) :
    q.plan.fetchesPresent t ↔
      ∀ f ∈ q.plan.fetches, f.operator = .inner → f.Finds q.plan.root r := by
  rw [Plan.fetchesPresent, hr]
  dsimp only
  rw [List.all_eq_true]
  refine forall₂_congr fun f hf => ?_
  have hfinds := Fetch.isPresent_iff_finds (walks_of_mem_fetches hq hf)
    (root_of_joined hdata hq hts ht hr)
  rw [← hfinds, Bool.or_eq_true, decide_eq_true_iff, ne_eq, ← imp_iff_not_or]

end GraphQuery

/-! ## Owners of dogs of owners of dogs -/

namespace Kennel

def ownerWith (dogs : List Record) : Record :=
  ⟨"Owner", [("dogs", .list (dogs.map Record.toValue))]⟩

def dogWithOwner (owner : Record) : Record := ⟨"Dog", [("owner", owner.toValue)]⟩

/-- An owner with a dog that belongs to the owner before; the first one has no dogs. -/
def chain : Nat → Record
  | 0 => ownerWith []
  | n + 1 => ownerWith [dogWithOwner (chain n)]

def chained (n : Nat) : Dataset := ⟨[("Owner", [chain n])]⟩

theorem of_ownerWith {dogs : List Record} (h : ∀ r ∈ dogs, r.Of dog) :
    (ownerWith dogs).Of owner := by
  refine .of_attributes rfl ?_
  refine List.forall_mem_cons.2 ⟨.null _, List.forall_mem_cons.2 ⟨.null _, ?_⟩⟩
  refine List.forall_mem_cons.2 ⟨.null _, List.forall_mem_singleton.2 ?_⟩
  exact .many h

theorem of_dogWithOwner {r : Record} (h : r.Of owner) : (dogWithOwner r).Of dog := by
  refine .of_attributes rfl ?_
  refine List.forall_mem_cons.2 ⟨.null _, List.forall_mem_cons.2 ⟨.null _, ?_⟩⟩
  exact List.forall_mem_singleton.2 (.one h)

theorem of_chain (n : Nat) : (chain n).Of owner := by
  induction n with
  | zero => exact of_ownerWith nofun
  | succ n ih => exact of_ownerWith (List.forall_mem_singleton.2 (of_dogWithOwner ih))

theorem wellTyped_chained (n : Nat) : (chained n).WellTyped Kennel := by
  intro e
  cases e with
  | owner => exact List.forall_mem_singleton.2 (of_chain n)
  | dog => exact nofun

def ownersFetching (path : String) : Draft Kennel (ScopedCondition Kennel) where
  outline := { root := .owner, fetches := [.ofRelationship path .inner] }

/-- Without joins, the owner at the end of the chain is the only tuple. -/
theorem joined_ownersFetching (path : String) (n : Nat) (kept : Bool)
    (h : (GraphQuery.ofDraft .rows (ownersFetching path)).map (fun q =>
      (q.plan.root, q.plan.joins.length, q.plan.fetchesPresent [some (chain n)])) =
        .ok (owner, 0, kept)) :
    ∃ q, GraphQuery.ofDraft .rows (ownersFetching path) = .ok q ∧ q.plan.root = owner ∧
      q.plan.joined (chained n) [] = .ok [[some (chain n)]] ∧
      q.plan.fetchesPresent [some (chain n)] = kept := by
  obtain ⟨q, hq, hplan⟩ := Result.map_eq_ok.1 h
  obtain ⟨hroot, hjoins, hkept⟩ : q.plan.root = owner ∧ q.plan.joins.length = 0 ∧
      q.plan.fetchesPresent [some (chain n)] = kept := by
    simpa only [Prod.mk.injEq] using hplan
  refine ⟨q, hq, hroot, ?_, hkept⟩
  rw [Plan.joined, Plan.rootTuples, hroot, List.length_eq_zero_iff.1 hjoins]
  rfl

/-- The owner of the dog of an owner is found. -/
theorem fetchesPresent_iff_finds_of_chain :
    (chained 1).WellTyped Kennel ∧
    ∃ q ts t, GraphQuery.ofDraft .rows (ownersFetching "dogs.owner") = .ok q ∧
      q.plan.joined (chained 1) [] = .ok ts ∧ t ∈ ts ∧ t.record? .root = some (chain 1) ∧
      ∀ f ∈ q.plan.fetches, f.operator = .inner → f.Finds q.plan.root (chain 1) := by
  obtain ⟨q, hq, -, hts, hkept⟩ :=
    joined_ownersFetching "dogs.owner" 1 true (by decide +kernel)
  exact ⟨wellTyped_chained 1, q, _, _, hq, hts, List.mem_singleton_self _, rfl,
    (GraphQuery.fetchesPresent_iff_finds (wellTyped_chained 1) hq hts (List.mem_singleton_self _)
      rfl).1 hkept⟩

/-- An owner is kept for the dogs of an owner who has none, and another one is dropped although
there is an owner to fetch behind two relationships to many. -/
theorem not_fetchesPresent_iff_reached :
    ((chained 1).WellTyped Kennel ∧ (chain 1).reached ["dogs", "owner", "dogs"] = [] ∧
      ∃ q, GraphQuery.ofDraft .rows (ownersFetching "dogs.owner.dogs") = .ok q ∧
        q.plan.joined (chained 1) [] = .ok [[some (chain 1)]] ∧
        q.plan.fetchesPresent [some (chain 1)] = true) ∧
    (chained 2).WellTyped Kennel ∧ (chain 2).reached ["dogs", "owner", "dogs", "owner"] ≠ [] ∧
      ∃ q, GraphQuery.ofDraft .rows (ownersFetching "dogs.owner.dogs.owner") = .ok q ∧
        q.plan.joined (chained 2) [] = .ok [[some (chain 2)]] ∧
        q.plan.fetchesPresent [some (chain 2)] = false := by
  obtain ⟨q, hq, -, hts, hkept⟩ :=
    joined_ownersFetching "dogs.owner.dogs" 1 true (by decide +kernel)
  obtain ⟨q', hq', -, hts', hdropped⟩ :=
    joined_ownersFetching "dogs.owner.dogs.owner" 2 false (by decide +kernel)
  refine ⟨⟨wellTyped_chained 1, ?_, q, hq, hts, hkept⟩,
    wellTyped_chained 2, ?_, q', hq', hts', hdropped⟩
  · exact List.isEmpty_iff.1 (by decide +kernel)
  · exact fun h => absurd (List.isEmpty_iff.2 h) (by decide +kernel)

end Kennel

end EntityQuery
