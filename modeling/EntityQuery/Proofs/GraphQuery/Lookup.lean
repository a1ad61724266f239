import EntityQuery.Proofs.GraphQuery.Compilation
import EntityQuery.Proofs.Kennel

/-! # Names in nested queries

A scope keeps the names of a query and of all queries around it in one list.  What it says is what
is read off the levels: a name stands for a join of its own level, or else for the root of that
level, or else for a join further out.  The root of an enclosing level is never seen, but it hides
the joins of its name that are outside of it. -/

namespace EntityQuery

variable {E : Type}

/-! ## Names read off levels -/

/-- The rows of the join of a level that is called `name`. -/
def Level.join? (l : Level E) (depth : Nat) (name : String) : Option (Entry E) := do
  let index ← l.joins.findIdx? fun n => n.name = name
  let node ← l.joins[index]?
  return ⟨⟨depth, .join index⟩, node.entity⟩

/-- The rows of the root of a level inside other levels. -/
def Level.rootRows (l : Level E) (outer : List (Level E)) : Entry E :=
  ⟨⟨outer.length, .root⟩, l.root⟩

/-- The aliases of a level. -/
def Level.names (l : Level E) : List String := l.joins.map JoinNode.name

/-- The nearest join of that name, from the innermost level on. -/
def nearestJoin? (name : String) : List (Level E) → Option (Entry E)
  | [] => none
  | l :: outer => (l.join? outer.length name).or (nearestJoin? name outer)

/-- A level has no join of a name that none of its joins has. -/
theorem Level.join?_eq_none {l : Level E} {depth : Nat} {name : String} :
    l.join? depth name = none ↔ name ∉ l.names :=
  Joining.taken?_eq_none (s := ⟨l.joins, ⟨depth, l.root, [], none⟩⟩)

theorem Level.mem_names_of_join? {l : Level E} {depth : Nat} {name : String} {e : Entry E}
    (h : l.join? depth name = some e) : name ∈ l.names := by
  by_contra hn
  rw [join?_eq_none.2 hn] at h
  cases h

/-- The join of a level is not its root. -/
theorem Level.origin_of_join? {l : Level E} {depth : Nat} {name : String} {e : Entry E}
    (h : l.join? depth name = some e) : ∃ index, e.origin = ⟨depth, .join index⟩ := by
  obtain ⟨index, -, h⟩ := Option.bind_eq_some_iff.1 h
  obtain ⟨n, -, h⟩ := Option.bind_eq_some_iff.1 h
  obtain rfl := Option.some.inj h
  exact ⟨index, rfl⟩

/-- There is no nearest join if there is none at all. -/
theorem nearestJoin?_eq_none {name : String} {outer : List (Level E)} :
    nearestJoin? name outer = none ↔ ∀ m ∈ outer, name ∉ m.names := by
  induction outer with
  | nil => simp [nearestJoin?]
  | cons l outer ih => simp [nearestJoin?, Option.or_eq_none_iff, Level.join?_eq_none, ih]

/-- The root of the query around the innermost one. -/
def parentRows? : List (Level E) → Option (Entry E)
  | [] => none
  | l :: outer => some (l.rootRows outer)

/-! ## Nodes that are pushed -/

theorem lookup_cons_eq_ite {β : Type} (key : String) (b : β) (entries : List (String × β))
    (name : String) :
    ((key, b) :: entries).lookup name = if name = key then some b else entries.lookup name := by
  rw [List.lookup_cons]
  by_cases h : name = key
  · simp [h]
  · simp [h, beq_eq_false_iff_ne.2 h]

/-- Entries under another name stay. -/
theorem lookup_filter_ne {β : Type} (key : String) (entries : List (String × β)) (name : String) :
    (entries.filter fun p => p.1 ≠ key).lookup name =
      if name = key then none else entries.lookup name := by
  induction entries with
  | nil => simp
  | cons p entries ih =>
    obtain ⟨k, b⟩ := p
    by_cases hk : k = key
    · subst hk
      rw [List.filter_cons_of_neg (by simp), ih, lookup_cons_eq_ite]
      by_cases hname : name = k <;> simp [hname]
    · rw [List.filter_cons_of_pos (by simpa using hk), lookup_cons_eq_ite, ih, lookup_cons_eq_ite]
      by_cases hname : name = k
      · simp [hname, hk]
      · simp [hname]

/-- A name stands for what it was registered for last. -/
@[simp] theorem Scope.entry?_register (s : Scope E) (key : String) (e : Entry E) (name : String) :
    Scope.entry? (s.register key e) name = if name = key then some e else s.entry? name :=
  lookup_cons_eq_ite key e s.entries name

/-- Nodes are pushed one after the other, each under a name that is free. -/
inductive Joining.Pushes : Joining E → Joining E → Prop
  | refl (s : Joining E) : Pushes s s
  | step {s s' : Joining E} {n : JoinNode E} (free : s.taken? n.name = none)
      (rest : Pushes (s.push n) s') : Pushes s s'

namespace Joining

variable {s s' s'' : Joining E}

theorem Pushes.trans (h : Pushes s s') (h' : Pushes s' s'') : Pushes s s'' := by
  induction h with
  | refl => exact h'
  | step free _ ih => exact .step free (ih h')

/-- A name is taken while joins are attached if the level has a join of it. -/
theorem taken?_eq_join? (s : Joining E) (root : E) (name : String) :
    s.taken? name = Level.join? ⟨root, s.nodes⟩ s.scope.depth name := rfl

/-- A pushed node takes its name. -/
theorem taken?_push {n : JoinNode E} (free : s.taken? n.name = none) (name : String) :
    (s.push n).taken? name = if name = n.name then some (s.next n.entity) else s.taken? name := by
  have hfree := taken?_eq_none.1 free
  simp only [taken?, push, List.findIdx?_append, List.findIdx?_singleton]
  cases hi : s.nodes.findIdx? fun m => m.name = name with
  | none =>
    by_cases hname : name = n.name
    · simp [hname, next, Scope.register]
    · simp [hname, Ne.symm hname]
  | some i =>
    obtain ⟨hlt, hat, -⟩ := List.findIdx?_eq_some_iff_getElem.1 hi
    have hname : name ≠ n.name := by
      rintro rfl
      exact hfree (List.mem_map.2 ⟨_, List.getElem_mem hlt, of_decide_eq_true hat⟩)
    have hget : (s.nodes ++ [n])[i]? = s.nodes[i]? := List.getElem?_append_left hlt
    simp [hname, hget, Scope.register]

/-- The scope knows the joins that were attached, and behind them all that it knew before. -/
structure Over (base : Scope E) (s : Joining E) : Prop where
  depth : s.scope.depth = base.depth
  root : s.scope.root = base.root
  parentRoot : s.scope.parentRoot? = base.parentRoot?
  entry? : ∀ name, s.scope.entry? name = (s.taken? name).or (base.entry? name)

theorem over_start (base : Scope E) : Over base ⟨[], base⟩ := ⟨rfl, rfl, rfl, fun _ => rfl⟩

/-- Pushing a node under a free name keeps the scope over its base. -/
theorem Over.push {base : Scope E} (h : Over base s) {n : JoinNode E}
    (free : s.taken? n.name = none) : Over base (s.push n) where
  depth := h.depth
  root := h.root
  parentRoot := h.parentRoot
  entry? name := by
    rw [taken?_push free, Joining.push, Scope.entry?_register, h.entry?]
    split <;> simp

theorem Pushes.over {base : Scope E} (hp : s.Pushes s') (h : Over base s) : Over base s' := by
  induction hp with
  | refl => exact h
  | step free _ ih => exact ih (h.push free)

end Joining

/-! ## What a name stands for -/

variable [Schema E]

/-- What a name stands for by lexical scoping: a join of the level, the root of the level, or else
the nearest join around it. -/
def lexical? (name : String) (l : Level E) (outer : List (Level E)) : Option (Entry E) :=
  (l.join? outer.length name).or
    (if Schema.acronym l.root = name then some (l.rootRows outer) else nearestJoin? name outer)

/-- The nearest join of that name that is not outside of a root of that name. -/
def unhiddenJoin? (name : String) : List (Level E) → Option (Entry E)
  | [] => none
  | l :: outer => (l.join? outer.length name).or
      (if Schema.acronym l.root = name then none else unhiddenJoin? name outer)

/-- What a name stands for in the scope of a level inside other levels. -/
def visible? (name : String) (l : Level E) (outer : List (Level E)) : Option (Entry E) :=
  (l.join? outer.length name).or
    (if Schema.acronym l.root = name then some (l.rootRows outer) else unhiddenJoin? name outer)

/-- Between a level and the nearest join of that name around it, there is a root of that name. -/
def HidesJoin (name : String) (outer : List (Level E)) : Prop :=
  ∃ between l rest, outer = between ++ l :: rest ∧ Schema.acronym l.root = name ∧
    (∀ m ∈ between ++ [l], name ∉ m.names) ∧ ∃ m ∈ rest, name ∈ m.names

/-- The scope of the innermost of nested levels, which comes first, once its joins are attached. -/
inductive Scope.Nested : List (Level E) → Scope E → Prop
  | outermost {root : E} {js : List (Join E)} {s : Joining E}
      (h : Join.attachAll ⟨[], ofRoot root⟩ (ofRoot root).rootEntry js = .ok s) :
      Nested [⟨root, s.nodes⟩] s.scope
  | inner {outer : List (Level E)} {around : Scope E} {root : E} {js : List (Join E)}
      {s : Joining E} (ha : Nested outer around)
      (h : Join.attachAll ⟨[], around.child root⟩ (around.child root).rootEntry js = .ok s) :
      Nested (⟨root, s.nodes⟩ :: outer) s.scope

/-! ## Attaching, node by node -/

namespace Join

variable {j : Join E} {s s' : Joining E} {rows current parent : Entry E}

theorem attachEntity_pushes {entity : E} (h : j.attachEntity s entity = .ok (s', rows)) :
    s.Pushes s' := by
  rw [attachEntity] at h
  split at h
  · obtain ⟨rfl, -⟩ := Prod.mk.inj (Except.ok.inj h)
    exact .refl s
  · rename_i free
    obtain ⟨on?, -, h⟩ := Result.bind_eq_ok.1 h
    obtain ⟨rfl, -⟩ := Prod.mk.inj (Result.pure_eq_ok.1 h)
    exact .step free (.refl _)

/-- Each segment pushes a node unless its name is taken. -/
theorem attachSegments_pushes {segments : List String}
    (h : j.attachSegments s current segments = .ok (s', rows)) : s.Pushes s' := by
  induction segments generalizing s current with
  | nil =>
    obtain ⟨rfl, -⟩ := Prod.mk.inj (Except.ok.inj h)
    exact .refl s
  | cons segment rest ih =>
    rw [attachSegments] at h
    dsimp only at h
    generalize (if rest.isEmpty then j.alias?.getD segment else segment) = name at h
    split at h
    · exact ih h
    · rename_i free
      split at h
      · cases h
      · split at h
        · obtain ⟨on?, -, h⟩ := Result.bind_eq_ok.1 h
          exact .step free (ih h)
        · exact .step free (ih h)

theorem attachLevel_pushes (h : j.attachLevel s parent = .ok (s', rows)) : s.Pushes s' := by
  rw [attachLevel] at h
  split at h
  · split at h
    · exact attachEntity_pushes h
    · exact attachSegments_pushes h
  · cases h

mutual

theorem attach_pushes {j : Join E} {s s' : Joining E} {parent : Entry E}
    (h : attach s parent j = .ok s') : s.Pushes s' := by
  match j with
  | ⟨table, alias?, operator, fieldJoin?, fieldReference?, entity?, conditions, nested⟩ =>
    rw [attach] at h
    obtain ⟨⟨here, rows⟩, hl, h⟩ := Result.bind_eq_ok.1 h
    exact (attachLevel_pushes hl).trans (attachAll_pushes h)

/-- However joins are nested, attaching them comes to pushing nodes. -/
theorem attachAll_pushes {js : List (Join E)} {s s' : Joining E} {parent : Entry E}
    (h : attachAll s parent js = .ok s') : s.Pushes s' := by
  match js with
  | [] =>
    obtain rfl := Except.ok.inj h
    exact .refl s
  | j :: js =>
    rw [attachAll] at h
    obtain ⟨s₁, hj, h⟩ := Result.bind_eq_ok.1 h
    exact (attach_pushes hj).trans (attachAll_pushes h)

end

end Join

/-! ## The scope of a level -/

/-- Sub queries inherit all names but that of the root, which they lose if it is the root's. -/
theorem Scope.lookup_inherited (s : Scope E) (name : String) :
    s.inherited.lookup name =
      if name = Schema.acronym s.root ∧
          (s.entry? name).map Entry.origin = some s.rootEntry.origin then none
      else s.entry? name := by
  have hinherited : s.inherited.lookup name =
      if (s.entry? (Schema.acronym s.root)).map Entry.origin = some s.rootEntry.origin then
        if name = Schema.acronym s.root then none else s.entry? name
      else s.entry? name := by
    rw [inherited]
    split
    · exact lookup_filter_ne (Schema.acronym s.root) s.entries name
    · rfl
  rw [hinherited]
  by_cases hname : name = Schema.acronym s.root
  · subst hname
    simp
  · simp [hname]

/-- A scope says what is read off the levels. -/
structure Scope.ReadsOff (s : Scope E) (l : Level E) (outer : List (Level E)) : Prop where
  depth : s.depth = outer.length
  root : s.root = l.root
  parentRoot : s.parentRoot? = parentRows? outer
  entry? : ∀ name, s.entry? name = visible? name l outer

namespace Scope

variable {s around : Scope E} {l : Level E} {outer : List (Level E)} {name : String}

theorem ReadsOff.rootEntry (h : s.ReadsOff l outer) : s.rootEntry = l.rootRows outer := by
  rw [Scope.rootEntry, h.depth, h.root, Level.rootRows]

/-- The join of a level is no root, so its name is inherited even if it is that of the root. -/
theorem ReadsOff.lookup_inherited (h : s.ReadsOff l outer) :
    s.inherited.lookup name = unhiddenJoin? name (l :: outer) := by
  rw [Scope.lookup_inherited, h.entry?, h.rootEntry, h.root, visible?, unhiddenJoin?]
  cases hj : l.join? outer.length name with
  | some e =>
    have horigin : e.origin ≠ (l.rootRows outer).origin := by
      obtain ⟨i, hi⟩ := Level.origin_of_join? hj
      simp [hi, Level.rootRows]
    simp [horigin]
  | none =>
    by_cases hname : Schema.acronym l.root = name
    · simp [hname]
    · simp [hname, Ne.symm hname]

/-- In a sub query a name stands for its root, or else for a join further out that is not hidden. -/
theorem ReadsOff.entry?_child (h : s.ReadsOff l outer) (root : E) :
    Scope.entry? (s.child root) name =
      if Schema.acronym root = name then some ⟨⟨outer.length + 1, .root⟩, root⟩
      else unhiddenJoin? name (l :: outer) := by
  rw [Scope.entry?, child, lookup_cons_eq_ite, h.lookup_inherited, h.depth]
  exact if_congr eq_comm rfl rfl

theorem entry?_ofRoot (root : E) :
    Scope.entry? (ofRoot root) name =
      if Schema.acronym root = name then some ⟨⟨0, .root⟩, root⟩ else none := by
  rw [Scope.entry?, ofRoot, lookup_cons_eq_ite, List.lookup_nil]
  exact if_congr eq_comm rfl rfl

end Scope

/-- Once the joins are attached to a scope that knows the root, it reads off the level. -/
theorem Joining.Over.readsOff {base : Scope E} {s : Joining E} {root : E}
    {outer : List (Level E)} (h : Over base s) (hdepth : base.depth = outer.length)
    (hroot : base.root = root) (hparent : base.parentRoot? = parentRows? outer)
    (hentry : ∀ name, base.entry? name =
      if Schema.acronym root = name then some ⟨⟨outer.length, .root⟩, root⟩
      else unhiddenJoin? name outer) :
    s.scope.ReadsOff ⟨root, s.nodes⟩ outer where
  depth := h.depth.trans hdepth
  root := h.root.trans hroot
  parentRoot := h.parentRoot.trans hparent
  entry? name := by
    rw [h.entry?, hentry, visible?, s.taken?_eq_join? root, h.depth, hdepth]
    rfl

namespace Scope.Nested

/-- A level without joins. -/
theorem bare {outer : List (Level E)} {around : Scope E} (h : Nested outer around) (root : E) :
    Nested (⟨root, []⟩ :: outer) (around.child root) := by
  have hnone : Join.attachAll ⟨[], around.child root⟩ (around.child root).rootEntry [] =
      .ok ⟨[], around.child root⟩ := rfl
  exact h.inner hnone

/-- The scope in which the parts of a draft's graph are compiled is that of one level. -/
theorem outermost_of_compiled {purpose : Purpose} {known : Scope E} {o : Outline E}
    {conditions : List (GraphClause E)} {q : GraphQuery E}
    (h : GraphQuery.Compiled purpose (ofRoot o.root) known o conditions q) :
    Nested [q.plan.level] known := by
  rw [Plan.level, h.root]
  exact .outermost h.joins

/-- The scope in which the parts of a sub query's graph are compiled is that of its level inside
the levels around it. -/
theorem inner_of_compiled {outer : List (Level E)} {around known : Scope E} {purpose : Purpose}
    {o : Outline E} {conditions : List (GraphClause E)} {q : GraphQuery E}
    (ha : Nested outer around)
    (h : GraphQuery.Compiled purpose (around.child o.root) known o conditions q) :
    Nested (q.plan.level :: outer) known := by
  rw [Plan.level, h.root]
  exact .inner ha h.joins

variable {s : Scope E} {l : Level E} {outer levels : List (Level E)} {name : String}

/-- The scope of nested levels says what is read off them. -/
theorem readsOff (h : Nested (l :: outer) s) : s.ReadsOff l outer := by
  generalize hlevels : l :: outer = levels at h
  induction h generalizing l outer with
  | @outermost root js s h =>
    obtain ⟨rfl, rfl⟩ := List.cons.inj hlevels
    exact ((Join.attachAll_pushes h).over (Joining.over_start _)).readsOff rfl rfl rfl
      fun _ => entry?_ofRoot root
  | @inner outer' around root js s ha h ih =>
    obtain ⟨rfl, rfl⟩ := List.cons.inj hlevels
    cases outer with
    | nil => cases ha
    | cons l' outer =>
      have hr := ih rfl
      refine ((Join.attachAll_pushes h).over (Joining.over_start _)).readsOff ?_ rfl ?_
        fun _ => hr.entry?_child root
      · exact congrArg (· + 1) hr.depth
      · exact congrArg some hr.rootEntry

end Scope.Nested

/-! ## Hidden joins -/

section Hidden

variable {name : String} {l : Level E} {outer : List (Level E)}

/-- A join is hidden by the root of the nearest level, or behind it. -/
theorem hidesJoin_cons : HidesJoin name (l :: outer) ↔ name ∉ l.names ∧
    (Schema.acronym l.root = name ∧ (∃ m ∈ outer, name ∈ m.names) ∨ HidesJoin name outer) := by
  constructor
  · rintro ⟨between, m, rest, hsplit, hroot, hnone, hrest⟩
    cases between with
    | nil =>
      obtain ⟨rfl, rfl⟩ := List.cons.inj hsplit
      exact ⟨hnone l (by simp), .inl ⟨hroot, hrest⟩⟩
    | cons l' between =>
      obtain ⟨rfl, rfl⟩ := List.cons.inj hsplit
      refine ⟨hnone l (by simp), .inr ⟨between, m, rest, rfl, hroot, fun k hk => ?_, hrest⟩⟩
      exact hnone k (List.mem_cons_of_mem l hk)
  · rintro ⟨hl, ⟨hroot, hrest⟩ | ⟨between, m, rest, rfl, hroot, hnone, hrest⟩⟩
    · exact ⟨[], l, outer, rfl, hroot, by simpa using hl, hrest⟩
    · refine ⟨l :: between, m, rest, rfl, hroot, ?_, hrest⟩
      exact List.forall_mem_cons.2 ⟨hl, hnone⟩

/-- Something has to be hidden. -/
theorem HidesJoin.exists (h : HidesJoin name outer) : ∃ m ∈ outer, name ∈ m.names := by
  obtain ⟨between, l, rest, rfl, -, -, m, hm, hmem⟩ := h
  exact ⟨m, by simp [hm], hmem⟩

/-- A root in between is all that can keep the nearest join from being seen. -/
theorem unhiddenJoin?_eq_nearestJoin?_iff :
    unhiddenJoin? name outer = nearestJoin? name outer ↔ ¬HidesJoin name outer := by
  induction outer with
  | nil => simp [unhiddenJoin?, nearestJoin?, HidesJoin]
  | cons l outer ih =>
    rw [hidesJoin_cons, unhiddenJoin?, nearestJoin?]
    cases hj : l.join? outer.length name with
    | some e =>
      simp [Level.mem_names_of_join? hj]
    | none =>
      have hl := Level.join?_eq_none.1 hj
      by_cases hroot : Schema.acronym l.root = name
      · rw [if_pos hroot, Option.none_or, Option.none_or, eq_comm, nearestJoin?_eq_none]
        constructor
        · rintro hnone ⟨-, h⟩
          obtain ⟨m, hm, hmem⟩ := h.elim And.right HidesJoin.exists
          exact hnone m hm hmem
        · intro h m hm hmem
          exact h ⟨hl, .inl ⟨hroot, m, hm, hmem⟩⟩
      · simp [hroot, hl, ih]

theorem unhiddenJoin?_eq_none_of_hidesJoin (h : HidesJoin name outer) :
    unhiddenJoin? name outer = none := by
  induction outer with
  | nil => rfl
  | cons l outer ih =>
    obtain ⟨hl, ⟨hroot, -⟩ | h⟩ := hidesJoin_cons.1 h
    · simp [unhiddenJoin?, Level.join?_eq_none.2 hl, hroot]
    · simp [unhiddenJoin?, Level.join?_eq_none.2 hl, ih h]

end Hidden

/-! ## Resolution -/

/-- A name is hidden from a level that has no rows of that name itself if the nearest join of that
name is outside of a root of that name. -/
def Hidden (name : String) (l : Level E) (outer : List (Level E)) : Prop :=
  name ∉ l.names ∧ Schema.acronym l.root ≠ name ∧ HidesJoin name outer

/-- Names are scoped lexically except for those that are hidden. -/
theorem visible?_eq_lexical?_iff {name : String} {l : Level E} {outer : List (Level E)} :
    visible? name l outer = lexical? name l outer ↔ ¬Hidden name l outer := by
  rw [visible?, lexical?, Hidden]
  cases hj : l.join? outer.length name with
  | some e =>
    simp [Level.mem_names_of_join? hj]
  | none =>
    have hl := Level.join?_eq_none.1 hj
    by_cases hroot : Schema.acronym l.root = name
    · simp [hroot]
    · simp [hroot, hl, unhiddenJoin?_eq_nearestJoin?_iff]

/-- A hidden name stands for nothing. -/
theorem visible?_eq_none_of_hidden {name : String} {l : Level E} {outer : List (Level E)}
    (h : Hidden name l outer) : visible? name l outer = none := by
  obtain ⟨hl, hroot, hhides⟩ := h
  simp [visible?, Level.join?_eq_none.2 hl, hroot, unhiddenJoin?_eq_none_of_hidesJoin hhides]

/-- Further out only joins are seen, and no roots. -/
theorem unhiddenJoin?_node {name : String} {outer : List (Level E)} {e : Entry E}
    (h : unhiddenJoin? name outer = some e) : e.origin.node ≠ .root := by
  induction outer with
  | nil => cases h
  | cons l outer ih =>
    rw [unhiddenJoin?, Option.or_eq_some_iff] at h
    obtain hj | ⟨-, h⟩ := h
    · obtain ⟨i, hi⟩ := Level.origin_of_join? hj
      simp [hi]
    · split at h
      · cases h
      · exact ih h

/-- Further out means at a smaller depth. -/
theorem unhiddenJoin?_depth_lt {name : String} {outer : List (Level E)} {e : Entry E}
    (h : unhiddenJoin? name outer = some e) : e.origin.depth < outer.length := by
  induction outer with
  | nil => cases h
  | cons l outer ih =>
    rw [List.length_cons]
    rw [unhiddenJoin?, Option.or_eq_some_iff] at h
    obtain hj | ⟨-, h⟩ := h
    · obtain ⟨i, hi⟩ := Level.origin_of_join? hj
      rw [hi]
      exact Nat.lt_succ_self outer.length
    · split at h
      · cases h
      · exact Nat.lt_succ_of_lt (ih h)

theorem eq_rootRows_of_visible? {name : String} {l : Level E} {outer : List (Level E)}
    {e : Entry E} (h : visible? name l outer = some e) (hroot : e.origin.node = .root) :
    e = l.rootRows outer := by
  rw [visible?, Option.or_eq_some_iff] at h
  obtain hj | ⟨-, h⟩ := h
  · obtain ⟨i, hi⟩ := Level.origin_of_join? hj
    simp [hi] at hroot
  · split at h
    · exact (Option.some.inj h).symm
    · exact absurd hroot (unhiddenJoin?_node h)

namespace Scope

/-- A field that starts with a name is looked up behind it, and any other on the default. -/
theorem resolveFrom_of_name {s : Scope E} {default : Entry E} {field name rest : String}
    (h : Text.splitFirst? '.' field = some (name, rest)) :
    s.resolveFrom default field =
      ((s.entry? name).map fun e => e.resolve rest).getD (default.resolve field) := by
  simp only [resolveFrom, h]
  cases s.entry? name <;> rfl

/-- What a name stands for in nested queries: exactly the names that are not hidden are looked up
lexically, none stands for the root of an enclosing level, and a field whose first segment stands
for nothing starts at the default root. -/
theorem Nested.lookup_lexical {s : Scope E} {l : Level E} {outer : List (Level E)}
    (h : Nested (l :: outer) s) (name : String) :
    (s.entry? name = lexical? name l outer ↔ ¬Hidden name l outer) ∧
    (Hidden name l outer → s.entry? name = none) ∧
    (∀ e, s.entry? name = some e → e.origin.node = .root → e = l.rootRows outer) ∧
    ∀ field rest, Text.splitFirst? '.' field = some (name, rest) →
      s.resolve field = ((s.entry? name).map fun e => e.resolve rest).getD
        ((l.rootRows outer).resolve field) ∧
      s.resolveOuter field = ((s.entry? name).map fun e => e.resolve rest).getD
        (((parentRows? outer).getD (l.rootRows outer)).resolve field) := by
  have hr := h.readsOff
  refine ⟨?_, ?_, ?_, ?_⟩
  · rw [hr.entry?]
    exact visible?_eq_lexical?_iff
  · intro hhidden
    rw [hr.entry?]
    exact visible?_eq_none_of_hidden hhidden
  · intro e he hroot
    rw [hr.entry?] at he
    exact eq_rootRows_of_visible? he hroot
  · intro field rest hfield
    rw [resolve, resolveOuter, resolveFrom_of_name hfield, resolveFrom_of_name hfield,
      hr.rootEntry, hr.parentRoot]
    exact ⟨rfl, rfl⟩

end Scope

/-! ## A root that hides a join -/

namespace Kennel

def ownerAs (name : String) : Join Kennel := { Join.ofTable "owner" with alias? := some name }

/-- The levels of a query for the dogs of an owner of a dog, the innermost first. -/
def dogsOfOwner (name : String) : List (Level Kennel) :=
  [⟨dog, []⟩, ⟨owner, []⟩, ⟨dog, [⟨.root, "owner", owner, name, .inner, .relation, none⟩]⟩]

/-- The scope of the innermost of these levels. -/
def dogsOfOwnerScope (name : String) : Scope Kennel :=
  (((Scope.ofRoot dog).register name ⟨⟨0, .join 0⟩, owner⟩).child owner).child dog

theorem attachAll_ownerAs (name : String) :
    Join.attachAll ⟨[], .ofRoot dog⟩ (Scope.ofRoot dog).rootEntry [ownerAs name] =
      .ok ⟨[⟨.root, "owner", owner, name, .inner, .relation, none⟩],
        (Scope.ofRoot dog).register name ⟨⟨0, .join 0⟩, owner⟩⟩ := by
  have hsplit : Text.split '.' "owner" = ["owner"] := by decide
  have hpath : (ownerAs name).hasPath := by
    rw [Join.hasPath, ownerAs, Join.ofTable, hsplit]
    decide
  have hlevel : (ownerAs name).attachLevel ⟨[], .ofRoot dog⟩ (Scope.ofRoot dog).rootEntry =
      .ok (⟨[⟨.root, "owner", owner, name, .inner, .relation, none⟩],
        (Scope.ofRoot dog).register name ⟨⟨0, .join 0⟩, owner⟩⟩, ⟨⟨0, .join 0⟩, owner⟩) := by
    rw [Join.attachLevel, if_pos hpath]
    change (ownerAs name).attachSegments _ _ (Text.split '.' "owner") = _
    rw [hsplit]
    rfl
  rw [Join.attachAll, ownerAs, Join.ofTable, Join.attach]
  change (Join.attachLevel (ownerAs name) _ _ >>= _) >>= _ = _
  rw [hlevel]
  rfl

theorem nested_dogsOfOwner (name : String) :
    Scope.Nested (dogsOfOwner name) (dogsOfOwnerScope name) :=
  ((Scope.Nested.outermost (attachAll_ownerAs name)).bare owner).bare dog

/-- An alias that no entity between is named like is found two levels further in. -/
theorem lookup_lexical_owner : Scope.Nested (dogsOfOwner "o") (dogsOfOwnerScope "o") ∧
    Scope.entry? (dogsOfOwnerScope "o") "o" = some ⟨⟨0, .join 0⟩, owner⟩ ∧
    (dogsOfOwnerScope "o").resolve "o.name" = .ok ⟨⟨0, .join 0⟩, ["name"], some .string⟩ := by
  have h := (nested_dogsOfOwner "o").lookup_lexical "o"
  have hseen : ¬Hidden "o" ⟨dog, []⟩ (dogsOfOwner "o").tail := by
    rintro ⟨-, -, hhides⟩
    obtain ⟨-, ⟨hroot, -⟩ | hhides⟩ := hidesJoin_cons.1 hhides
    · exact absurd hroot (by decide)
    · exact (hidesJoin_cons.1 hhides).1 (by decide)
  have hentry : Scope.entry? (dogsOfOwnerScope "o") "o" = some ⟨⟨0, .join 0⟩, owner⟩ := h.1.2 hseen
  refine ⟨nested_dogsOfOwner "o", hentry, ?_⟩
  rw [(h.2.2.2 "o.name" "name" (by decide)).1, hentry]
  decide

/-- The owner of the outermost dog is not the `owner` of the innermost query, although no join in
between is called so: the query for owners hid it. -/
theorem not_lookup_lexical_owner : Scope.Nested (dogsOfOwner "owner") (dogsOfOwnerScope "owner") ∧
    lexical? "owner" ⟨dog, []⟩ (dogsOfOwner "owner").tail = some ⟨⟨0, .join 0⟩, owner⟩ ∧
    Scope.entry? (dogsOfOwnerScope "owner") "owner" = none ∧
    (dogsOfOwnerScope "owner").resolve "owner.name" =
      .ok ⟨⟨2, .root⟩, ["owner", "name"], some .string⟩ :=
  ⟨nested_dogsOfOwner "owner", rfl, by decide +kernel, by decide +kernel⟩

end Kennel

end EntityQuery
