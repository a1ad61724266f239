import EntityQuery.GraphQuery.Scope
import EntityQuery.Proofs.GraphQuery.WellFormed
import EntityQuery.Proofs.Success

/-! # Valid scopes

Every name of a valid scope stands for rows that are there, and a field that resolves in it becomes
a well-formed path. -/

namespace EntityQuery

variable {E : Type} {outer : List (Level E)} {l : Level E}

/-- The rows of an entry are there and have its entity. -/
def Entry.Valid (levels : List (Level E)) (e : Entry E) : Prop :=
  e.origin.entity? levels = some e.entity

/-- A scope for the level `l` inside the levels `outer`. -/
structure Scope.Valid (outer : List (Level E)) (l : Level E) (s : Scope E) : Prop where
  depth : s.depth = outer.length
  root : s.root = l.root
  entries : ∀ p ∈ s.entries, p.2.Valid (outer ++ [l])
  parentRoot : ∀ e ∈ s.parentRoot?, e.Valid (outer ++ [l])

namespace Scope.Valid

variable {s : Scope E}

/-- The root of a valid scope is at its own level. -/
theorem rootEntry (h : s.Valid outer l) : s.rootEntry.Valid (outer ++ [l]) := by
  rw [Entry.Valid, Scope.rootEntry, h.depth, h.root]
  exact Origin.entity?_last .root outer l

/-- A name in a valid scope stands for rows that are there. -/
theorem entry (h : s.Valid outer l) {name : String} {e : Entry E}
    (he : s.entry? name = some e) : e.Valid (outer ++ [l]) := by
  obtain ⟨before, after, hentries, -⟩ := List.lookup_eq_some_iff.1 he
  refine h.entries (name, e) ?_
  rw [hentries]
  exact List.mem_append_right before List.mem_cons_self

/-- More joins leave everything valid that was. -/
theorem joins {root : E} {joins : List (JoinNode E)} (h : s.Valid outer ⟨root, joins⟩)
    (more : List (JoinNode E)) : s.Valid outer ⟨root, joins ++ more⟩ where
  depth := h.depth
  root := h.root
  entries p hp := Origin.entity?_joins (h.entries p hp) more
  parentRoot e he := Origin.entity?_joins (h.parentRoot e he) more

/-- A scope stays valid if a name is registered for rows that are there. -/
theorem register (h : s.Valid outer l) {e : Entry E} (he : e.Valid (outer ++ [l]))
    (name : String) : (s.register name e).Valid outer l where
  depth := h.depth
  root := h.root
  entries := List.forall_mem_cons.2 ⟨he, h.entries⟩
  parentRoot := h.parentRoot

end Scope.Valid

variable [Schema E]

namespace Scope

theorem valid_ofRoot (root : E) : (ofRoot root).Valid [] ⟨root, []⟩ where
  depth := rfl
  root := rfl
  entries := List.forall_mem_singleton.2 rfl
  parentRoot := nofun

variable {s : Scope E}

theorem mem_of_mem_inherited {p : String × Entry E} (h : p ∈ s.inherited) : p ∈ s.entries := by
  rw [inherited] at h
  split at h
  · exact (List.mem_filter.1 h).1
  · exact h

/-- The scope of a sub query is one level deeper. -/
theorem Valid.child (h : s.Valid outer l) (root : E) :
    (s.child root).Valid (outer ++ [l]) ⟨root, []⟩ where
  depth := by
    rw [List.length_append, ← h.depth]
    rfl
  root := rfl
  entries := by
    refine List.forall_mem_cons.2 ⟨?_, fun p hp => ?_⟩
    · have hdepth : s.depth + 1 = (outer ++ [l]).length := by rw [List.length_append, h.depth]; rfl
      rw [Entry.Valid, hdepth]
      exact Origin.entity?_last .root (outer ++ [l]) ⟨root, []⟩
    · exact Origin.entity?_append (h.entries p (mem_of_mem_inherited hp)) _
  parentRoot e he := by
    rw [← Option.some.inj he]
    exact Origin.entity?_append h.rootEntry _

/-- A path that has a type follows the attributes of the schema. -/
theorem walks_of_typeAlong {e : E} {segments : List String} {type? : Option ScalarType}
    (h : typeAlong e segments = .ok type?) : Walks e segments type? := by
  induction segments generalizing e with
  | nil =>
    obtain rfl := Except.ok.inj h
    exact .rows e
  | cons segment rest ih =>
    rw [typeAlong] at h
    cases ha : Schema.attribute? e segment with
    | none =>
      rw [ha] at h
      exact absurd h nofun
    | some a =>
      obtain ⟨name, kind⟩ := a
      rw [ha] at h
      cases kind with
      | basic type nullable =>
        dsimp only at h
        split at h
        · rename_i hrest
          obtain rfl := List.isEmpty_iff.1 hrest
          obtain rfl := Except.ok.inj h
          exact .basic ha rfl
        · exact absurd h nofun
      | relation target many => exact .relationship ha rfl (ih h)

end Scope

/-- The schema gives the attribute at the end the type that the walk has. -/
theorem Walks.type?_follow? {e : E} {segments : List String} {type? : Option ScalarType}
    (h : Walks e segments type?) :
    (Schema.follow? e segments).bind Attribute.type? = type? := by
  induction h with
  | rows => rfl
  | basic ha ht =>
    rw [Schema.follow?, ha]
    exact ht
  | @relationship e target name a rest type? ha ht hr ih =>
    cases rest with
    | nil =>
      cases hr
      obtain ⟨name, kind⟩ := a
      cases kind with
      | basic type nullable => cases ht
      | relation target many =>
        rw [Schema.follow?, ha]
        rfl
    | cons next rest =>
      rw [Schema.follow?, ha, ← ih]
      · simp only [Option.bind_eq_bind, Option.bind_some, ht]
      · exact List.cons_ne_nil next rest

variable {levels : List (Level E)} {p : Path} {field : String}

/-- A field of rows is resolved to the segments it is written with and the type in the schema. -/
theorem Entry.eq_of_resolve {entry : Entry E} (h : entry.resolve field = .ok p) :
    p = ⟨entry.origin, Text.split '.' field,
      (Schema.resolvePath? entry.entity field).bind Attribute.type?⟩ := by
  rw [Entry.resolve] at h
  split at h
  · cases h
  · obtain ⟨type?, ht, rfl⟩ := Result.map_eq_ok.1 h
    rw [Schema.resolvePath?, (Scope.walks_of_typeAlong ht).type?_follow?]

/-- A path from rows that are there is well formed. -/
theorem Entry.Valid.resolve {entry : Entry E} (h : entry.Valid levels)
    (hp : entry.resolve field = .ok p) : p.WellFormed levels := by
  rw [Entry.resolve] at hp
  split at hp
  · exact absurd hp nofun
  · obtain ⟨type?, ht, rfl⟩ := Result.map_eq_ok.1 hp
    exact ⟨entry.entity, h, Scope.walks_of_typeAlong ht⟩

theorem Path.wellFormed_ofOrigin {entry : Entry E} (h : entry.Valid levels) :
    (Path.ofOrigin entry.origin).WellFormed levels :=
  ⟨entry.entity, h, .rows entry.entity⟩

namespace Scope.Valid

variable {s : Scope E}

theorem resolveFrom (h : s.Valid outer l) {default : Entry E}
    (hd : default.Valid (outer ++ [l])) (hp : s.resolveFrom default field = .ok p) :
    p.WellFormed (outer ++ [l]) := by
  rw [Scope.resolveFrom] at hp
  split at hp
  · exact hd.resolve hp
  · split at hp
    · rename_i he
      exact (h.entry he).resolve hp
    · exact hd.resolve hp

/-- What a valid scope resolves is well formed. -/
theorem resolve (h : s.Valid outer l) (hp : s.resolve field = .ok p) :
    p.WellFormed (outer ++ [l]) :=
  h.resolveFrom h.rootEntry hp

theorem resolveOuter (h : s.Valid outer l) (hp : s.resolveOuter field = .ok p) :
    p.WellFormed (outer ++ [l]) := by
  refine h.resolveFrom ?_ hp
  cases hr : s.parentRoot? with
  | none => exact h.rootEntry
  | some e => exact h.parentRoot e hr

theorem rootPath (h : s.Valid outer l) : s.rootPath.WellFormed (outer ++ [l]) :=
  Path.wellFormed_ofOrigin h.rootEntry

theorem rows (h : s.Valid outer l) {name : String} (hp : s.rows? name = some p) :
    p.WellFormed (outer ++ [l]) := by
  obtain ⟨e, he, rfl⟩ := Option.map_eq_some_iff.1 hp
  exact Path.wellFormed_ofOrigin (h.entry he)

end Scope.Valid

end EntityQuery
