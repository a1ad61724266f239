import EntityQuery.GraphQuery.Join
import EntityQuery.GraphQuery.Select
import EntityQuery.Proofs.Kennel
import EntityQuery.Proofs.Success

/-! # What selections denote

A selected field names the root, the rows that a name stands for, or a path.  It is translated to
what it names, and refused if it names nothing, unless it has a `*` of no meaning: a field with such
a star is translated to the root, whatever else it says (`Select.expression_denotes`). -/

namespace EntityQuery

namespace Text

/-- The first separator is where it is put. -/
theorem cut?_append {sep : Char} {cs : List Char} (h : sep ∉ cs) (rest : List Char) :
    cut? sep (cs ++ sep :: rest) = some (cs, rest) := by
  induction cs with
  | nil => simp [cut?]
  | cons c cs ih =>
    rw [List.mem_cons, not_or] at h
    simp [cut?, Ne.symm h.1, ih h.2]

theorem splitFirst?_append {sep : Char} {first : String} (h : sep ∉ first.toList)
    {rest : List Char} {s : String} (hs : s.toList = first.toList ++ sep :: rest) :
    splitFirst? sep s = some (first, String.ofList rest) := by
  rw [splitFirst?, hs, cut?_append h, Option.map_some, String.ofList_toList]

end Text

/-- A star by itself has no name in front. -/
theorem Select.root_ne_rows (name : String) : "*" ≠ name ++ ".*" := by
  intro h
  have hlength : (name ++ ".*").length = 1 := by rw [← h]; decide
  rw [String.length_append] at hlength
  have htwo : ".*".length = 2 := by decide
  omega

variable {E : Type} [Schema E]

/-! ## Fields that cannot be resolved -/

theorem Scope.kind_of_typeAlong_error {e : E} {segments : List String} {error : Error}
    (h : typeAlong e segments = .error error) : error.kind = .query := by
  induction segments generalizing e with
  | nil => cases h
  | cons segment rest ih =>
    rw [typeAlong] at h
    split at h
    · cases h
      rfl
    · split at h
      · split at h
        · cases h
        · cases h
          rfl
      · exact ih h

/-- A path that cannot be resolved is an error of the query. -/
theorem Entry.kind_of_resolve_error {entry : Entry E} {field : String} {error : Error}
    (h : entry.resolve field = .error error) : error.kind = .query := by
  rw [resolve] at h
  split at h
  · cases h
    rfl
  · cases htype : Scope.typeAlong entry.entity (Text.split '.' field) with
    | ok type? => simp [htype, Except.map] at h
    | error error' =>
      have hkind := Scope.kind_of_typeAlong_error htype
      simp only [htype, Except.map, Except.error.injEq] at h
      rwa [← h]

/-- A field that has no path is an error in the query. -/
theorem Scope.kind_of_resolve_error {scope : Scope E} {field : String} {error : Error}
    (h : scope.resolve field = .error error) : error.kind = .query := by
  rw [resolve, resolveFrom] at h
  split at h
  · exact Entry.kind_of_resolve_error h
  · split at h <;> exact Entry.kind_of_resolve_error h

namespace Select

/-! ## Names and stars -/

/-- What a selected field names: the root, the rows of a name, or else its path. -/
inductive Denotes (scope : Scope E) : String → Path → Prop where
  | root : Denotes scope "*" scope.rootPath
  | rows {name : String} {entry : Entry E} (h : scope.entry? name = some entry) :
      Denotes scope (name ++ ".*") (.ofOrigin entry.origin)
  | path {field : String} {p : Path} (hroot : field ≠ "*") (hrows : ∀ name, field ≠ name ++ ".*")
      (h : scope.resolve field = .ok p) : Denotes scope field p

/-- The field has a `*` but is neither the root nor the rows of a name, which has no points. -/
def HasStrayStar (field : String) : Prop :=
  '*' ∈ field.toList ∧ field ≠ "*" ∧ ∀ name : String, '.' ∉ name.toList → field ≠ name ++ ".*"

/-- The function of a selection applied to a path. -/
def applied (s : Select) (p : Path) : Expression :=
  match s.function? with
  | some f => .aggregate f (.path p)
  | none => .path p

theorem expression_eq (s : Select) (scope : Scope E) :
    s.expression scope = (s.path scope).map s.applied := rfl

section Fields

variable {s : Select} {scope : Scope E}

theorem path_of_root (h : s.field = "*") : s.path scope = .ok scope.rootPath := by
  have hstar : s.field.toList.contains '*' := by rw [h]; decide
  have hpoint : '.' ∉ s.field.toList := by rw [h]; decide
  simp only [path, hstar, if_true, Text.splitFirst?_eq_none hpoint]

/-- A name with a star is looked up in the scope. -/
theorem path_of_rows {name : String} (hname : '.' ∉ name.toList) (h : s.field = name ++ ".*") :
    s.path scope =
      ((scope.entry? name).map fun e => Except.ok (Path.ofOrigin e.origin)).getD
        (.error (.selectAliasUnknown name)) := by
  have hlist : s.field.toList = name.toList ++ '.' :: ['*'] := by rw [h, String.toList_append]; rfl
  have hstar : s.field.toList.contains '*' := by simp [hlist]
  have hcut : Text.splitFirst? '.' s.field = some (name, "*") := Text.splitFirst?_append hname hlist
  simp only [path, hstar, if_true, hcut, Scope.rows?]
  cases scope.entry? name <;> rfl

theorem path_of_starless (h : '*' ∉ s.field.toList) : s.path scope = scope.resolve s.field := by
  have hstar : s.field.toList.contains '*' = false := by simpa using h
  simp only [path, hstar, Bool.false_eq_true, if_false]

/-- A star in any other place selects the root. -/
theorem path_of_strayStar (h : HasStrayStar s.field) : s.path scope = .ok scope.rootPath := by
  obtain ⟨hmem, hroot, hrows⟩ := h
  have hstar : s.field.toList.contains '*' := by simpa using hmem
  simp only [path, hstar, if_true]
  split
  · rename_i name hfirst
    obtain ⟨⟨a, b⟩, hcut, hpair⟩ := Option.map_eq_some_iff.1 hfirst
    obtain ⟨rfl, hb⟩ := Prod.mk.inj hpair
    obtain ⟨hlist, hpoint⟩ := Text.cut?_eq_some hcut
    refine absurd ?_ (hrows (String.ofList a) (by rwa [String.toList_ofList]))
    rw [← String.toList_inj, hlist, String.toList_append, String.toList_ofList]
    have hrest : b = ['*'] := by rw [← String.toList_ofList (l := b), hb]; rfl
    rw [hrest]
    rfl
  · rfl

/-- Apart from stray stars, a selection is taken from exactly what its field names. -/
theorem path_eq_ok_iff (h : ¬HasStrayStar s.field) {p : Path} :
    s.path scope = .ok p ↔ Denotes scope s.field p := by
  by_cases hroot : s.field = "*"
  · rw [path_of_root hroot, hroot, Except.ok.injEq]
    constructor
    · rintro rfl
      exact .root
    · intro hp
      generalize hfield : "*" = field at hp
      cases hp with
      | root => rfl
      | rows => exact absurd hfield (root_ne_rows _)
      | path hne => exact absurd hfield.symm hne
  · by_cases hrows : ∃ name : String, '.' ∉ name.toList ∧ s.field = name ++ ".*"
    · obtain ⟨name, hpoint, hname⟩ := hrows
      rw [path_of_rows hpoint hname, hname]
      constructor
      · intro hp
        cases hentry : scope.entry? name with
        | none => simp [hentry] at hp
        | some entry =>
          simp only [hentry, Option.map_some, Option.getD_some, Except.ok.injEq] at hp
          exact hp ▸ .rows hentry
      · intro hp
        generalize hfield : name ++ ".*" = field at hp
        cases hp with
        | root => exact absurd (hname.trans hfield) hroot
        | rows hentry =>
          obtain rfl := (String.append_left_inj _).1 hfield
          simp [hentry]
        | path _ hnone => exact absurd hfield.symm (hnone name)
    · have hstar : '*' ∉ s.field.toList := fun hmem =>
        h ⟨hmem, hroot, fun name hpoint hname => hrows ⟨name, hpoint, hname⟩⟩
      rw [path_of_starless hstar]
      constructor
      · refine .path hroot fun name hname => hstar ?_
        simp [hname]
      · intro hp
        generalize s.field = field at hp hstar
        cases hp with
        | root => exact absurd (by decide) hstar
        | rows => exact absurd (by simp) hstar
        | path _ _ hp => exact hp

/-- A selection that cannot be resolved is an error of the query. -/
theorem kind_of_path_error {error : Error} (h : s.path scope = .error error) :
    error.kind = .query := by
  rw [path] at h
  split at h
  · split at h
    · split at h
      · cases h
      · cases h
        rfl
    · cases h
  · exact Scope.kind_of_resolve_error h

end Fields

/-- A selection is its function applied to what its field names, and an error in the query if its
field names nothing.  A field with a stray star is taken for the root. -/
theorem expression_denotes (scope : Scope E) (s : Select) :
    (¬HasStrayStar s.field →
      (∀ e, s.expression scope = .ok e ↔ ∃ p, Denotes scope s.field p ∧ e = s.applied p) ∧
      ((∀ p, ¬Denotes scope s.field p) →
        ∃ error, s.expression scope = .error error ∧ error.kind = .query)) ∧
    (HasStrayStar s.field → s.expression scope = .ok (s.applied scope.rootPath)) := by
  refine ⟨fun h => ⟨fun e => ?_, fun hnone => ?_⟩, fun h => ?_⟩
  · rw [expression_eq, Result.map_eq_ok]
    constructor
    · rintro ⟨p, hp, rfl⟩
      exact ⟨p, (path_eq_ok_iff h).1 hp, rfl⟩
    · rintro ⟨p, hp, rfl⟩
      exact ⟨p, (path_eq_ok_iff h).2 hp, rfl⟩
  · cases hp : s.path scope with
    | ok p => exact absurd ((path_eq_ok_iff h).1 hp) (hnone p)
    | error error =>
      refine ⟨error, ?_, kind_of_path_error hp⟩
      rw [expression_eq, hp]
      rfl
  · rw [expression_eq, path_of_strayStar h]
    rfl

end Select

/-! ## Owners with the owners of their dogs -/

namespace Kennel

/-- The names in a query for owners that joins their dogs, and the owners of those. -/
def dogsAndTheirOwners : Result (Joining Kennel) :=
  Join.attachAll ⟨[], .ofRoot owner⟩ (Scope.ofRoot owner).rootEntry [Join.ofTable "dogs.owner"]

/-- Counting `dogs.*` counts the joined dogs. -/
theorem expression_denotes_of_dogs : ∃ js, dogsAndTheirOwners = .ok js ∧
    ¬Select.HasStrayStar "dogs.*" ∧
    Select.expression ⟨"dogs.*", none, some .count⟩ js.scope =
      .ok (.aggregate .count (.path (.ofOrigin ⟨0, .join 0⟩))) := by
  have hrun : dogsAndTheirOwners.map (fun js => (js.scope.entry? "dogs").map Entry.origin) =
      .ok (some ⟨0, .join 0⟩) := by
    decide +kernel
  obtain ⟨js, hjs, hdogs⟩ := Result.map_eq_ok.1 hrun
  obtain ⟨entry, hentry, horigin⟩ := Option.map_eq_some_iff.1 hdogs
  have hstar : ¬Select.HasStrayStar "dogs.*" := fun h => h.2.2 "dogs" (by decide) (by decide)
  refine ⟨js, hjs, hstar, ?_⟩
  refine (((Select.expression_denotes js.scope ⟨"dogs.*", none, some .count⟩).1 hstar).1 _).2 ?_
  exact ⟨_, horigin ▸ .rows hentry, rfl⟩

/-- `dogs.owner.*` has no meaning, and selects the owners that the query starts from. -/
theorem not_expression_denotes : ∃ js, dogsAndTheirOwners = .ok js ∧
    (Select.ofField "dogs.owner.*").expression js.scope = .ok (.path js.scope.rootPath) ∧
    (∀ p, ¬Select.Denotes js.scope "dogs.owner.*" p) ∧
    js.scope.resolve "dogs.owner.*" = .error (.attributeMissing "*" "Owner") := by
  have hrun : dogsAndTheirOwners.map (fun js => (js.scope.resolve "dogs.owner.*",
      js.scope.entry? "dogs.owner" |>.isNone)) =
      .ok (.error (.attributeMissing "*" "Owner"), true) := by
    decide +kernel
  obtain ⟨js, hjs, hrun⟩ := Result.map_eq_ok.1 hrun
  obtain ⟨hresolve, hnone⟩ := Prod.mk.inj hrun
  have hstray : Select.HasStrayStar "dogs.owner.*" := by
    refine ⟨by decide, by decide, fun name hpoint hname => ?_⟩
    obtain rfl : "dogs.owner" = name := (String.append_left_inj ".*").1 hname
    exact hpoint (by decide)
  refine ⟨js, hjs, ?_, fun p hp => ?_, hresolve⟩
  · rw [Select.expression_eq, Select.path_of_strayStar hstray]
    rfl
  · generalize hfield : "dogs.owner.*" = field at hp
    cases hp with
    | root => exact absurd hfield (by decide)
    | @rows name entry hentry =>
      obtain rfl : "dogs.owner" = name := (String.append_left_inj ".*").1 hfield
      simp [hentry] at hnone
    | path _ hrows => exact hrows "dogs.owner" (by rw [← hfield]; decide)

end Kennel

end EntityQuery
