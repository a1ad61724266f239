import EntityQuery.Error
import EntityQuery.GraphQuery.Path
import EntityQuery.Schema

/-! # Scopes

A scope says what the names in a query stand for.  The root is known by its entity's name in
lowercase.  A sub query sees the joins of the queries around it, but not their roots. -/

namespace EntityQuery

variable {E : Type}

/-- Rows together with their entity. -/
structure Entry (E : Type) where
  origin : Origin
  entity : E

/-- The names of a scope stand for what they were given to last. -/
structure Scope (E : Type) where
  depth : Nat
  root : E
  entries : List (String × Entry E)
  /-- The root of the query around this one. -/
  parentRoot? : Option (Entry E)

namespace Scope

/-- The rows of the root of the query itself. -/
def rootEntry (s : Scope E) : Entry E := ⟨⟨s.depth, .root⟩, s.root⟩

/-- The rows that a name stands for; the name that was registered last is the first to be found. -/
def entry? (s : Scope E) (name : String) : Option (Entry E) := s.entries.lookup name

/-- The name stands for these rows from now on. -/
def register (s : Scope E) (name : String) (entry : Entry E) : Scope E :=
  { s with entries := (name, entry) :: s.entries }

/-- The path of the whole root. -/
def rootPath (s : Scope E) : Path := .ofOrigin s.rootEntry.origin

/-- The path of the root of the query around, if there is one. -/
def parentRootPath? (s : Scope E) : Option Path := s.parentRoot?.map fun e => .ofOrigin e.origin

/-- The rows that a name stands for. -/
def rows? (s : Scope E) (name : String) : Option Path :=
  (s.entry? name).map fun e => .ofOrigin e.origin

variable [Schema E]

/-- The scope of an outermost query, which knows its root by the acronym of its entity. -/
def ofRoot (root : E) : Scope E :=
  ⟨0, root, [(Schema.acronym root, ⟨⟨0, .root⟩, root⟩)], none⟩

/-- The names that sub queries inherit: all but that of the root, if it still stands for it. -/
def inherited (s : Scope E) : List (String × Entry E) :=
  let name := Schema.acronym s.root
  if (s.entry? name).map Entry.origin = some s.rootEntry.origin then
    s.entries.filter fun p => p.1 ≠ name
  else s.entries

/-- The scope of a sub query over `root`. -/
def child (s : Scope E) (root : E) : Scope E :=
  let depth := s.depth + 1
  ⟨depth, root, (Schema.acronym root, ⟨⟨depth, .root⟩, root⟩) :: s.inherited, some s.rootEntry⟩

/-- The type at the end of attributes that are followed from an entity. -/
def typeAlong (e : E) : List String → Result (Option ScalarType)
  | [] => .ok none
  | segment :: rest =>
    match Schema.attribute? e segment with
    | none => .error (.attributeMissing segment (Schema.name e))
    | some a =>
      match a.kind with
      | .basic type _ =>
        if rest.isEmpty then .ok (some type)
        else .error (.notARelationship segment (Schema.name e))
      | .relation target _ => typeAlong target rest

end Scope

/-- The path of a field of these rows. -/
def Entry.resolve [Schema E] (entry : Entry E) (field : String) : Result Path :=
  if field = "" then .error (.pathEmpty (Schema.name entry.entity))
  else
    let segments := Text.split '.' field
    (Scope.typeAlong entry.entity segments).map fun type? => ⟨entry.origin, segments, type?⟩

namespace Scope

variable [Schema E]

/-- The path of a field.  One that starts with a name is a field of what the name stands for, and
every other one a field of `default`. -/
def resolveFrom (s : Scope E) (default : Entry E) (field : String) : Result Path :=
  match Text.splitFirst? '.' field with
  | none => default.resolve field
  | some (head, rest) =>
    match s.entry? head with
    | some entry => entry.resolve rest
    | none => default.resolve field

/-- A field that does not start with a name is one of the root. -/
def resolve (s : Scope E) (field : String) : Result Path := s.resolveFrom s.rootEntry field

/-- Fields without a name are those of the query around this one, if there is one. -/
def resolveOuter (s : Scope E) (field : String) : Result Path :=
  s.resolveFrom (s.parentRoot?.getD s.rootEntry) field

end Scope

end EntityQuery
