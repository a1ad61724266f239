import EntityQuery.Clause.Call
import EntityQuery.Clause.Join
import EntityQuery.Clause.Select

/-! # Drafts of queries

A draft collects what is asked of the rows of an entity.  Its sub queries are drafts themselves. -/

namespace EntityQuery

variable {E κ : Type}

/-- Everything about a draft but its conditions. -/
structure Outline (E : Type) where
  root : E
  joins : List (Join E) := []
  fetches : List JoinFetch := []
  selects : List Select := []
  orders : List Order := []
  groups : List String := []
  limit? : Option Nat := none
  offset? : Option Nat := none
  /-- The name of the root in a text query, if it is not the name of the entity. -/
  acronym? : Option String := none
  /-- The type of the only column, for a draft that is compared with as a sub query. -/
  resultType? : Option ScalarType := none

/-- A query before it is compiled: its outline, and its conditions as a tree in which sub queries
are drafts again. -/
structure Draft (E κ : Type) where
  outline : Outline E
  conditions : List (Clause (Draft E κ) κ) := []

/-- What a draft is compiled for: its rows, their number, or the one column of a sub query. -/
inductive Purpose where
  | rows
  | count
  | column
deriving DecidableEq, Repr

namespace Draft

def ofRoot (root : E) : Draft E κ := { outline := { root := root } }

/-- Only the outline changes; the conditions stay. -/
def mapOutline (f : Outline E → Outline E) (d : Draft E κ) : Draft E κ :=
  { d with outline := f d.outline }

/-- Adds the conditions of a call; a draft attaches with AND. -/
def filter (d : Draft E κ) (call : Call (Draft E κ) κ) : Draft E κ :=
  { d with conditions := d.conditions ++ call.clauses .and }

def join (d : Draft E κ) (j : Join E) : Draft E κ :=
  d.mapOutline fun o => { o with joins := o.joins ++ [j] }

def fetch (d : Draft E κ) (f : JoinFetch) : Draft E κ :=
  d.mapOutline fun o => { o with fetches := o.fetches ++ [f] }

/-- More selections go behind those the draft has. -/
def select (d : Draft E κ) (selects : List Select) : Draft E κ :=
  d.mapOutline fun o => { o with selects := o.selects ++ selects }

/-- Selects these fields and nothing else. -/
def selectOnly (d : Draft E κ) (selects : List Select) : Draft E κ :=
  d.mapOutline fun o => { o with selects := selects }

/-- More orders go behind those the draft has, so the first one decides. -/
def orderBy (d : Draft E κ) (orders : List Order) : Draft E κ :=
  d.mapOutline fun o => { o with orders := o.orders ++ orders }

def groupBy (d : Draft E κ) (fields : List String) : Draft E κ :=
  d.mapOutline fun o => { o with groups := o.groups ++ fields }

/-- A later limit replaces an earlier one. -/
def limit (d : Draft E κ) (n : Nat) : Draft E κ :=
  d.mapOutline fun o => { o with limit? := some n }

def offset (d : Draft E κ) (n : Nat) : Draft E κ :=
  d.mapOutline fun o => { o with offset? := some n }

/-- The root is called by this acronym instead of that of its entity. -/
def called (d : Draft E κ) (acronym : String) : Draft E κ :=
  d.mapOutline fun o => { o with acronym? := some acronym }

/-- The type of the one column that a sub query selects. -/
def withResultType (d : Draft E κ) (type : ScalarType) : Draft E κ :=
  d.mapOutline fun o => { o with resultType? := some type }

/-- The type of the attribute that is selected first; a 64-bit integer if it is no attribute. -/
def inferredType [Schema E] (d : Draft E κ) : ScalarType :=
  match d.outline.selects.head? with
  | none => .integer .long
  | some s =>
    ((Schema.resolvePath? d.outline.root s.field).bind Attribute.type?).getD (.integer .long)

/-- The draft with the type of its column, inferred if it was not given. -/
def withInferredType [Schema E] (d : Draft E κ) : Draft E κ :=
  match d.outline.resultType? with
  | some _ => d
  | none => d.withResultType d.inferredType

end Draft

end EntityQuery
