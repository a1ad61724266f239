import EntityQuery.Scalar

/-! # Paths

A query ranges over the rows of its root and of its joins.  A path starts at such rows, of the
query itself or of one around it, and follows attributes. -/

namespace EntityQuery

/-- What rows a query ranges over: those of its root, or of one of its joins. -/
inductive Node where
  | root
  | join (index : Nat)
deriving DecidableEq, Repr

/-- Rows of the query at a depth of nesting; the outermost query is at depth zero. -/
structure Origin where
  depth : Nat
  node : Node
deriving DecidableEq, Repr

/-- Rows of a query, and attributes that are followed from there. -/
structure Path where
  origin : Origin
  attributes : List String
  /-- The type of the last attribute; whole rows and relationships have none. -/
  type? : Option ScalarType
deriving DecidableEq

/-- Rows by their node and depth. -/
def Origin.text : Origin → String
  | ⟨depth, .root⟩ => "root@" ++ toString depth
  | ⟨depth, .join index⟩ => "join" ++ toString index ++ "@" ++ toString depth

namespace Path

/-- The path of whole rows. -/
def ofOrigin (origin : Origin) : Path := ⟨origin, [], none⟩

/-- A path with points, behind the rows where it starts. -/
def text (p : Path) : String := p.attributes.foldl (fun s a => s ++ "." ++ a) p.origin.text

end Path

end EntityQuery
