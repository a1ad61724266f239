import EntityQuery.Schema

/-! # Names in a text query

Within one query the root and the joined rows have names.  A dotted field that starts with a name
is an attribute of what it names, and every other field is an attribute of the root. -/

namespace EntityQuery

variable {E : Type} [Schema E]

/-- The entities of the names that are known, the latest first. -/
structure Names (E : Type) where
  root : E
  entries : List (String × E)

namespace Names

/-- At first only the root has a name. -/
def ofRoot (root : E) (name : String) : Names E := ⟨root, [(name, root)]⟩

/-- A name stands for what it was last given to; rows of an unknown entity leave it as it was. -/
def register (names : Names E) (name : String) : Option E → Names E
  | some e => { names with entries := (name, e) :: names.entries }
  | none => names

/-- The entity of the rows that a name stands for. -/
def entity? (names : Names E) (name : String) : Option E := names.entries.lookup name

/-- The type of a field, if it is an attribute of the schema. -/
def type? (names : Names E) (field : String) : Option ScalarType :=
  let attribute? :=
    match Text.splitFirst? '.' field with
    | none => Schema.resolvePath? names.root field
    | some (head, rest) =>
      match names.entity? head with
      | some e => Schema.resolvePath? e rest
      | none => Schema.resolvePath? names.root field
  attribute?.bind Attribute.type?

end Names

/-- A field as it is written: a dotted one is already qualified, and `*` is the rows themselves. -/
def qualified (name field : String) : String :=
  if field = "*" then name
  else if field.toList.contains '.' then field
  else name ++ "." ++ field

end EntityQuery
