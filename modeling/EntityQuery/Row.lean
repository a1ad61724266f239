import EntityQuery.Value

/-! # Rows

A row is a list of columns, each a value and the alias it was selected under. -/

namespace EntityQuery

/-- A value, with the alias it was selected under if it has one. -/
structure Column where
  alias? : Option String
  value : Value

/-- The columns of a result in the order of the selections. -/
structure Row where
  columns : List Column

namespace Row

/-- Pairs values with aliases; values without one have none. -/
def pair : List Value → List (Option String) → List Column
  | [], _ => []
  | v :: vs, [] => ⟨none, v⟩ :: pair vs []
  | v :: vs, a :: as => ⟨a, v⟩ :: pair vs as

def ofValues (values : List Value) (aliases : List (Option String)) : Row := ⟨pair values aliases⟩

/-- A row of one column without an alias. -/
def single (v : Value) : Row := ⟨[⟨none, v⟩]⟩

/-- A row in which every column has an alias. -/
def aliased (columns : List (String × Value)) : Row :=
  ⟨columns.map fun p => ⟨some p.1, p.2⟩⟩

def values (r : Row) : List Value := r.columns.map Column.value

def aliases (r : Row) : List (Option String) := r.columns.map Column.alias?

/-- The value of the first column, which is all that a single value is read from. -/
def first? (r : Row) : Option Value := r.columns.head?.map Column.value

def get? (r : Row) (index : Nat) : Option Value := r.columns[index]?.map Column.value

/-- The value of the first column with this alias. -/
def byAlias? (r : Row) (name : String) : Option Value :=
  (r.columns.find? fun c => c.alias? = some name).map Column.value

end Row

end EntityQuery
