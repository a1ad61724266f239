import EntityQuery.Projection.Path

/-! # Projection of rows

A row is projected onto a target, read as a single value, or kept. -/

namespace EntityQuery

variable {T : Type}

/-- What the rows of a query are wanted as. -/
inductive Shape (T : Type) where
  | row
  /-- The first column of a row that has one; the text names the type in messages. -/
  | value (text : String) (reading : Reading)
  /-- The first column, and null for an empty row. -/
  | optional (reading : Reading)
  | target (t : T)

/-- A result as it was asked for: a whole row, a value or an instance. -/
inductive Projected where
  | row (row : Row)
  | value (v : Value)
  | instance (slots : Slots)

namespace Shape

variable [Projectable T]

/-- One result from one row. -/
def project (shape : Shape T) (row : Row) : Result Projected :=
  match shape with
  | .row => .ok (.row row)
  | .value text reading =>
    match row.first? with
    | none => .error (.rowEmpty text)
    | some v => (reading.read v).map .value
  | .optional reading =>
    match row.first? with
    | none => .ok (.value .null)
    | some v => ((Reading.optional reading).read v).map .value
  | .target t => (Target.ofRow t row).map .instance

end Shape

end EntityQuery
