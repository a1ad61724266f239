import EntityQuery.Projection.Target

/-! # Instances from single values

An instance is taken as it is, a constructor is called if its type fits, and a record fills the
default instance: each field that names a property sets it, nested records and lists of records in
the same way. -/

namespace EntityQuery.Target

variable {T : Type} [Projectable T]

open Projectable

/-- Reads the scalar that a setter stores. -/
def readSlot (type : ScalarType) (nullable : Bool) (v : Value) : Result Slot :=
  if nullable && v.isNull then .ok .absent else (v.cast type).map Slot.scalar

/-- `readSlot`, naming the property if it fails. -/
def readProperty (t : T) (name : String) (type : ScalarType) (nullable : Bool) (v : Value) :
    Result Slot :=
  match readSlot type nullable v with
  | .ok s => .ok s
  | .error cause => .error (.setterRefused name (target t).type cause)

/-- A single value that is neither an instance of the target nor a record. -/
def construct (t : T) (v : Value) : Result Slots :=
  match (target t).constructor? [v] with
  | some c => c.build [v]
  | none =>
    match (target t).default? with
    | none => .error (.constructorMissing (target t).type [v.typeName])
    | some _ => .error (.columnUnaliased 0 (target t).type)

mutual

/-- The instance of a row whose only column, without an alias, holds the value. -/
def ofValue (t : T) : Value → Result Slots
  | .record _ fields =>
    match (target t).default? with
    | none => .error (.defaultMissing (target t).type)
    | some slots => hydrate t slots fields
  | .object o =>
    if o.content.type = (target t).type then .ok o.content.slots else construct t (.object o)
  | .null => construct t .null
  | .scalar s => construct t (.scalar s)
  | .list items => construct t (.list items)

def ofValues (t : T) : List Value → Result (List Slots)
  | [] => .ok []
  | v :: vs => do
    let i ← ofValue t v
    let is ← ofValues t vs
    return i :: is

/-- Sets the properties that fields name, in the order of the fields. -/
def hydrate (t : T) (slots : Slots) : List (String × Value) → Result Slots
  | [] => .ok slots
  | (name, v) :: fields =>
    let stored : Result Slots :=
      match (target t).property? name with
      | none => .ok slots
      | some (.setter slot type nullable) =>
        (readProperty t name type nullable v).map (slots.put slot)
      | some (.nested slot child) =>
        if v.isNull then .ok (slots.put slot .absent)
        else (ofValue child v).map fun i => slots.put slot (.one (target child).type i)
      | some (.collection slot child) =>
        let items : Result (List Slots) :=
          match v with
          | .list items => ofValues child items
          | .null => .ok []
          | .scalar s => (construct child (.scalar s)).map fun i => [i]
          | .object o => (ofValue child (.object o)).map fun i => [i]
          | .record e fs => (ofValue child (.record e fs)).map fun i => [i]
        items.map fun is => slots.put slot (.many (is.map (.one (target child).type)))
    stored.bind fun slots => hydrate t slots fields

end

end EntityQuery.Target
