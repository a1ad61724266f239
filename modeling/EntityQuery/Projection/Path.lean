import EntityQuery.Projection.Hydrate

/-! # Setting a property by its path

A path is the name of a property, or the name of a nested one, `_` or `.`, and a path into it.
Names may hold `_` themselves: a name that is the whole path is never cut, and among the names that
a path can be cut after, the longest is taken.  What was set before a step fails stays set. -/

namespace EntityQuery.Target

variable {T : Type} [Projectable T]

open Projectable

/-- What follows a name and a mark at the head of a path. -/
def after? (name path : List Char) : Option (List Char) :=
  if name.isPrefixOf path then
    match path.drop name.length with
    | [] => none
    | c :: rest => if c = '_' ∨ c = '.' then some rest else none
  else none

/-- What is left behind a name is shorter than the path. -/
theorem length_after? {name path rest : List Char} (h : after? name path = some rest) :
    rest.length < path.length := by
  simp only [after?] at h
  split at h
  · split at h
    · simp at h
    · next c tail hd =>
      split at h
      · have hl := congrArg List.length hd
        simp only [List.length_drop, List.length_cons] at hl
        simp only [Option.some.injEq] at h
        subst h
        omega
      · simp at h
  · simp at h

/-- The way on through a property: its name and the rest of the path. -/
structure Cut (T : Type) (path : List Char) where
  name : String
  property : Property T
  rest : List Char
  shorter : rest.length < path.length

/-- The way on through one property. -/
def cutAfter? (path : List Char) (p : String × Property T) : Option (Cut T path) :=
  match h : after? p.1.toList path with
  | some rest => some ⟨p.1, p.2, rest, length_after? h⟩
  | none => none

/-- Of two cuts the one with the longer name is better, and the earlier one if they are of one
length. -/
def longer {path : List Char} (best : Option (Cut T path)) (c : Cut T path) : Option (Cut T path) :=
  match best with
  | none => some c
  | some b => if b.name.length < c.name.length then some c else some b

/-- The way on through the property with the longest name that the path can be cut after. -/
def cut? (t : Target T) (path : List Char) : Option (Cut T path) :=
  (t.properties.filterMap (cutAfter? path)).foldl longer none

/-- Sets a whole property to the value of a column. -/
def assign (t : T) (slots : Slots) (name : String) (p : Property T) (v : Value) :
    Slots × Option Error :=
  match p with
  | .setter slot type nullable => settle slot (readProperty t name type nullable v)
  | .nested slot child =>
    settle slot
      (if v.isNull then .ok .absent else (ofValue child v).map (.one (target child).type))
  | .collection slot child =>
    let items : Result (List Slots) :=
      match v with
      | .null => .ok []
      | .list items => ofValues child items
      | v => (ofValue child v).map fun i => [i]
    settle slot (items.map fun is => .many (is.map (.one (target child).type)))
where
  settle (slot : String) : Result Slot → Slots × Option Error
    | .ok content => (slots.put slot content, none)
    | .error e => (slots, some e)

/-- The instance that a nested property holds, or else the default of its target. -/
def enter? (child : T) : Slot → Option Slots
  | .one _ slots => some slots
  | _ => (target child).default?

/-- Sets the property that a path leads to. -/
def apply (t : T) (slots : Slots) (path : List Char) (v : Value) : Slots × Option Error :=
  let name := String.ofList path
  match (target t).property? name with
  | some p => assign t slots name p v
  | none =>
    match (target t).cut? path with
    | none => (slots, some (.setterMissing name (target t).type))
    | some cut =>
      if cut.rest = [] then
        match cut.property with
        | .setter .. => (slots, some (.setterMissing name (target t).type))
        | p => assign t slots cut.name p v
      else
        match cut.property with
        | .setter .. => (slots, some (.setterMissing name (target t).type))
        | .collection .. =>
          (slots, some (.throughCollection (String.ofList cut.rest) cut.name (target t).type))
        | .nested slot child =>
          match enter? child (slots.get slot) with
          | none => (slots, some (.defaultMissing (target child).type))
          | some inner =>
            let (inner, e) := apply child inner cut.rest v
            (slots.put slot (.one (target child).type inner), e)
termination_by path.length
decreasing_by exact cut.shorter

/-- Sets the properties that the aliases of columns lead to, from column `index` on. -/
def applyColumns (t : T) (slots : Slots) (index : Nat) : List Column → Result Slots
  | [] => .ok slots
  | c :: columns =>
    match c.alias? with
    | none => .error (.columnUnaliased index (target t).type)
    | some name =>
      match apply t slots name.toList c.value with
      | (_, some e) => .error e
      | (slots, none) => applyColumns t slots (index + 1) columns

/-- The instance that a row holds: as it is, by a constructor, from a single record, or from the
default by its columns. -/
def ofRow (t : T) (row : Row) : Result Slots :=
  match row.columns with
  | [c] =>
    match c.value with
    | .record _ _ => ofValue t c.value
    | v => ofColumns t row v
  | c :: _ => ofColumns t row c.value
  | [] => ofColumns t row .null
where
  ofColumns (t : T) (row : Row) : Value → Result Slots
    | .object o => if o.content.type = (target t).type then .ok o.content.slots else build t row
    | _ => build t row
  build (t : T) (row : Row) : Result Slots :=
    match (target t).constructor? row.values with
    | some c => c.build row.values
    | none =>
      match (target t).default? with
      | none => .error (.constructorMissing (target t).type (row.values.map Value.typeName))
      | some slots => applyColumns t slots 0 row.columns

end EntityQuery.Target
