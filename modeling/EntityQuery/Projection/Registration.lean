import EntityQuery.Projection.Target

/-! # Registration

A target is described by calls: a default instance, constructors, and properties by their names.
A name keeps the property that was registered for it last. -/

namespace EntityQuery

variable {E T : Type}

/-- A call that tells a target something about its type. -/
inductive Registration (T : Type) where
  | default (slots : Slots)
  | constructor (c : Constructor)
  | property (name : String) (p : Property T)

namespace Target

/-- A default or a property replaces the one before it, and constructors are collected. -/
def register (t : Target T) : Registration T → Target T
  | .default slots => { t with default? := some slots }
  | .constructor c => { t with constructors := t.constructors ++ [c] }
  | .property name p => { t with properties := Keyed.put name p t.properties }

/-- The target that calls describe, one after the other. -/
def registered (type : String) (calls : List (Registration T)) : Target T :=
  calls.foldl register (opaqueOf type)

end Target

/-- The name of every target and the calls that describe it. -/
structure Registry (T : Type) where
  type : T → String
  calls : T → List (Registration T)

/-- A type as all of its calls leave it. -/
def Registry.target (r : Registry T) (t : T) : Target T := .registered (r.type t) (r.calls t)

/-- An entity registers its default instance and its attributes. -/
def Schema.registrations [Schema E] (embed : E → T) (e : E) : List (Registration T) :=
  .default ((attributes e).map fun a => (a.name, a.initial)) ::
    (attributes e).map fun a => .property a.name (a.property embed)

end EntityQuery
