import EntityQuery.Projection.Registration
import EntityQuery.Proofs.Keyed
import Mathlib.Data.List.Induction

/-! # Registered properties

The properties that calls register are a map: a name keeps the property that was registered for it
last (`Target.property?_registered`), and no name has two (`Target.unique_registered`).  Targets
that list them do so in an order of their own (`Registry.Lists`). -/

namespace EntityQuery

variable {E T : Type}

/-- What a call registers under a name. -/
def Registration.property? (name : String) : Registration T → Option (Property T)
  | .property other p => if other = name then some p else none
  | .default _ | .constructor _ => none

namespace Target

/-! ## Targets up to the order of their properties -/

/-- The same target with its properties in an order of its own. -/
structure Reorders (t t' : Target T) : Prop where
  type : t.type = t'.type
  default? : t.default? = t'.default?
  constructors : t.constructors = t'.constructors
  properties : t.properties.Perm t'.properties

/-- No name has two properties. -/
def Unique (t : Target T) : Prop := (t.properties.map Prod.fst).Nodup

variable {t t' : Target T}

namespace Reorders

theorem symm (h : t.Reorders t') : t'.Reorders t where
  type := h.type.symm
  default? := h.default?.symm
  constructors := h.constructors.symm
  properties := h.properties.symm

/-- Reordering twice is reordering. -/
theorem trans {t'' : Target T} (h : t.Reorders t') (h' : t'.Reorders t'') : t.Reorders t'' where
  type := h.type.trans h'.type
  default? := h.default?.trans h'.default?
  constructors := h.constructors.trans h'.constructors
  properties := h.properties.trans h'.properties

/-- Reordering neither adds nor repeats names. -/
theorem unique (h : t.Reorders t') (ht : t'.Unique) : t.Unique :=
  (h.properties.map Prod.fst).nodup_iff.2 ht

/-- Constructors are the same and in the same order. -/
theorem constructor? (h : t.Reorders t') (values : List Value) :
    t.constructor? values = t'.constructor? values := by
  rw [Target.constructor?, Target.constructor?, h.constructors]

end Reorders

/-- Where names are unique, what is found is what is there. -/
theorem Unique.property?_eq_some (ht : t.Unique) {name : String} {p : Property T} :
    t.property? name = some p ↔ (name, p) ∈ t.properties := by
  rw [property?, Option.map_eq_some_iff]
  simp only [Keyed.find?_eq_some_iff ht]
  constructor
  · rintro ⟨q, ⟨hq, rfl⟩, rfl⟩
    exact hq
  · intro hp
    exact ⟨(name, p), ⟨hp, rfl⟩, rfl⟩

/-- A name has one property. -/
theorem Unique.inj (ht : t.Unique) {name : String} {p p' : Property T}
    (hp : (name, p) ∈ t.properties) (hp' : (name, p') ∈ t.properties) : p = p' :=
  Option.some.inj ((ht.property?_eq_some.2 hp).symm.trans (ht.property?_eq_some.2 hp'))

theorem property?_eq_none {name : String} :
    t.property? name = none ↔ name ∉ t.properties.map Prod.fst := by
  simp only [property?, Option.map_eq_none_iff, List.find?_eq_none, decide_eq_true_eq,
    List.mem_map, not_exists, not_and]

theorem Reorders.property? (h : t.Reorders t') (ht : t'.Unique) (name : String) :
    t.property? name = t'.property? name := by
  refine Option.ext fun p => ?_
  rw [(h.unique ht).property?_eq_some, ht.property?_eq_some, h.properties.mem_iff]

/-! ## Calls -/

/-- The last call under a name counts. -/
theorem property?_register (t : Target T) (call : Registration T) (name : String) :
    (t.register call).property? name = (call.property? name).or (t.property? name) := by
  cases call with
  | default slots => rfl
  | constructor c => rfl
  | property other p =>
    simp only [register, property?, Keyed.find?_put, Registration.property?]
    split <;> rfl

/-- A name has the property that was registered for it last. -/
theorem property?_registered (type : String) (calls : List (Registration T)) (name : String) :
    (registered type calls).property? name =
      calls.reverse.findSome? fun call => call.property? name := by
  rw [registered]
  induction calls using List.reverseRecOn with
  | nil => rfl
  | append_singleton calls call ih =>
    rw [List.foldl_append, List.foldl_cons, List.foldl_nil, property?_register, ih,
      List.reverse_append, List.reverse_singleton, List.singleton_append, List.findSome?_cons]
    cases call.property? name <;> rfl

/-- Properties stay in the order of their names. -/
theorem sorted_register {t : Target T} (h : Keyed.Sorted t.properties) (call : Registration T) :
    Keyed.Sorted (t.register call).properties := by
  cases call with
  | default slots => exact h
  | constructor c => exact h
  | property name p => exact h.put

/-- Every call keeps the names in their order, so none comes twice. -/
theorem unique_registered (type : String) (calls : List (Registration T)) :
    (registered type calls).Unique := by
  refine Keyed.Sorted.nodup ?_
  have hempty : Keyed.Sorted (opaqueOf type : Target T).properties := List.Pairwise.nil
  rw [registered]
  generalize (opaqueOf type : Target T) = t at hempty
  induction calls generalizing t with
  | nil => exact hempty
  | cons call calls ih => exact ih _ (sorted_register hempty call)

/-- Calls that register properties only add to these. -/
theorem foldl_register_properties (t : Target T) (ps : List (String × Property T)) :
    (ps.map fun p => .property p.1 p.2).foldl register t = { t with
      properties := ps.foldl (fun sorted p => Keyed.put p.1 p.2 sorted) t.properties } := by
  induction ps generalizing t with
  | nil => rfl
  | cons p ps ih => exact ih _

end Target

/-- The target of an entity lists what the entity registers. -/
theorem Schema.target_reorders [Schema E] (embed : E → T) (type : String) {e : E}
    (h : ((attributes e).map Attribute.name).Nodup) :
    (Schema.target embed type e).Reorders (.registered type (registrations embed e)) := by
  have hcalls : ((attributes e).map fun a => Registration.property a.name (a.property embed)) =
      ((attributes e).map fun a => (a.name, a.property embed)).map
        fun p => .property p.1 p.2 := by
    rw [List.map_map]
    rfl
  have hnodup : (((attributes e).map fun a => (a.name, a.property embed)).map Prod.fst).Nodup := by
    rw [List.map_map]
    exact h
  rw [Target.registered, registrations, hcalls, List.foldl_cons,
    Target.foldl_register_properties]
  exact ⟨rfl, rfl, rfl, (Keyed.ofList_perm hnodup).symm⟩

/-- The targets are those of the registry, the properties of each in an order of its own. -/
def Registry.Lists (r : Registry T) (P : Projectable T) : Prop :=
  ∀ t, (P.target t).Reorders (r.target t)

end EntityQuery
