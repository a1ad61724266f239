import EntityQuery.Projection
import EntityQuery.Clause.Select
import EntityQuery.Proofs.Projection.Path
import EntityQuery.Proofs.Schema
import EntityQuery.Proofs.Text.Pieces

/-! # Aliases of paths

The alias of a selected path has `_` for each point, and a projection finds the way back by the
names of attributes.  It is the way of the path if at every entity on the way the name that is
followed is the longest one that the alias can be cut after.  A schema with an attribute `owner_id`
next to a relationship `owner` is not of this kind: `owner.id` is written to `owner_id`. -/

namespace EntityQuery

variable {E T : Type}

/-! ## Slots -/

namespace Slots

theorem get_cons (p : String × Slot) (slots : Slots) (name : String) :
    get (p :: slots) name = if p.1 = name then p.2 else slots.get name := by
  by_cases h : p.1 = name <;> simp [get, h]

theorem put_cons (p : String × Slot) (slots : Slots) (name : String) (content : Slot) :
    put (p :: slots) name content =
      (if p.1 = name then (name, content) else p) :: slots.put name content := rfl

/-- Other places keep what they hold. -/
theorem get_put_of_ne {slots : Slots} {name other : String} {content : Slot} (h : name ≠ other) :
    (slots.put other content).get name = slots.get name := by
  induction slots with
  | nil => rfl
  | cons p slots ih =>
    rw [put_cons, get_cons, get_cons, ih]
    by_cases hp : p.1 = other
    · simp [hp, h.symm]
    · simp [hp]

/-- A place holds what was put there last. -/
theorem get_put_self {slots : Slots} {name : String} {content : Slot}
    (h : name ∈ slots.map Prod.fst) : (slots.put name content).get name = content := by
  induction slots with
  | nil => simp at h
  | cons p slots ih =>
    rw [put_cons, get_cons]
    by_cases hp : p.1 = name
    · simp [hp]
    · have hmem : name ∈ slots.map Prod.fst := by simpa [Ne.symm hp] using h
      simp [hp, ih hmem]

end Slots

namespace Schema

variable [Schema E]

/-- The slots of an instance before anything is stored in it. -/
def defaults (e : E) : Slots := (attributes e).map fun a => (a.name, a.initial)

/-- All attributes of a path but the last are relationships to one. -/
def ToOne (e : E) : List String → Prop
  | segment :: next :: rest => ∃ a target, attribute? e segment = some a ∧
      a.kind = .relation target false ∧ ToOne target (next :: rest)
  | _ => True

/-- The default instance in which only the attribute at a path is set; the instances in between are
default instances too. -/
def instanceAt (typeOf : E → String) (content : Slot) (e : E) : List String → Slots
  | [] => defaults e
  | [last] => (defaults e).put last content
  | segment :: next :: rest =>
    match (attribute? e segment).bind Attribute.target? with
    | none => defaults e
    | some target =>
      (defaults e).put segment
        (.one (typeOf target) (instanceAt typeOf content target (next :: rest)))

/-- A name heads an alias that is the name or goes on with `_` behind it. -/
def Heads (name columnAlias : String) : Prop :=
  columnAlias = name ∨ ∃ rest, columnAlias = name ++ "_" ++ rest

/-- At every entity on the way, what is left of the alias is headed by no longer name than that of
the attribute that is followed. -/
def Unambiguous (e : E) : List String → Prop
  | [] => True
  | segment :: rest =>
    (∀ a ∈ attributes e, Heads a.name ("_".intercalate (segment :: rest)) →
      a.name.length ≤ segment.length) ∧
    ∀ target ∈ (attribute? e segment).bind Attribute.target?, Unambiguous target rest

/-- A name heads an alias that it is, or that goes on behind it with an underscore. -/
theorem heads_iff_isPrefix {name columnAlias : String} : Heads name columnAlias ↔
    columnAlias = name ∨ (name ++ "_").toList <+: columnAlias.toList := by
  refine or_congr_right ⟨?_, ?_⟩
  · rintro ⟨rest, rfl⟩
    exact ⟨rest.toList, (String.toList_append ..).symm⟩
  · rintro ⟨rest, hrest⟩
    exact ⟨String.ofList rest, String.toList_inj.1 (by simp [← hrest])⟩

instance (name columnAlias : String) : Decidable (Heads name columnAlias) :=
  decidable_of_iff _ heads_iff_isPrefix.symm

instance Unambiguous.decidable : ∀ (e : E) (segments : List String),
    Decidable (Unambiguous e segments)
  | _, [] => .isTrue trivial
  | _, _ :: rest =>
    have := fun target : E => decidable target rest
    inferInstanceAs (Decidable (_ ∧ _))

theorem Heads.length_le {name columnAlias : String} (h : Heads name columnAlias) :
    name.length ≤ columnAlias.length := by
  obtain rfl | ⟨rest, rfl⟩ := h
  · exact Nat.le_refl _
  · simp [String.length_append, Nat.add_assoc]

/-- A new instance holds in every place what its attribute starts with. -/
theorem get_defaults (e : E) (name : String) :
    (defaults e).get name = ((attribute? e name).map Attribute.initial).getD .absent := by
  rw [defaults, Slots.get, List.find?_map, attribute?]
  simp only [Function.comp_def]
  cases (attributes e).find? fun a => a.name = name <;> rfl

theorem get_put_defaults {e : E} {name : String} {a : Attribute E}
    (h : attribute? e name = some a) (content : Slot) :
    ((defaults e).put name content).get name = content := by
  obtain ⟨hmem, rfl⟩ := mem_of_attribute? h
  exact Slots.get_put_self (by simpa [defaults] using ⟨a, hmem, rfl⟩)

/-- Different contents make different instances. -/
theorem put_defaults_inj {e : E} {name : String} {a : Attribute E}
    (h : attribute? e name = some a) {content content' : Slot} :
    (defaults e).put name content = (defaults e).put name content' ↔ content = content' := by
  constructor
  · intro hput
    rw [← get_put_defaults h content, hput, get_put_defaults h]
  · rintro rfl
    rfl

theorem intercalate_ne_empty {e : E} {segment : String} {rest : List String}
    {a : Attribute E} (h : follow? e (segment :: rest) = some a) :
    "_".intercalate (segment :: rest) ≠ "" := by
  have hsegment : ∃ b, attribute? e segment = some b := by
    cases rest with
    | nil => exact ⟨a, h⟩
    | cons next rest =>
      obtain ⟨b, hb, -⟩ := Option.bind_eq_some_iff.1 h
      exact ⟨b, hb⟩
  obtain ⟨b, hb⟩ := hsegment
  have hne := (isIdentifier_of_attribute? hb).ne_empty
  cases rest with
  | nil => rwa [String.intercalate_singleton]
  | cons next rest => simp [String.intercalate_cons_cons, hne]

end Schema

/-! ## Aliases -/

/-- Replacing the points of a path joins its segments by underscores. -/
theorem Text.replace_eq_intercalate (text : String) :
    Text.replace '.' '_' text = "_".intercalate (Text.split '.' text) :=
  (Text.intercalate_split '.' '_' text).symm

/-- The alias of a field is its segments with `_` between them. -/
theorem Select.resultAlias_ofField {field : String} (h : field ≠ "*") :
    (ofField field).resultAlias = "_".intercalate (Text.split '.' field) := by
  rw [← Text.replace_eq_intercalate]
  simp [resultAlias, ofField, isRoot, h]

/-- A path is cut after the names that head it. -/
theorem Target.after?_of_heads {name columnAlias : String} (h : Schema.Heads name columnAlias)
    (hne : columnAlias ≠ name) : (after? name.toList columnAlias.toList).isSome := by
  obtain rfl | ⟨rest, rfl⟩ := h
  · exact absurd rfl hne
  · have hafter : after? name.toList (name ++ "_" ++ rest).toList = some rest.toList :=
      after?_eq_some.2 ⟨'_', .inl rfl, by simp [String.toList_append]⟩
    rw [hafter, Option.isSome_some]

/-- Where there are no points, a path is cut after no other names. -/
theorem Target.heads_of_after? {name columnAlias : String} (hdot : '.' ∉ columnAlias.toList)
    (h : (after? name.toList columnAlias.toList).isSome) : Schema.Heads name columnAlias := by
  obtain ⟨rest, h⟩ := Option.isSome_iff_exists.1 h
  obtain ⟨c, rfl | rfl, hpath⟩ := after?_eq_some.1 h
  · refine .inr ⟨String.ofList rest, ?_⟩
    rw [← String.toList_inj, hpath]
    simp [String.toList_append]
  · simp [hpath] at hdot

/-! ## Projection along an alias -/

namespace Target

open Projectable Schema

/-- The properties of a target are the attributes of its entity. -/
theorem property?_target [Schema E] (embed : E → T) (type : String) (e : E) (name : String) :
    (Schema.target embed type e).property? name =
      (attribute? e name).map (Attribute.property embed) := by
  rw [property?, Schema.target, List.find?_map, attribute?]
  simp only [Function.comp_def]
  cases (attributes e).find? fun a => a.name = name <;> rfl

theorem slot_eq_of_nested {embed : E → T} {a : Attribute E} {slot : String} {child : T}
    (h : a.property embed = .nested slot child) : slot = a.name := by
  rw [Attribute.property] at h
  split at h
  · cases h
  · split at h
    · cases h
    · exact (Property.nested.inj h).1.symm

/-- The path goes on through a relationship to one if it cannot be cut after a longer name. -/
theorem cut?_of_after [Schema E] {e target : E} {b : Attribute E} {segment : String}
    {path rest : List Char} (embed : E → T) (typeOf : E → String)
    (hb : attribute? e segment = some b) (hkind : b.kind = .relation target false)
    (hafter : after? segment.toList path = some rest)
    (hle : ∀ a ∈ attributes e, (after? a.name.toList path).isSome →
      a.name.length ≤ segment.length) :
    ∃ c, (Schema.target embed (typeOf e) e).cut? path = some c ∧
      c.property = .nested segment (embed target) ∧ c.rest = rest := by
  obtain ⟨hmem, rfl⟩ := mem_of_attribute? hb
  have hb' : (b.name, b.property embed) ∈ (Schema.target embed (typeOf e) e).properties :=
    List.mem_map.2 ⟨b, hmem, rfl⟩
  have hproperties : ∀ q ∈ (Schema.target embed (typeOf e) e).properties,
      (after? q.1.toList path).isSome → q.1.length ≤ b.name.length :=
    List.forall_mem_map.2 hle
  obtain ⟨hsome, hnone⟩ := cut?_spec (Schema.target embed (typeOf e) e) path
  cases hc : (Schema.target embed (typeOf e) e).cut? path with
  | none => exact absurd (hafter.symm.trans (hnone hc _ hb')) nofun
  | some c =>
    obtain ⟨hcname, hcrest⟩ := (hsome c hc).eq_of_longest hb' hafter hproperties
    refine ⟨c, rfl, ?_, hcrest⟩
    have hproperty : (Schema.target embed (typeOf e) e).property? c.name = some c.property := by
      rw [property?, (hsome c hc).first, Option.map_some]
    rw [hcname, property?_target, hb, Option.map_some, Attribute.property, hkind] at hproperty
    exact (Option.some.inj hproperty).symm

section Cuts

variable [Schema E] {e target : E} {b : Attribute E} {segment rest : String}
  (hlongest : ∀ a ∈ attributes e, Heads a.name (segment ++ "_" ++ rest) →
    a.name.length ≤ segment.length)
include hlongest

/-- The whole alias is no attribute, since none has a longer name that heads it. -/
theorem attribute?_eq_none_of_longest :
    attribute? e (segment ++ "_" ++ rest) = none := by
  refine List.find?_eq_none.2 fun a ha hsame => ?_
  have hname : a.name = segment ++ "_" ++ rest := of_decide_eq_true hsame
  have hle := hlongest a ha (.inl hname.symm)
  have hmark : "_".length = 1 := rfl
  rw [hname, String.length_append, String.length_append] at hle
  omega

/-- An alias is cut behind the longest relationship that heads it. -/
theorem cut?_of_longest (embed : E → T) (typeOf : E → String)
    (hb : attribute? e segment = some b) (hkind : b.kind = .relation target false)
    (hdot : '.' ∉ (segment ++ "_" ++ rest).toList) :
    ∃ c, (Schema.target embed (typeOf e) e).cut? (segment ++ "_" ++ rest).toList = some c ∧
      c.property = .nested segment (embed target) ∧ c.rest = rest.toList := by
  refine cut?_of_after embed typeOf hb hkind ?_ fun a ha hsome =>
    hlongest a ha (heads_of_after? hdot hsome)
  exact after?_eq_some.2 ⟨'_', .inl rfl, by simp [String.toList_append]⟩

end Cuts

variable [Projectable T] {embed : E → T} {typeOf : E → String}

/-- Whatever is assigned to an attribute, the other slots keep their contents. -/
theorem get_assign_of_ne (t : T) (slots : Slots) (label : String) (v : Value) {a : Attribute E}
    {name : String} (h : name ≠ a.name) :
    (assign t slots label (a.property embed) v).1.get name = slots.get name := by
  have hsettle : ∀ r : Result Slot, (assign.settle slots a.name r).1.get name = slots.get name := by
    intro r
    cases r with
    | ok content => exact Slots.get_put_of_ne h
    | error e => rfl
  rw [Attribute.property]
  cases a.kind with
  | basic type nullable => exact hsettle _
  | relation target many => cases many <;> exact hsettle _

-- The target of every entity is made from its attributes.
variable [Schema E] (hT : ∀ e, Projectable.target (embed e) = Schema.target embed (typeOf e) e)
include hT

/-- A path sets the slot of the name that it is or that it is cut after, and no other. -/
theorem get_apply_of_ne (e : E) (slots : Slots) {path : List Char} {name : String} (v : Value)
    (hwhole : name ≠ String.ofList path)
    (hcut : attribute? e (String.ofList path) = none →
      ∀ c, (Schema.target embed (typeOf e) e).cut? path = some c → name ≠ c.name) :
    (apply (embed e) slots path v).1.get name = slots.get name := by
  rw [apply]
  simp only [hT, property?_target]
  cases hattribute : attribute? e (String.ofList path) with
  | some a =>
    obtain ⟨-, haname⟩ := mem_of_attribute? hattribute
    exact get_assign_of_ne _ _ _ _ (haname ▸ hwhole)
  | none =>
    cases hc : (Schema.target embed (typeOf e) e).cut? path with
    | none => rfl
    | some c =>
      obtain ⟨a, hmem, ha⟩ := List.mem_map.1
        (List.mem_of_find?_eq_some ((cut?_spec _ _).1 c hc).first)
      obtain ⟨haname, hproperty⟩ := Prod.mk.inj ha
      have hne : name ≠ a.name := haname ▸ hcut hattribute c hc
      simp only [Option.map_none, ← hproperty]
      split
      · split
        · rfl
        · exact get_assign_of_ne _ _ _ _ hne
      · split
        · rfl
        · rfl
        · rename_i slot child hnested
          obtain rfl := slot_eq_of_nested hnested
          split
          · rfl
          · exact Slots.get_put_of_ne hne

section Step

variable {e target : E} {a b : Attribute E} {segment rest : String} {s s' : Scalar}

/-- The last segment sets its attribute. -/
theorem apply_last {type : ScalarType} {nullable : Bool} (ha : attribute? e segment = some a)
    (hkind : a.kind = .basic type nullable) (hs : s.cast type = .ok s') (slots : Slots) :
    apply (embed e) slots segment.toList (.scalar s) = (slots.put segment (.scalar s'), none) := by
  have hproperty : (Projectable.target (embed e)).property? (String.ofList segment.toList) =
      some (.setter segment type nullable) := by
    obtain ⟨-, rfl⟩ := mem_of_attribute? ha
    rw [hT, String.ofList_toList, property?_target, ha, Option.map_some, Attribute.property, hkind]
  rw [apply_of_property hproperty, assign, readProperty, readSlot]
  simp [Value.isNull, Value.cast, hs, Except.map, assign.settle]

/-- Where the name that is followed is the longest one, the rest of the alias is applied to the
default instance of the entity behind it. -/
theorem apply_of_longest (hb : attribute? e segment = some b)
    (hkind : b.kind = .relation target false)
    (hdot : '.' ∉ (segment ++ "_" ++ rest).toList) (hrest : rest ≠ "") (v : Value)
    (hlongest : ∀ a ∈ attributes e, Heads a.name (segment ++ "_" ++ rest) →
      a.name.length ≤ segment.length) :
    apply (embed e) (defaults e) (segment ++ "_" ++ rest).toList v =
      ((defaults e).put segment
          (.one (typeOf target) (apply (embed target) (defaults target) rest.toList v).1),
        (apply (embed target) (defaults target) rest.toList v).2) := by
  obtain ⟨c, hc, hproperty, hcrest⟩ := cut?_of_longest hlongest embed typeOf hb hkind hdot
  have hwhole : (Projectable.target (embed e)).property?
      (String.ofList (segment ++ "_" ++ rest).toList) = none := by
    rw [hT, String.ofList_toList, property?_target,
      attribute?_eq_none_of_longest hlongest, Option.map_none]
  have hinner : enter? (embed target) ((defaults e).get segment) = some (defaults target) := by
    rw [get_defaults, hb, Option.map_some, Option.getD_some, Attribute.initial, hkind]
    simp [enter?, hT, Schema.target, defaults]
  rw [apply_of_nested hwhole (by rw [hT, hc]) (by simp [hcrest, hrest]) hproperty hinner, hcrest,
    hT]
  rfl

/-- Where a longer name heads the alias, the entity behind the relationship stays absent. -/
theorem get_apply_of_longer (hb : attribute? e segment = some b)
    (hkind : b.kind = .relation target false) (v : Value) (ha : a ∈ attributes e)
    (hheads : Heads a.name (segment ++ "_" ++ rest)) (hlonger : segment.length < a.name.length) :
    (apply (embed e) (defaults e) (segment ++ "_" ++ rest).toList v).1.get segment = .absent := by
  have hinitial : (defaults e).get segment = .absent := by
    simp [get_defaults, hb, Attribute.initial, hkind]
  rw [get_apply_of_ne hT, hinitial]
  · intro h
    have hlength := congrArg String.length h
    simp [String.length_append] at hlength
  · intro hnone c hc hsegment
    rw [String.ofList_toList, attribute?, List.find?_eq_none] at hnone
    have hne : segment ++ "_" ++ rest ≠ a.name := fun h => hnone a ha (by simp [h])
    have hle : a.name.length ≤ c.name.length :=
      ((cut?_spec _ _).1 c hc).longest (a.name, a.property embed)
        (List.mem_map.2 ⟨a, ha, rfl⟩) (after?_of_heads hheads hne)
    exact absurd hlonger (Nat.not_lt.2 (hsegment ▸ hle))

end Step

/-- Under an alias a scalar reaches the attribute of the path, and nothing else changes, exactly if
nothing else can be read into the alias. -/
theorem apply_path_iff {s s' : Scalar} {segments : List String} {e : E}
    {a : Attribute E} {type : ScalarType} {nullable : Bool} (ha : follow? e segments = some a)
    (hkind : a.kind = .basic type nullable) (hone : ToOne e segments) (hs : s.cast type = .ok s')
    (hdot : '.' ∉ ("_".intercalate segments).toList) :
    apply (embed e) (defaults e) ("_".intercalate segments).toList (.scalar s) =
      (instanceAt typeOf (.scalar s') e segments, none) ↔ Unambiguous e segments := by
  induction segments generalizing e with
  | nil => cases ha
  | cons segment segments ih =>
    cases segments with
    | nil =>
      rw [String.intercalate_singleton, apply_last hT ha hkind hs, instanceAt, Unambiguous,
        String.intercalate_singleton]
      have ha : attribute? e segment = some a := ha
      simp only [ha, Option.bind_some, Attribute.target?, hkind, true_iff]
      exact ⟨fun _ _ h => h.length_le, fun _ h => absurd h (Option.not_mem_none _)⟩
    | cons next rest =>
      obtain ⟨b, target, hb, hbkind, hone⟩ := hone
      have htarget : (attribute? e segment).bind Attribute.target? = some target := by
        rw [hb, Option.bind_some, Attribute.target?, hbkind]
      have ha : follow? target (next :: rest) = some a := by
        simpa [follow?, hb, Attribute.target?, hbkind] using ha
      have hrest := intercalate_ne_empty ha
      rw [String.intercalate_cons_cons] at hdot ⊢
      by_cases hlongest : ∀ a ∈ attributes e,
          Heads a.name (segment ++ "_" ++ "_".intercalate (next :: rest)) →
            a.name.length ≤ segment.length
      · have hdot' : '.' ∉ ("_".intercalate (next :: rest)).toList := by
          rw [String.toList_append, List.mem_append] at hdot
          exact fun h => hdot (.inr h)
        rw [apply_of_longest hT hb hbkind hdot hrest _ hlongest, instanceAt, htarget, Unambiguous,
          String.intercalate_cons_cons, htarget, and_iff_right hlongest]
        have hput := (ih ha hone hdot').symm
        simp only [Prod.mk.injEq, put_defaults_inj hb, Slot.one.injEq, true_and,
          Option.mem_some_iff, forall_eq']
        rw [hput, Prod.ext_iff]
      · have hnot : ¬Unambiguous e (segment :: next :: rest) := fun h =>
          hlongest (String.intercalate_cons_cons ▸ h.1)
        refine iff_of_false (fun h => ?_) hnot
        simp only [not_forall] at hlongest
        obtain ⟨a', ha', hheads, hlonger⟩ := hlongest
        have habsent := get_apply_of_longer hT hb hbkind (.scalar s) ha' hheads
          (Nat.lt_of_not_le hlonger)
        rw [h, instanceAt, htarget, get_put_defaults hb] at habsent
        cases habsent

/-- A row of one aliased column sets one property of a new instance. -/
theorem ofRow_scalar (e : E) (columnAlias : String) (s : Scalar) :
    ofRow (embed e) (Row.aliased [(columnAlias, .scalar s)]) =
      match apply (embed e) (defaults e) columnAlias.toList (.scalar s) with
      | (_, some error) => .error error
      | (slots, none) => .ok slots := by
  simp only [ofRow, Row.aliased, List.map_cons, List.map_nil, ofRow.ofColumns, ofRow.build, hT,
    Schema.target, constructor?, List.find?_nil, applyColumns]
  rfl

end Target

/-! ## A name that holds another path -/

/-- Horses are kept by a person, and one of their attributes is named like the alias of the
person's. -/
inductive Stable where
  | horse
  | person
deriving DecidableEq

namespace Stable

def attributes : Stable → List (Attribute Stable)
  | .horse => [⟨"id", .basic (.integer .long) false⟩, ⟨"keeper", .relation .person false⟩,
      ⟨"keeper_id", .basic (.integer .long) false⟩]
  | .person => [⟨"id", .basic (.integer .long) false⟩, ⟨"name", .basic .string false⟩]

instance : Schema Stable where
  name
    | .horse => "Horse"
    | .person => "Person"
  attributes := attributes

instance : Projectable Stable where
  target e := Schema.target id (Schema.name e) e

open Target Schema

theorem target_eq (e : Stable) :
    Projectable.target (id e) = Schema.target id (Schema.name e) e := rfl

def seven : Scalar := .integer .long ⟨7, by decide⟩

end Stable

end EntityQuery
