import EntityQuery.Proofs.Projection.Alias
import EntityQuery.Proofs.Success

/-! # Columns under dotted paths

The names of attributes have no points, so a dotted path is cut exactly into the names of the
attributes it leads through.  A column under such a path enters the instances on its way and stores
a single content (`Target.apply_leads`), and stores at different paths do not interfere
(`Schema.setAt_comm`). -/

namespace EntityQuery

variable {E T : Type}

/-! ## Slots -/

namespace Slots

variable {slots : Slots} {name other : String} {content content' : Slot}

theorem put_put_self : (slots.put name content).put name content' = slots.put name content' := by
  induction slots with
  | nil => rfl
  | cons p slots ih =>
    rw [put_cons, put_cons, put_cons, ih]
    by_cases hp : p.1 = name <;> simp [hp]

/-- Different places are set in any order. -/
theorem put_comm (h : name ≠ other) :
    (slots.put name content).put other content' = (slots.put other content').put name content := by
  induction slots with
  | nil => rfl
  | cons p slots ih =>
    rw [put_cons, put_cons, put_cons, put_cons, ih]
    by_cases hp : p.1 = name
    · simp [hp, h]
    · by_cases hq : p.1 = other <;> simp [hp, hq, h.symm]

/-- There is nowhere to store what has no slot. -/
theorem put_of_notMem (h : name ∉ slots.map Prod.fst) : slots.put name content = slots := by
  induction slots with
  | nil => rfl
  | cons p slots ih =>
    rw [List.map_cons, List.mem_cons, not_or] at h
    rw [put_cons, ih h.2, if_neg (Ne.symm h.1)]

end Slots

/-! ## Paths to basic attributes -/

variable [Schema E]

namespace Schema

variable {e target : E} {a : Attribute E} {name : String} {path path' : List String}
  {type type' : ScalarType} {nullable nullable' : Bool}

/-- A path through relationships to one that ends in a basic attribute. -/
inductive Leads : E → List String → ScalarType → Bool → Prop
  | basic {e : E} {name : String} {a : Attribute E} {type : ScalarType} {nullable : Bool}
      (ha : attribute? e name = some a) (hkind : a.kind = .basic type nullable) :
      Leads e [name] type nullable
  | one {e target : E} {name : String} {a : Attribute E} {path : List String}
      {type : ScalarType} {nullable : Bool} (ha : attribute? e name = some a)
      (hkind : a.kind = .relation target false) (h : Leads target path type nullable) :
      Leads e (name :: path) type nullable

/-- Attributes of different kinds have different names. -/
theorem ne_of_kind_ne {name' : String} {a' : Attribute E} (ha : attribute? e name = some a)
    (ha' : attribute? e name' = some a') (h : a.kind ≠ a'.kind) : name ≠ name' := by
  rintro rfl
  exact h (congrArg Attribute.kind (Option.some.inj (ha.symm.trans ha')))

/-- A path that leads to a value has a segment. -/
theorem Leads.ne_nil (h : Leads e path type nullable) : path ≠ [] := by
  cases h <;> exact List.cons_ne_nil _ _

/-- The content that a column has for the attribute at its path. -/
def read (e : E) (c : List String × Value) : Option Slot :=
  match follow? e c.1 with
  | some ⟨_, .basic type nullable⟩ => (Target.readSlot type nullable c.2).toOption
  | _ => none

/-- A path is read at the entity that it leads through. -/
theorem read_cons (ha : attribute? e name = some a) (hkind : a.kind = .relation target false)
    (hpath : path ≠ []) (v : Value) : read e (name :: path, v) = read target (path, v) := by
  obtain ⟨next, path, rfl⟩ := List.exists_cons_of_ne_nil hpath
  have hfollow : follow? e (name :: next :: path) = follow? target (next :: path) := by
    rw [follow?, ha]
    · simp [Attribute.target?, hkind]
    · exact List.cons_ne_nil _ _
  rw [read, read, hfollow]

/-- What a path leads to is read as the type of its last attribute. -/
theorem Leads.read (h : Leads e path type nullable) (v : Value) :
    read e (path, v) = (Target.readSlot type nullable v).toOption := by
  induction h with
  | @basic e name a type nullable ha hkind =>
    obtain ⟨aname, kind⟩ := a
    obtain rfl := hkind
    rw [Schema.read, show follow? e [name] = _ from ha]
  | one ha hkind h ih => rw [read_cons ha hkind h.ne_nil, ih]

section SetAt

variable (typeOf : E → String) (defaults : E → Slots)

/-- The instance that a slot holds, or else a default one. -/
def entered (e : E) : Slot → Slots
  | .one _ inner => inner
  | _ => defaults e

/-- Stores a content at the end of a path, entering the instances on the way. -/
def setAt (content : Slot) (e : E) : List String → Slots → Slots
  | [], slots => slots
  | [last], slots => slots.put last content
  | name :: next :: path, slots =>
    match (attribute? e name).bind Attribute.target? with
    | none => slots
    | some target => slots.put name (.one (typeOf target)
        (setAt content target (next :: path) (entered defaults target (slots.get name))))

/-- Stores what a column has for its attribute. -/
def store (e : E) (slots : Slots) (c : List String × Value) : Slots :=
  setAt typeOf defaults ((read e c).getD .absent) e c.1 slots

variable {typeOf defaults}

/-- Setting along a path enters the instance behind its first segment. -/
theorem setAt_cons (ha : attribute? e name = some a) (hkind : a.kind = .relation target false)
    (hpath : path ≠ []) (content : Slot) (slots : Slots) :
    setAt typeOf defaults content e (name :: path) slots = slots.put name (.one (typeOf target)
      (setAt typeOf defaults content target path (entered defaults target (slots.get name)))) := by
  obtain ⟨next, path, rfl⟩ := List.exists_cons_of_ne_nil hpath
  rw [setAt, ha, Option.bind_some, Attribute.target?, hkind]

/-- A store sees and changes nothing but the first slot on its way. -/
theorem exists_setAt_eq_put (h : Leads e (name :: path) type nullable) (content : Slot) :
    ∃ g : Slot → Slot, ∀ slots : Slots,
      setAt typeOf defaults content e (name :: path) slots =
        slots.put name (g (slots.get name)) := by
  cases h with
  | basic => exact ⟨fun _ => content, fun _ => rfl⟩
  | @one _ target _ _ _ _ _ ha hkind h =>
    exact ⟨fun held => .one (typeOf target)
      (setAt typeOf defaults content target path (entered defaults target held)),
      setAt_cons ha hkind h.ne_nil content⟩

/-- Paths that part at once are set in any order. -/
theorem setAt_comm_of_ne (h : Leads e (name :: path) type nullable) {name' : String}
    (h' : Leads e (name' :: path') type' nullable') (hne : name ≠ name') (content content' : Slot)
    (slots : Slots) :
    setAt typeOf defaults content' e (name' :: path')
        (setAt typeOf defaults content e (name :: path) slots) =
      setAt typeOf defaults content e (name :: path)
        (setAt typeOf defaults content' e (name' :: path') slots) := by
  obtain ⟨g, hg⟩ := exists_setAt_eq_put h content
  obtain ⟨g', hg'⟩ := exists_setAt_eq_put h' content'
  rw [hg, hg', hg', hg, Slots.get_put_of_ne hne.symm, Slots.get_put_of_ne hne,
    Slots.put_comm hne]

/-- Two stores behind one relationship are two stores in the instance that its slot holds. -/
theorem setAt_setAt (ha : attribute? e name = some a) (hkind : a.kind = .relation target false)
    (hpath : path ≠ []) (hpath' : path' ≠ []) (content content' : Slot) (slots : Slots) :
    setAt typeOf defaults content' e (name :: path')
        (setAt typeOf defaults content e (name :: path) slots) =
      slots.put name (.one (typeOf target) (setAt typeOf defaults content' target path'
        (setAt typeOf defaults content target path
          (entered defaults target (slots.get name))))) := by
  rw [setAt_cons ha hkind hpath', setAt_cons ha hkind hpath]
  by_cases hkey : name ∈ slots.map Prod.fst
  · rw [Slots.get_put_self hkey, Slots.put_put_self, entered]
  · simp only [Slots.put_of_notMem hkey]

/-- Stores at different paths do not interfere. -/
theorem setAt_comm (h : Leads e path type nullable) (h' : Leads e path' type' nullable')
    (hne : path ≠ path') (content content' : Slot) (slots : Slots) :
    setAt typeOf defaults content' e path' (setAt typeOf defaults content e path slots) =
      setAt typeOf defaults content e path (setAt typeOf defaults content' e path' slots) := by
  induction h generalizing path' slots with
  | @basic e name a type nullable ha hkind =>
    cases h' with
    | @basic _ name' =>
      have hname : name ≠ name' := fun hname => hne (hname ▸ rfl)
      exact setAt_comm_of_ne (.basic ha hkind) (.basic ‹_› ‹_›) hname content content' slots
    | @one _ target name' a' path' _ _ ha' hkind' h' =>
      have hname : name ≠ name' := ne_of_kind_ne ha ha' (by simp [hkind, hkind'])
      exact setAt_comm_of_ne (.basic ha hkind) (.one ha' hkind' h') hname content content' slots
  | @one e target name a path type nullable ha hkind h ih =>
    cases h' with
    | @basic _ name' a' _ _ ha' hkind' =>
      have hname : name ≠ name' := ne_of_kind_ne ha ha' (by simp [hkind, hkind'])
      exact setAt_comm_of_ne (.one ha hkind h) (.basic ha' hkind') hname content content' slots
    | @one _ target' name' a' path' _ _ ha' hkind' h' =>
      by_cases hname : name = name'
      · subst hname
        obtain rfl := Option.some.inj (ha.symm.trans ha')
        obtain ⟨rfl, -⟩ := AttributeKind.relation.inj (hkind.symm.trans hkind')
        have hpaths : path ≠ path' := fun hpath => hne (hpath ▸ rfl)
        rw [setAt_setAt ha hkind h.ne_nil h'.ne_nil, setAt_setAt ha hkind h'.ne_nil h.ne_nil,
          ih h' hpaths]
      · exact setAt_comm_of_ne (.one ha hkind h) (.one ha' hkind' h') hname content content' slots

end SetAt

end Schema

/-! ## Columns under dotted paths -/

namespace Target

open Projectable Schema

/-- A path is not cut after a name that goes beyond its first point. -/
theorem length_le_of_after? {name segment : String} {rest : List Char}
    (hname : '.' ∉ name.toList) (h : (after? name.toList (segment.toList ++ '.' :: rest)).isSome) :
    name.length ≤ segment.length := by
  obtain ⟨tail, htail⟩ := Option.isSome_iff_exists.1 h
  obtain ⟨c, -, hpath⟩ := after?_eq_some.1 htail
  rw [← String.length_toList, ← String.length_toList]
  rcases List.append_eq_append_iff.1 hpath with ⟨more, hmore, hpoint⟩ | ⟨more, hmore, -⟩
  · cases more with
    | nil => simp [hmore]
    | cons d more =>
      obtain ⟨rfl, -⟩ := List.cons.inj hpoint
      exact absurd (by simp [hmore]) hname
  · simp [hmore]

variable {e target : E} {a : Attribute E} {segment : String}

/-- A dotted path is cut at its first point. -/
theorem cut?_of_point (embed : E → T) (typeOf : E → String)
    (ha : attribute? e segment = some a) (hkind : a.kind = .relation target false)
    (rest : String) : ∃ c,
      (Schema.target embed (typeOf e) e).cut? (segment ++ "." ++ rest).toList = some c ∧
      c.property = .nested segment (embed target) ∧ c.rest = rest.toList := by
  have hpath : (segment ++ "." ++ rest).toList = segment.toList ++ '.' :: rest.toList := by
    simp [String.toList_append]
  rw [hpath]
  exact cut?_of_after embed typeOf ha hkind (after?_eq_some.2 ⟨'.', .inr rfl, rfl⟩)
    fun b hb => length_le_of_after? (identified e b hb).point_notMem

/-- No attribute has a point in its name. -/
theorem attribute?_point (e : E) (segment rest : String) :
    attribute? e (segment ++ "." ++ rest) = none := by
  refine attribute?_eq_none fun h => h.point_notMem ?_
  simp [String.toList_append]

end Target

namespace Schema

variable {e : E} {path : List String} {type : ScalarType} {nullable : Bool}

theorem Leads.intercalate_ne_empty (h : Leads e path type nullable) :
    ".".intercalate path ≠ "" := by
  cases h with
  | basic ha hkind =>
    rw [String.intercalate_singleton]
    exact (isIdentifier_of_attribute? ha).ne_empty
  | one ha hkind h =>
    obtain ⟨next, path, rfl⟩ := List.exists_cons_of_ne_nil h.ne_nil
    simp [String.intercalate_cons_cons, (isIdentifier_of_attribute? ha).ne_empty]

/-- The targets of entities have the attributes of the entities for properties.  Their default
instances hold whatever they hold, but none behind a relationship to one. -/
structure Targets [Projectable T] (embed : E → T) (typeOf : E → String) (defaults : E → Slots) :
    Prop where
  target : ∀ e, Projectable.target (embed e) =
    { Schema.target embed (typeOf e) e with default? := some (defaults e) }
  vacant : ∀ {e name a target}, attribute? e name = some a → a.kind = .relation target false →
    ∀ type inner, (defaults e).get name ≠ .one type inner

/-- Entities have such targets, with the slots that nothing is stored in for defaults. -/
theorem Targets.of_target [Projectable T] {embed : E → T} {typeOf : E → String}
    (h : ∀ e, Projectable.target (embed e) = Schema.target embed (typeOf e) e) :
    Targets embed typeOf defaults where
  target := h
  vacant ha hkind type inner := by
    rw [get_defaults, ha, Option.map_some, Option.getD_some, Attribute.initial, hkind]
    exact Slot.noConfusion

end Schema

namespace Target

open Projectable Schema

variable [Projectable T] {embed : E → T} {typeOf : E → String} {defaults : E → Slots}
  (hT : Targets embed typeOf defaults)

section Apply

variable {e : E} {a : Attribute E} {name : String} {path : List String} {type : ScalarType}
  {nullable : Bool}

include hT

/-- The targets have a property for every attribute, and no others. -/
theorem property?_of_targets (e : E) (name : String) :
    (Projectable.target (embed e)).property? name =
      (attribute? e name).map (Attribute.property embed) := by
  rw [hT.target, ← property?_target embed (typeOf e) e name]
  rfl

theorem property?_setter (ha : attribute? e name = some a) (hkind : a.kind = .basic type nullable) :
    (Projectable.target (embed e)).property? name = some (.setter name type nullable) := by
  obtain ⟨-, rfl⟩ := mem_of_attribute? ha
  rw [property?_of_targets hT, ha, Option.map_some, Attribute.property, hkind]

theorem property?_nested {target : E} (ha : attribute? e name = some a)
    (hkind : a.kind = .relation target false) :
    (Projectable.target (embed e)).property? name = some (.nested name (embed target)) := by
  obtain ⟨-, rfl⟩ := mem_of_attribute? ha
  rw [property?_of_targets hT, ha, Option.map_some, Attribute.property, hkind]
  rfl

/-- An instance is entered where it is held, or else made new. -/
theorem enter?_of_targets (e : E) (held : Slot) :
    enter? (embed e) held = some (entered defaults e held) := by
  have hdefault : (Projectable.target (embed e)).default? = some (defaults e) := by
    rw [hT.target]
  cases held with
  | one => rfl
  | scalar | absent | many => exact hdefault

/-- A column under a dotted path stores what is read for the attribute, if it can be read. -/
theorem apply_leads (h : Leads e path type nullable) (slots : Slots)
    (v : Value) :
    (∀ content, readSlot type nullable v = .ok content →
      apply (embed e) slots (".".intercalate path).toList v =
        (setAt typeOf defaults content e path slots, none)) ∧
    (∀ error, readSlot type nullable v = .error error →
      (apply (embed e) slots (".".intercalate path).toList v).2.isSome) := by
  induction h generalizing slots with
  | @basic e name a type nullable ha hkind =>
    have hproperty : (Projectable.target (embed e)).property? (String.ofList name.toList) =
        some (.setter name type nullable) := by
      rw [String.ofList_toList, property?_setter hT ha hkind]
    rw [String.intercalate_singleton, apply_of_property hproperty, assign, readProperty]
    refine ⟨fun content hread => ?_, fun error hread => ?_⟩ <;> rw [hread]
    · rfl
    · rfl
  | @one e target name a path type nullable ha hkind h ih =>
    have hsplit : ".".intercalate (name :: path) = name ++ "." ++ ".".intercalate path := by
      obtain ⟨next, path, rfl⟩ := List.exists_cons_of_ne_nil h.ne_nil
      exact String.intercalate_cons_cons
    obtain ⟨c, hc, hproperty, hcrest⟩ :=
      cut?_of_point embed typeOf ha hkind (".".intercalate path)
    have hwhole : (Projectable.target (embed e)).property?
        (String.ofList (name ++ "." ++ ".".intercalate path).toList) = none := by
      rw [String.ofList_toList, property?_of_targets hT, attribute?_point, Option.map_none]
    have hcut : (Projectable.target (embed e)).cut? (name ++ "." ++ ".".intercalate path).toList =
        some c := by
      rw [hT.target]
      exact hc
    have hne : c.rest ≠ [] := by
      rw [hcrest]
      exact mt String.toList_eq_nil_iff.1 (h.intercalate_ne_empty)
    rw [hsplit, apply_of_nested hwhole hcut hne hproperty (enter?_of_targets hT target _), hcrest]
    obtain ⟨hok, herror⟩ := ih (entered defaults target (slots.get name))
    refine ⟨fun content hread => ?_, herror⟩
    rw [hok content hread, setAt_cons ha hkind h.ne_nil, hT.target]
    rfl

end Apply

/-- A column under the dotted path of an attribute. -/
def dotted (c : List String × Value) : Column := ⟨some (".".intercalate c.1), c.2⟩

include hT in
/-- Columns are stored one after the other, all or nothing. -/
theorem applyColumns_eq_ok_iff {e : E} {cs : List (List String × Value)}
    (hcs : ∀ c ∈ cs, ∃ type nullable, Leads e c.1 type nullable) (slots : Slots) (index : Nat)
    (i : Slots) : applyColumns (embed e) slots index (cs.map dotted) = .ok i ↔
      (∀ c ∈ cs, (read e c).isSome) ∧ cs.foldl (store typeOf defaults e) slots = i := by
  induction cs generalizing slots index with
  | nil => simp [applyColumns]
  | cons c cs ih =>
    obtain ⟨⟨type, nullable, hc⟩, hrest⟩ := List.forall_mem_cons.1 hcs
    obtain ⟨hok, herror⟩ := apply_leads hT hc slots c.2
    have hread : read e c = (readSlot type nullable c.2).toOption := hc.read c.2
    rw [List.map_cons, applyColumns, List.forall_mem_cons, List.foldl_cons]
    simp only [dotted]
    cases hv : readSlot type nullable c.2 with
    | ok content =>
      rw [hv] at hread
      have hstore : store typeOf defaults e slots c =
          setAt typeOf defaults content e c.1 slots := by
        rw [store, hread]
        rfl
      rw [hok content hv, hstore, hread, and_assoc]
      exact (ih hrest _ (index + 1)).trans (and_iff_right rfl).symm
    | error cause =>
      rw [hv] at hread
      have hrefused := herror cause hv
      rw [hread]
      generalize apply (embed e) slots (".".intercalate c.1).toList c.2 = applied at hrefused
      obtain ⟨_, _ | _⟩ := applied
      · cases hrefused
      · refine iff_of_false (fun h => ?_) fun h => absurd h.1.1 Bool.false_ne_true
        cases h

end Target

end EntityQuery
