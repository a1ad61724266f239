import EntityQuery.Proofs.Projection.DottedPath
import Mathlib.Data.List.Forall2
import Mathlib.Data.List.Nodup
import Mathlib.Data.List.Perm.Basic

/-! # Columns and records

A record without collections can be given as a whole, or as one column for each of its basic
attributes.  The record is hydrated from the inside, a nested instance being complete before it is
stored; columns store one content after the other, each at the end of its path.  Both come to the
same instance, whatever order the columns are in (`Target.ofRow_columns_iff`). -/

namespace EntityQuery

variable {E T : Type}

/-- Where no instance is held, a new one is entered. -/
theorem Schema.entered_of_ne {e : E} {defaults : E → Slots} {held : Slot}
    (h : ∀ type inner, held ≠ .one type inner) : entered defaults e held = defaults e := by
  cases held with
  | one type inner => exact absurd rfl (h type inner)
  | scalar | absent | many => rfl

variable [Schema E]

/-! ## Records without collections -/

mutual

/-- The values in a value that are no records, each with the path that leads to it. -/
def Value.columns : Value → List (List String × Value)
  | .record _ fields => Fields.columns fields
  | v => [([], v)]

def Fields.columns : List (String × Value) → List (List String × Value)
  | [] => []
  | (name, v) :: fields =>
    ((Value.columns v).map fun c => (name :: c.1, c.2)) ++ Fields.columns fields

end

/-- The basic attributes in a record under their dotted paths. -/
def Record.columns (r : Record) : List (String × Value) :=
  (Fields.columns r.fields).map fun c => (".".intercalate c.1, c.2)

/-- Columns in another order come from pairs of a path and a value in that order. -/
theorem Record.exists_perm_columns {r : Record} {cs : List (String × Value)}
    (h : cs.Perm r.columns) : ∃ cols : List (List String × Value),
      cs = cols.map (fun c => (".".intercalate c.1, c.2)) ∧
        cols.Perm (Fields.columns r.fields) := by
  have hall : List.Forall₂ (fun c col => c = (".".intercalate col.1, col.2)) r.columns
      (Fields.columns r.fields) :=
    List.forall₂_map_left_iff.2 (List.forall₂_same.2 fun _ _ => rfl)
  obtain ⟨cols, hcols, hperm⟩ := List.perm_comp_forall₂ h hall
  refine ⟨cols, ?_, hperm⟩
  rw [← List.forall₂_eq_eq_eq, List.forall₂_map_right_iff]
  exact hcols

/-- The fields of a record without collections: scalars and null under basic attributes, and under
relationships to one again such records, with a basic attribute each. -/
inductive Schema.Flat : E → List (String × Value) → Prop
  | nil (e : E) : Flat e []
  | basic {e : E} {name : String} {a : Attribute E} {type : ScalarType} {nullable : Bool}
      {v : Value} {fields : List (String × Value)} (ha : attribute? e name = some a)
      (hkind : a.kind = .basic type nullable) (hv : v = .null ∨ ∃ s, v = .scalar s)
      (hname : name ∉ fields.map Prod.fst) (h : Flat e fields) : Flat e ((name, v) :: fields)
  | one {e target : E} {name entity : String} {a : Attribute E}
      {inner fields : List (String × Value)} (ha : attribute? e name = some a)
      (hkind : a.kind = .relation target false) (hinner : Flat target inner)
      (hsome : Fields.columns inner ≠ []) (hname : name ∉ fields.map Prod.fst)
      (h : Flat e fields) : Flat e ((name, .record entity inner) :: fields)

namespace Schema

variable {e : E} {fields : List (String × Value)}

/-- The path of a column begins with the name of a field. -/
theorem exists_of_mem_columns {fields : List (String × Value)} {c : List String × Value}
    (hc : c ∈ Fields.columns fields) :
    ∃ name path, c.1 = name :: path ∧ name ∈ fields.map Prod.fst := by
  induction fields with
  | nil => cases hc
  | cons field fields ih =>
    rw [Fields.columns] at hc
    rcases List.mem_append.1 hc with hc | hc
    · obtain ⟨inner, -, rfl⟩ := List.mem_map.1 hc
      exact ⟨field.1, inner.1, rfl, List.mem_cons_self⟩
    · obtain ⟨name, path, hpath, hmem⟩ := ih hc
      exact ⟨name, path, hpath, List.mem_cons_of_mem _ hmem⟩

/-- A value that is no record is one column, without a name. -/
theorem columns_of_basic {v : Value} (hv : v = .null ∨ ∃ s, v = .scalar s) :
    v.columns = [([], v)] := by
  obtain rfl | ⟨s, rfl⟩ := hv <;> rfl

/-- Every column of a record leads to a basic attribute. -/
theorem Flat.leads (h : Flat e fields) :
    ∀ c ∈ Fields.columns fields, ∃ type nullable, Leads e c.1 type nullable := by
  induction h with
  | nil => exact List.forall_mem_nil _
  | @basic e name a type nullable v fields ha hkind hv hname h ih =>
    rw [Fields.columns, columns_of_basic hv]
    exact List.forall_mem_append.2 ⟨List.forall_mem_singleton.2 ⟨_, _, .basic ha hkind⟩, ih⟩
  | @one e target name entity a inner fields ha hkind hinner hsome hname h ihinner ih =>
    rw [Fields.columns, Value.columns]
    refine List.forall_mem_append.2 ⟨List.forall_mem_map.2 fun c hc => ?_, ih⟩
    obtain ⟨type, nullable, hleads⟩ := ihinner c hc
    exact ⟨type, nullable, .one ha hkind hleads⟩

/-- Every column of a record holds a scalar or null. -/
theorem Flat.basics (h : Flat e fields) :
    ∀ c ∈ Fields.columns fields, c.2 = .null ∨ ∃ s, c.2 = .scalar s := by
  induction h with
  | nil => exact List.forall_mem_nil _
  | @basic e name a type nullable v fields ha hkind hv hname h ih =>
    rw [Fields.columns, columns_of_basic hv]
    exact List.forall_mem_append.2 ⟨List.forall_mem_singleton.2 hv, ih⟩
  | @one e target name entity a inner fields ha hkind hinner hsome hname h ihinner ih =>
    rw [Fields.columns, Value.columns]
    exact List.forall_mem_append.2 ⟨List.forall_mem_map.2 ihinner, ih⟩

/-- Columns of different fields have different names. -/
theorem nodup_columns_cons {name : String} {v : Value} (hname : name ∉ fields.map Prod.fst)
    (hv : (v.columns.map Prod.fst).Nodup) (h : ((Fields.columns fields).map Prod.fst).Nodup) :
    ((Fields.columns ((name, v) :: fields)).map Prod.fst).Nodup := by
  have hbehind : (v.columns.map fun c => (name :: c.1, c.2)).map Prod.fst =
      (v.columns.map Prod.fst).map (List.cons name) := by
    rw [List.map_map, List.map_map]
    rfl
  rw [Fields.columns, List.map_append, hbehind, List.nodup_append]
  refine ⟨hv.map (List.cons_injective), h, ?_⟩
  intro path hpath path' hpath' hsame
  obtain ⟨rest, -, rfl⟩ := List.mem_map.1 hpath
  obtain ⟨c, hc, rfl⟩ := List.mem_map.1 hpath'
  obtain ⟨other, _, hother, hmem⟩ := exists_of_mem_columns hc
  obtain ⟨rfl, -⟩ := List.cons.inj (hsame.trans hother)
  exact hname hmem

/-- No two columns of a record have the same path. -/
theorem Flat.nodup (h : Flat e fields) : ((Fields.columns fields).map Prod.fst).Nodup := by
  induction h with
  | nil => exact List.nodup_nil
  | @basic e name a type nullable v fields ha hkind hv hname h ih =>
    refine nodup_columns_cons hname ?_ ih
    rw [columns_of_basic hv]
    exact List.nodup_singleton _
  | @one e target name entity a inner fields ha hkind hinner hsome hname h ihinner ih =>
    exact nodup_columns_cons hname ihinner ih

section Store

variable {target : E} {a : Attribute E} {name : String} {typeOf : E → String}
  {defaults : E → Slots}

/-- A column behind a relationship is stored in the instance there. -/
theorem store_cons (ha : attribute? e name = some a) (hkind : a.kind = .relation target false)
    {c : List String × Value} (hc : c.1 ≠ []) (slots : Slots) :
    store typeOf defaults e slots (name :: c.1, c.2) = slots.put name (.one (typeOf target)
      (store typeOf defaults target (entered defaults target (slots.get name)) c)) := by
  rw [store, setAt_cons ha hkind hc, read_cons ha hkind hc, store]

/-- Columns behind one relationship are stored in the instance that its slot holds. -/
theorem foldl_store_cons (ha : attribute? e name = some a)
    (hkind : a.kind = .relation target false) {cs : List (List String × Value)}
    (hcs : ∀ c ∈ cs, c.1 ≠ []) (hne : cs ≠ []) (slots : Slots) :
    (cs.map fun c => (name :: c.1, c.2)).foldl (store typeOf defaults e) slots =
      slots.put name (.one (typeOf target)
        (cs.foldl (store typeOf defaults target) (entered defaults target (slots.get name)))) := by
  induction cs generalizing slots with
  | nil => exact absurd rfl hne
  | cons c cs ih =>
    obtain ⟨hc, hrest⟩ := List.forall_mem_cons.1 hcs
    rw [List.map_cons, List.foldl_cons, List.foldl_cons, store_cons ha hkind hc]
    cases cs with
    | nil => rfl
    | cons c' cs =>
      rw [ih hrest (List.cons_ne_nil c' cs)]
      by_cases hkey : name ∈ slots.map Prod.fst
      · rw [Slots.get_put_self hkey, Slots.put_put_self, entered]
      · -- what has no slot is default again for every column, and is not stored
        simp only [Slots.put_of_notMem hkey]

end Store

/-- Nothing is held behind a relationship to one that a field is for. -/
def Vacant (e : E) (slots : Slots) (fields : List (String × Value)) : Prop :=
  ∀ name ∈ fields.map Prod.fst, ∀ a target, attribute? e name = some a →
    a.kind = .relation target false → ∀ type inner, slots.get name ≠ .one type inner

theorem Vacant.put {slots : Slots} {name : String} {v : Value}
    (h : Vacant e slots ((name, v) :: fields)) (hname : name ∉ fields.map Prod.fst)
    (content : Slot) : Vacant e (slots.put name content) fields := by
  intro other hother a target ha hkind type inner
  have hne : other ≠ name := fun hsame => hname (hsame ▸ hother)
  rw [Slots.get_put_of_ne hne]
  exact h other (List.mem_cons_of_mem _ hother) a target ha hkind type inner

end Schema

namespace Target

open Projectable Schema

variable [Projectable T] {embed : E → T} {typeOf : E → String} {defaults : E → Slots}
  (hT : Targets embed typeOf defaults)

include hT

/-- A record is hydrated whatever entity it says it is of. -/
theorem ofValue_record (e : E) (entity : String) (fields : List (String × Value)) :
    ofValue (embed e) (.record entity fields) = hydrate (embed e) (defaults e) fields := by
  rw [ofValue, hT.target]

/-- A basic field is hydrated if its column can be read, and stored where the column is. -/
theorem hydrate_basic_eq_ok_iff {e : E} {name : String} {a : Attribute E} {type : ScalarType}
    {nullable : Bool} (ha : attribute? e name = some a) (hkind : a.kind = .basic type nullable)
    (v : Value) (fields : List (String × Value)) (slots i : Slots) :
    hydrate (embed e) slots ((name, v) :: fields) = .ok i ↔
      (read e ([name], v)).isSome ∧
        hydrate (embed e) (store typeOf defaults e slots ([name], v)) fields = .ok i := by
  have hread : read e ([name], v) = (readSlot type nullable v).toOption :=
    (Leads.basic ha hkind).read v
  rw [hydrate, property?_setter hT ha hkind, store, hread]
  simp only [readProperty]
  cases readSlot type nullable v with
  | ok content => exact (and_iff_right rfl).symm
  | error cause =>
    refine iff_of_false (fun h => ?_) fun h => absurd h.1 Bool.false_ne_true
    cases h

/-- A record behind a relationship to one is hydrated by itself and is stored when it is complete.
-/
theorem hydrate_one_eq_ok_iff {e target : E} {name : String} {a : Attribute E}
    (ha : attribute? e name = some a) (hkind : a.kind = .relation target false) (entity : String)
    (inner fields : List (String × Value)) (slots i : Slots) :
    hydrate (embed e) slots ((name, .record entity inner) :: fields) = .ok i ↔
      ∃ j, hydrate (embed target) (defaults target) inner = .ok j ∧
        hydrate (embed e) (slots.put name (.one (typeOf target) j)) fields = .ok i := by
  have htype : (Projectable.target (embed target)).type = typeOf target := by
    rw [hT.target]
    rfl
  rw [hydrate, property?_nested hT ha hkind]
  simp only [Value.isNull, ofValue_record hT, htype]
  cases hydrate (embed target) (defaults target) inner with
  | ok j =>
    constructor
    · intro h
      exact ⟨j, rfl, h⟩
    · rintro ⟨j, ⟨⟩, h⟩
      exact h
  | error cause =>
    refine iff_of_false (fun h => ?_) ?_
    · cases h
    · rintro ⟨j, ⟨⟩, -⟩

/-- A record comes to what its columns come to in the order of its fields. -/
theorem hydrate_eq_ok_iff {e : E} {fields : List (String × Value)} (h : Flat e fields)
    {slots : Slots} (hvacant : Vacant e slots fields) (i : Slots) :
    hydrate (embed e) slots fields = .ok i ↔
      (∀ c ∈ Fields.columns fields, (read e c).isSome) ∧
        (Fields.columns fields).foldl (store typeOf defaults e) slots = i := by
  induction h generalizing slots i with
  | nil e => simp [hydrate, Fields.columns]
  | @basic e name a type nullable v fields ha hkind hv hname h ih =>
    have hstored : Vacant e (store typeOf defaults e slots ([name], v)) fields :=
      hvacant.put hname _
    rw [hydrate_basic_eq_ok_iff hT ha hkind, ih hstored, Fields.columns, columns_of_basic hv,
      List.map_singleton, List.singleton_append, List.forall_mem_cons, List.foldl_cons, and_assoc]
  | @one e target name entity a inner fields ha hkind hinner hsome hname h ihinner ih =>
    have hpaths : ∀ c ∈ Fields.columns inner, c.1 ≠ [] := by
      intro c hc
      obtain ⟨type, nullable, hleads⟩ := hinner.leads c hc
      exact hleads.ne_nil
    have hnew : entered defaults target (slots.get name) = defaults target :=
      entered_of_ne (hvacant name List.mem_cons_self a target ha hkind)
    have hnone : Vacant target (defaults target) inner := fun _ _ _ _ hb hb' =>
      hT.vacant hb hb'
    have hreads : (∀ c ∈ (Fields.columns inner).map fun c => (name :: c.1, c.2),
        (read e c).isSome) ↔ ∀ c ∈ Fields.columns inner, (read target c).isSome := by
      rw [List.forall_mem_map]
      exact forall₂_congr fun c hc => by rw [read_cons ha hkind (hpaths c hc)]
    rw [hydrate_one_eq_ok_iff hT ha hkind, Fields.columns, Value.columns,
      List.forall_mem_append, List.foldl_append, hreads,
      foldl_store_cons ha hkind hpaths hsome, hnew, and_assoc]
    simp only [ihinner hnone, ih (hvacant.put hname _), and_assoc, exists_and_left,
      exists_eq_left']

variable {e : E}

/-- One column with a record is the record. -/
theorem ofRow_single (r : Record) :
    ofRow (embed e) (Row.single r.toValue) = hydrate (embed e) (defaults e) r.fields :=
  ofValue_record hT e r.entity r.fields

/-- Columns with names are applied one by one. -/
theorem ofRow_dotted {cs : List (List String × Value)} (hne : cs ≠ [])
    (hcs : ∀ c ∈ cs, c.2 = .null ∨ ∃ s, c.2 = .scalar s) :
    ofRow (embed e) ⟨cs.map dotted⟩ = applyColumns (embed e) (defaults e) 0 (cs.map dotted) := by
  have hbuild : ofRow.build (embed e) ⟨cs.map dotted⟩ =
      applyColumns (embed e) (defaults e) 0 (cs.map dotted) := by
    rw [ofRow.build, hT.target]
    rfl
  obtain ⟨c, rest, rfl⟩ := List.exists_cons_of_ne_nil hne
  obtain ⟨path, v⟩ := c
  rw [← hbuild]
  obtain rfl | ⟨s, rfl⟩ := hcs _ List.mem_cons_self
  · cases rest <;> rfl
  · cases rest <;> rfl

end Target

/-! ## A horse and its keeper -/

namespace Stable

open Target Schema

/-- A horse with the number of its keeper beside the keeper. -/
def kept : Record :=
  ⟨"Horse", [("id", .long 1),
    ("keeper", .record "Person" [("id", .long 7), ("name", .string "Ada")]),
    ("keeper_id", .long 7)]⟩

theorem flat_kept : Flat horse kept.fields := by
  refine .basic rfl rfl (.inr ⟨_, rfl⟩) (by decide) (.one rfl rfl ?_ (List.cons_ne_nil _ _)
    (by decide) (.basic rfl rfl (.inr ⟨_, rfl⟩) (by decide) (.nil _)))
  exact .basic rfl rfl (.inr ⟨_, rfl⟩) (by decide)
    (.basic rfl rfl (.inr ⟨_, rfl⟩) (by decide) (.nil _))

end Stable

end EntityQuery
