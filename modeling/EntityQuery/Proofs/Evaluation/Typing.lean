import EntityQuery.Evaluation
import EntityQuery.Proofs.GraphQuery.WellFormed
import EntityQuery.Proofs.Scalar

/-! # Typed records and tuples

A record of an entity has a value of its type, or null, under every attribute, and behind every
relationship records of the target.  Tuples fit a level if every slot that is filled holds a record
of the entity that the level names there; on such tuples paths have values of their types. -/

namespace EntityQuery

variable {E : Type}

/-- More slots change nothing at a node that has one. -/
theorem Tuple.record?_append {root : E} {before : List (JoinNode E)} {node : Node} {e : E}
    {t : Tuple} (hn : Level.entity? ⟨root, before⟩ node = some e)
    (ht : t.length = before.length + 1) (slots : Tuple) : record? (t ++ slots) node = t.record? node := by
  have hslot : node.slot < t.length := by
    rw [ht]
    cases node with
    | root => exact Nat.zero_lt_succ _
    | join index =>
      obtain ⟨m, hm, -⟩ := Option.map_eq_some_iff.1 hn
      exact Nat.succ_lt_succ (List.getElem?_eq_some_iff.1 hm).1
  rw [record?, List.getElem?_append_left hslot, record?]

variable [Schema E]

/-! ## Records -/

mutual

/-- A record of an entity, as deep as its relationships go. -/
inductive Record.Of : E → Record → Prop
  | intro {e : E} {r : Record} (entity : r.entity = Schema.name e)
      (attributes : ∀ name a, Schema.attribute? e name = some a →
        AttributeKind.Admits a.kind (r.get name)) : Record.Of e r

/-- A value that an attribute may hold. -/
inductive AttributeKind.Admits : AttributeKind E → Value → Prop
  | null (kind : AttributeKind E) : AttributeKind.Admits kind .null
  | basic {type : ScalarType} {nullable : Bool} {v : Value} (h : v.scalarType? = some type) :
      AttributeKind.Admits (.basic type nullable) v
  | one {target : E} {r : Record} (h : Record.Of target r) :
      AttributeKind.Admits (.relation target false) r.toValue
  | many {target : E} {rs : List Record} (h : ∀ r ∈ rs, Record.Of target r) :
      AttributeKind.Admits (.relation target true) (.list (rs.map Record.toValue))

end

/-- A record of an entity has in each field what the attribute admits. -/
theorem Record.Of.get {e : E} {r : Record} (h : r.Of e) {name : String} {a : Attribute E}
    (ha : Schema.attribute? e name = some a) : a.kind.Admits (r.get name) := by
  cases h with
  | intro entity attributes => exact attributes name a ha

theorem Record.Of.of_attributes {e : E} {r : Record} (entity : r.entity = Schema.name e)
    (attributes : ∀ a ∈ Schema.attributes e, a.kind.Admits (r.get a.name)) : r.Of e := by
  refine .intro entity fun name a ha => ?_
  rw [Schema.attribute?] at ha
  obtain rfl : a.name = name := by simpa using List.find?_some ha
  exact attributes a (List.mem_of_find?_eq_some ha)

variable (E) in
/-- Every record that is stored under an entity is one of it. -/
def Dataset.WellTyped (data : Dataset) : Prop :=
  ∀ e : E, ∀ r ∈ data.records (Schema.name e), r.Of e

/-- Null leads to null. -/
theorem Value.along_null (attributes : List String) : Value.null.along attributes = .null := by
  cases attributes <;> rfl

/-- Attributes that lead to a type lead to null or a value of it. -/
theorem Walks.hasType {e : E} {attributes : List String} {type? : Option ScalarType}
    (h : Walks e attributes type?) {r : Record} (hr : r.Of e) {type : ScalarType}
    (ht : type? = some type) : (r.toValue.along attributes).HasType type := by
  induction h generalizing r with
  | rows e => exact absurd ht nofun
  | @basic e name a declared ha hdeclared =>
    obtain rfl := Option.some.inj ht
    obtain ⟨aname, kind⟩ := a
    change (r.get name).HasType declared
    have hadmits := hr.get ha
    generalize r.get name = v at hadmits
    cases hadmits with
    | null => exact .inl rfl
    | basic h => exact .inr (h.trans hdeclared)
    | one | many => exact absurd hdeclared nofun
  | @relationship e target name a rest type? ha htarget hrest ih =>
    obtain ⟨aname, kind⟩ := a
    change ((r.get name).along rest).HasType type
    have hadmits := hr.get ha
    generalize r.get name = v at hadmits
    cases hadmits with
    | null => exact .inl (Value.along_null rest)
    | basic => exact absurd htarget nofun
    | one h =>
      obtain rfl := Option.some.inj htarget
      exact ih h ht
    | many h =>
      -- Nothing lies behind a list, so a path that goes on ends in null.
      cases hrest with
      | rows => exact absurd ht nofun
      | basic | relationship => exact .inl rfl

/-- The records behind a relationship are records of its target. -/
theorem AttributeKind.Admits.heldRecords {a : Attribute E} {v : Value} (h : a.kind.Admits v)
    {target : E} (ht : a.target? = some target) :
    ∀ r ∈ JoinNode.heldRecords v, r.Of target := by
  obtain ⟨name, kind⟩ := a
  cases h with
  | null => exact nofun
  | basic => exact absurd ht nofun
  | one h =>
    obtain rfl := Option.some.inj ht
    exact List.forall_mem_singleton.2 h
  | many h =>
    obtain rfl := Option.some.inj ht
    intro r hr
    obtain ⟨v, hv, hr⟩ := List.mem_filterMap.1 hr
    obtain ⟨s, hs, rfl⟩ := List.mem_map.1 hv
    obtain rfl := Option.some.inj hr
    exact h s hs

/-! ## Tuples -/

/-- A slot for the root and for every join, each empty or with a record of its entity. -/
structure Tuple.Fits (l : Level E) (t : Tuple) : Prop where
  length : t.length = l.joins.length + 1
  slots : ∀ node e r, l.entity? node = some e → Tuple.record? t node = some r → r.Of e

namespace Tuple

variable {root : E} {before : List (JoinNode E)} {n : JoinNode E} {t : Tuple}

/-- One more slot for one more join. -/
theorem Fits.push (h : Tuple.Fits ⟨root, before⟩ t) {slot? : Option Record}
    (hs : ∀ r ∈ slot?, r.Of n.entity) : Fits ⟨root, before ++ [n]⟩ (t ++ [slot?]) where
  length := by
    rw [List.length_append, h.length, List.length_append]
    rfl
  slots node e r hn hr := by
    cases hold : Level.entity? ⟨root, before⟩ node with
    | some e' =>
      obtain rfl : e' = e := Option.some.inj ((Level.entity?_append hold [n]).symm.trans hn)
      rw [record?_append hold h.length] at hr
      exact h.slots node e' r hold hr
    | none =>
      cases node with
      | root => exact absurd hold nofun
      | join index =>
        have hindex : index = before.length := by
          have hge := List.getElem?_eq_none_iff.1 (Option.map_eq_none_iff.1 hold)
          obtain ⟨m, hm, -⟩ := Option.map_eq_some_iff.1 hn
          have hlt := (List.getElem?_eq_some_iff.1 hm).1
          rw [List.length_append, List.length_singleton] at hlt
          exact Nat.le_antisymm (Nat.le_of_lt_succ hlt) hge
        subst hindex
        obtain rfl := Option.some.inj ((Level.entity?_next root before n).symm.trans hn)
        rw [record?, Node.slot, ← h.length, List.getElem?_concat_length] at hr
        exact hs r hr

/-- A tuple of no records fits every level. -/
theorem Fits.empty (l : Level E) : Fits l (List.replicate (l.joins.length + 1) none) where
  length := List.length_replicate
  slots node e r _ hr := by
    rw [record?, List.getElem?_replicate] at hr
    split at hr <;> exact absurd hr nofun

theorem Fits.single {r : Record} (hr : r.Of root) : Fits ⟨root, []⟩ [some r] where
  length := rfl
  slots node e s hn hs := by
    cases node with
    | root =>
      obtain rfl := Option.some.inj hn
      obtain rfl := Option.some.inj hs
      exact hr
    | join index => exact absurd hn nofun

end Tuple

/-! ## Paths -/

/-- A well-formed path has a value of its type, or null. -/
theorem Path.WellFormed.hasType {outer : List (Level E)} {l : Level E} {frames : Frames}
    {t : Tuple} {p : Path} (hp : p.WellFormed (outer ++ [l]))
    (hf : List.Forall₂ Tuple.Fits outer frames) (ht : Tuple.Fits l t) {type : ScalarType}
    (htype : p.type? = some type) : (p.value frames t).HasType type := by
  obtain ⟨e, he, hwalks⟩ := hp
  obtain ⟨k, hk, hentity⟩ := Option.bind_eq_some_iff.1 he
  have hfits : Tuple.Fits k (p.tuple frames t) := by
    rw [tuple]
    rcases Nat.lt_or_ge p.origin.depth outer.length with hd | hd
    · have hd' : p.origin.depth < frames.length := hf.length_eq ▸ hd
      rw [List.getElem?_append_left hd, List.getElem?_eq_getElem hd] at hk
      obtain rfl := Option.some.inj hk
      rw [List.getElem?_eq_getElem hd']
      exact hf.get hd hd'
    · have hlt := (List.getElem?_eq_some_iff.1 hk).1
      rw [List.length_append] at hlt
      have hlast : p.origin.depth = outer.length := Nat.le_antisymm (Nat.le_of_lt_succ hlt) hd
      rw [hlast, List.getElem?_concat_length] at hk
      obtain rfl := Option.some.inj hk
      rw [List.getElem?_eq_none (hf.length_eq ▸ hd)]
      exact ht
  rw [value]
  split
  · rename_i r hr
    exact hwalks.hasType (hfits.slots _ e r hentity hr) htype
  · exact .inl rfl

end EntityQuery
