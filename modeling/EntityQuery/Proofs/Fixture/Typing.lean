import EntityQuery.Proofs.Evaluation.Typing
import EntityQuery.Proofs.Fixture.Loading
import EntityQuery.Proofs.Keyed

/-! # Fixtures are typed

What is read along an attribute is null or of the kind of the attribute, and a member that is no
attribute is left out, so a record that was loaded holds nothing but its attributes, as deep as its
relationships go (`Dataset.load_conforms`).  Queries may be run on it
(`Dataset.Conforms.wellTyped`). -/

namespace EntityQuery

variable {E : Type} [Schema E]

/-! ## Records of attributes -/

mutual

/-- A record of an entity that holds attributes of the entity and nothing else. -/
inductive Record.Conforms : E → Record → Prop
  | intro {e : E} {r : Record} (entity : r.entity = Schema.name e)
      (named : ∀ p ∈ r.fields, (Schema.attribute? e p.1).isSome)
      (stored : ∀ p ∈ r.fields, ∀ a, Schema.attribute? e p.1 = some a →
        AttributeKind.Stores a.kind p.2) : Record.Conforms e r

/-- A value that is stored under an attribute. -/
inductive AttributeKind.Stores : AttributeKind E → Value → Prop
  | null (kind : AttributeKind E) : AttributeKind.Stores kind .null
  | basic {type : ScalarType} {nullable : Bool} {v : Value} (h : v.scalarType? = some type) :
      AttributeKind.Stores (.basic type nullable) v
  | one {target : E} {r : Record} (h : Record.Conforms target r) :
      AttributeKind.Stores (.relation target false) r.toValue
  | many {target : E} {rs : List Record} (h : ∀ r ∈ rs, Record.Conforms target r) :
      AttributeKind.Stores (.relation target true) (.list (rs.map Record.toValue))

end

mutual

/-- Every attribute of such a record holds a value that it may hold. -/
theorem Record.Conforms.of {e : E} {r : Record} (h : r.Conforms e) : r.Of e := by
  match h with
  | .intro entity _ stored =>
    refine .intro entity fun name a ha => ?_
    rw [Record.get, Fields.get]
    split
    · rename_i p hp
      obtain rfl : p.1 = name := by simpa using List.find?_some hp
      exact (stored p (List.mem_of_find?_eq_some hp) a ha).admits
    · exact .null a.kind

/-- What is stored is admitted. -/
theorem AttributeKind.Stores.admits {kind : AttributeKind E} {v : Value} (h : kind.Stores v) :
    kind.Admits v := by
  match h with
  | .null kind => exact .null kind
  | .basic h => exact .basic h
  | .one h => exact .one h.of
  | .many h => exact .many fun r hr => (h r hr).of

end

/-! ## What is read -/

/-- A value of the kind that is read. -/
def Wanted.Holds : Wanted E → Value → Prop
  | .scalar type, v => v.scalarType? = some type
  | .record entity, v => ∃ r : Record, r.Conforms entity ∧ v = r.toValue
  | .records _ _ target, v =>
    ∃ rs : List Record, (∀ r ∈ rs, r.Conforms target) ∧ v = .list (rs.map Record.toValue)

/-- What is wanted of an attribute may be stored in it. -/
theorem Attribute.stores_of_wanted {a : Attribute E} {e : E} {v : Value}
    (h : (a.wanted e).Holds v) : a.kind.Stores v := by
  obtain ⟨name, kind⟩ := a
  cases kind with
  | basic type nullable => exact .basic h
  | relation target many =>
    cases many with
    | false =>
      obtain ⟨r, hr, rfl⟩ := h
      exact .one hr
    | true =>
      obtain ⟨rs, hrs, rfl⟩ := h
      exact .many hrs

namespace Fixture

/-- A scalar is loaded as the type that is wanted. -/
theorem scalarType?_of_scalar {type : ScalarType} {d : Document} {v : Value}
    (h : scalar type d = .ok v) : v.scalarType? = some type := by
  rw [scalar] at h
  split at h
  · obtain ⟨s, hs, rfl⟩ := Result.map_eq_ok.1 h
    exact congrArg some (Value.scalarType?_of_cast hs)
  · cases h

/-- Fields that may be stored make a record that conforms. -/
theorem conforms_ofFields {e : E} {fs : List (String × Value)}
    (h : ∀ p ∈ fs, ∃ a, Schema.attribute? e p.1 = some a ∧ a.kind.Stores p.2) :
    (Record.ofFields (Schema.name e) fs).Conforms e := by
  refine .intro rfl (fun p hp => ?_) (fun p hp a ha => ?_)
  · obtain ⟨a, ha, -⟩ := h p (Keyed.mem_of_mem_ofList hp)
    exact ha ▸ rfl
  · obtain ⟨b, hb, hstores⟩ := h p (Keyed.mem_of_mem_ofList hp)
    obtain rfl := Option.some.inj (ha.symm.trans hb)
    exact hstores

mutual

/-- Whatever is loaded is what was wanted, nested documents included. -/
theorem holds_of_value {w : Wanted E} {d : Document} {v : Value} (h : value w d = .ok v) :
    w.Holds v := by
  match w, d with
  | .scalar type, d => exact scalarType?_of_scalar (by rwa [value] at h)
  | .record entity, .object members =>
    rw [value] at h
    obtain ⟨fs, hfs, rfl⟩ := Result.map_eq_ok.1 h
    exact ⟨_, conforms_ofFields (stores_of_fields hfs), rfl⟩
  | .record entity, .null | .record entity, .bool _ | .record entity, .integer _
  | .record entity, .double _ | .record entity, .string _ | .record entity, .array _ => cases h
  | .records entity relationship target, .array items =>
    rw [value] at h
    obtain ⟨vs, hvs, rfl⟩ := Result.map_eq_ok.1 h
    obtain ⟨rs, hrs, rfl⟩ := conforms_of_records hvs
    exact ⟨rs, hrs, rfl⟩
  | .records .., .null | .records .., .bool _ | .records .., .integer _ | .records .., .double _
  | .records .., .string _ | .records .., .object _ => cases h

theorem conforms_of_records {e : E} {ds : List Document} {vs : List Value}
    (h : records e ds = .ok vs) :
    ∃ rs : List Record, (∀ r ∈ rs, r.Conforms e) ∧ vs = rs.map Record.toValue := by
  match ds with
  | [] =>
    obtain rfl := Except.ok.inj h
    exact ⟨[], List.forall_mem_nil _, rfl⟩
  | d :: ds =>
    rw [records] at h
    obtain ⟨v, hv, h⟩ := Result.bind_eq_ok.1 h
    obtain ⟨vs, hvs, h⟩ := Result.bind_eq_ok.1 h
    obtain rfl := Result.pure_eq_ok.1 h
    obtain ⟨r, hr, rfl⟩ := holds_of_value hv
    obtain ⟨rs, hrs, rfl⟩ := conforms_of_records hvs
    exact ⟨r :: rs, List.forall_mem_cons.2 ⟨hr, hrs⟩, rfl⟩

theorem stores_of_fields {e : E} {members : List (String × Document)}
    {fs : List (String × Value)} (h : fields e members = .ok fs) :
    ∀ p ∈ fs, ∃ a, Schema.attribute? e p.1 = some a ∧ a.kind.Stores p.2 := by
  match members with
  | [] =>
    obtain rfl := Except.ok.inj h
    exact List.forall_mem_nil _
  | (name, d) :: members =>
    rw [fields] at h
    split at h
    · exact stores_of_fields h
    · rename_i a ha
      have member {v : Value} (hv : a.kind.Stores v)
          (h : (do let vs ← fields e members; return (name, v) :: vs) = Except.ok fs) :
          ∀ p ∈ fs, ∃ a, Schema.attribute? e p.1 = some a ∧ a.kind.Stores p.2 := by
        obtain ⟨vs, hvs, h⟩ := Result.bind_eq_ok.1 h
        obtain rfl := Result.pure_eq_ok.1 h
        exact List.forall_mem_cons.2 ⟨⟨a, ha, hv⟩, stores_of_fields hvs⟩
      dsimp only at h
      split at h
      · exact member (.null a.kind) h
      · obtain ⟨v, hv, h⟩ := Result.bind_eq_ok.1 h
        exact member (Attribute.stores_of_wanted (holds_of_value hv)) h

end

/-- A loaded record conforms to its entity. -/
theorem conforms_of_record {e : E} {d : Document} {r : Record} (h : record e d = .ok r) :
    r.Conforms e := by
  cases d with
  | object members =>
    obtain ⟨fs, hfs, rfl⟩ := Result.map_eq_ok.1 h
    exact conforms_ofFields (stores_of_fields hfs)
  | null | bool | integer | double | string | array => cases h

theorem Records.conforms {e : E} {ds : List Document} {rs : List Record} (h : Records e ds rs) :
    ∀ r ∈ rs, r.Conforms e := by
  induction h with
  | nil => exact List.forall_mem_nil _
  | cons hr _ ih => exact List.forall_mem_cons.2 ⟨conforms_of_record hr, ih⟩

end Fixture

/-! ## Datasets -/

namespace Dataset

variable (E) in
/-- Every record that is stored under the name of an entity is one of an entity of this name. -/
def Conforms (data : Dataset) : Prop :=
  ∀ e : E, ∀ r ∈ data.records (Schema.name e),
    ∃ e' : E, Schema.name e' = Schema.name e ∧ r.Conforms e'

variable {e : E} {data data' : Dataset} {text : String}

/-- Where entities are told apart by their names, queries find the records that they expect. -/
theorem Conforms.wellTyped (hname : Function.Injective (Schema.name : E → String))
    (h : data.Conforms E) : data.WellTyped E := by
  intro e r hr
  obtain ⟨e', hname', hconforms⟩ := h e r hr
  obtain rfl := hname hname'
  exact hconforms.of

/-- Data conforms still after what was loaded is inserted. -/
theorem Conforms.insertAll (h : data.Conforms E) {ds : List Document} {rs : List Record}
    (hrs : Fixture.Records e ds rs) : (data.insertAll rs).Conforms E := by
  obtain ⟨htable, hother⟩ := hrs.records_insertAll data
  intro e' r hr
  by_cases hname : Schema.name e' = Schema.name e
  · rw [hname, htable] at hr
    rcases List.mem_append.1 hr with hr | hr
    · exact h e' r (hname ▸ hr)
    · exact ⟨e, hname.symm, hrs.conforms r hr⟩
  · rw [hother _ hname] at hr
    exact h e' r hr

/-- A load without an error keeps a dataset typed.  The records of the documents are behind those
of the table, in the order of the documents, each holding attributes of its entity and nothing
else. -/
theorem load_conforms (hdata : data.Conforms E) (h : data.load e text = (data', none)) :
    data'.Conforms E ∧
    ∃ items rs, Document.read? text = some (.array items) ∧ Fixture.Records e items rs ∧
      (∀ r ∈ rs, r.Conforms e) ∧
      data'.records (Schema.name e) = data.records (Schema.name e) ++ rs ∧
      ∀ name ≠ Schema.name e, data'.records name = data.records name := by
  obtain ⟨items, rs, hread, hrs, rfl⟩ := load_accepted h
  obtain ⟨htable, hother⟩ := hrs.records_insertAll data
  exact ⟨hdata.insertAll hrs, items, rs, hread, hrs, hrs.conforms, htable, hother⟩

end Dataset

/-! ## An owner with dogs -/

namespace Kennel

def stray : Dataset := ⟨[("Dog", [⟨"Dog", [("name", .string "Rex")]⟩])]⟩

theorem conforms_stray : stray.Conforms Kennel := by
  have hrex : Record.Conforms dog ⟨"Dog", [("name", .string "Rex")]⟩ := by
    refine .intro rfl (List.forall_mem_singleton.2 rfl) (List.forall_mem_singleton.2 ?_)
    intro a ha
    obtain rfl := Option.some.inj ha
    exact .basic rfl
  intro e
  cases e with
  | owner => exact List.forall_mem_nil _
  | dog => exact List.forall_mem_singleton.2 ⟨dog, rfl, hrex⟩

/-- An owner with two dogs, one of them with its owner, and something that is no attribute. -/
def ownerWithDogs : String :=
  "[\x7b\"id\": \"7\", \"hobby\": [1], \"dogs\": [\x7b\"owner\": \x7b\"age\": 30\x7d\x7d, " ++
    "\x7b\"id\": 2, \"owner\": null\x7d]\x7d]"

theorem load_conforms_ownerWithDogs : stray.Conforms Kennel ∧
    ∃ data, stray.load owner ownerWithDogs = (data, none) ∧ data.WellTyped Kennel ∧
      (data.records "Dog").length = 1 ∧
      ∃ r, data.records "Owner" = [r] ∧ r.Conforms owner := by
  have hloaded : (stray.load owner ownerWithDogs).2 = none ∧
      ((stray.load owner ownerWithDogs).1.records "Owner").length = 1 := by
    decide +kernel
  refine ⟨conforms_stray, ?_⟩
  generalize hload : stray.load owner ownerWithDogs = loaded at hloaded ⊢
  obtain ⟨data, refusal?⟩ := loaded
  obtain ⟨rfl, hlength⟩ := hloaded
  obtain ⟨hdata, items, rs, -, -, hrs, htable, hother⟩ := Dataset.load_conforms conforms_stray hload
  have hname : Function.Injective (Schema.name : Kennel → String) := by
    rintro (_ | _) (_ | _) h
    · rfl
    · exact absurd h (by decide)
    · exact absurd h (by decide)
    · rfl
  have htable : data.records "Owner" = rs := htable
  have hdog : data.records "Dog" = stray.records "Dog" := hother "Dog" (by decide)
  rw [htable] at hlength
  obtain ⟨r, rfl⟩ := List.length_eq_one_iff.1 hlength
  exact ⟨data, rfl, hdata.wellTyped hname, hdog ▸ rfl, r, htable, hrs r List.mem_cons_self⟩

end Kennel

end EntityQuery
