import EntityQuery.Fixture
import EntityQuery.Proofs.Kennel
import EntityQuery.Proofs.Success

/-! # What loading leaves behind

Documents are taken one after the other, and the record of each is in the dataset before the next
one is looked at.  A text that is no array leaves the dataset alone.  A document that is refused
leaves nothing of itself, but all records of the documents before it
(`Dataset.load_refused`). -/

namespace EntityQuery

variable {E : Type} [Schema E]

/-! ## Records one after the other -/

namespace Dataset

/-- Inserts records in their order. -/
def insertAll (data : Dataset) (rs : List Record) : Dataset := rs.foldl insert data

/-- Records go behind those that are there. -/
theorem records_insertAll_self {name : String} (data : Dataset) {rs : List Record}
    (h : ∀ r ∈ rs, r.entity = name) :
    (data.insertAll rs).records name = data.records name ++ rs := by
  induction rs generalizing data with
  | nil => exact (List.append_nil _).symm
  | cons r rs ih =>
    obtain ⟨rfl, hrs⟩ := List.forall_mem_cons.1 h
    rw [insertAll, List.foldl_cons, ← insertAll, ih _ hrs, records_insert_self, List.append_assoc,
      List.singleton_append]

theorem records_insertAll_of_ne {name : String} (data : Dataset) {rs : List Record}
    (h : ∀ r ∈ rs, r.entity ≠ name) : (data.insertAll rs).records name = data.records name := by
  induction rs generalizing data with
  | nil => rfl
  | cons r rs ih =>
    obtain ⟨hr, hrs⟩ := List.forall_mem_cons.1 h
    rw [insertAll, List.foldl_cons, ← insertAll, ih _ hrs, records_insert_of_ne _ _ hr.symm]

end Dataset

/-! ## Documents and their records -/

namespace Fixture

/-- The records that documents write, one for each. -/
def Records (e : E) : List Document → List Record → Prop :=
  List.Forall₂ fun d r => record e d = .ok r

variable {e : E} {ds : List Document} {rs : List Record}

/-- A document is loaded as a record of the entity that is wanted. -/
theorem entity_of_record {d : Document} {r : Record} (h : record e d = .ok r) :
    r.entity = Schema.name e := by
  cases d with
  | object members =>
    obtain ⟨fields, -, rfl⟩ := Result.map_eq_ok.1 h
    rfl
  | null | bool | integer | double | string | array => cases h

theorem Records.entity (h : Records e ds rs) : ∀ r ∈ rs, r.entity = Schema.name e := by
  induction h with
  | nil => exact List.forall_mem_nil _
  | cons hr _ ih => exact List.forall_mem_cons.2 ⟨entity_of_record hr, ih⟩

/-- Each document is loaded as one record. -/
theorem Records.eq_nil_iff (h : Records e ds rs) : rs = [] ↔ ds = [] := by
  rw [← List.length_eq_zero_iff, ← List.length_eq_zero_iff, List.Forall₂.length_eq h]

/-- The records are at the end of the table of their entity, and all other tables are as before. -/
theorem Records.records_insertAll (h : Records e ds rs) (data : Dataset) :
    (data.insertAll rs).records (Schema.name e) = data.records (Schema.name e) ++ rs ∧
      ∀ name ≠ Schema.name e, (data.insertAll rs).records name = data.records name := by
  refine ⟨data.records_insertAll_self h.entity, fun name hne => ?_⟩
  refine data.records_insertAll_of_ne fun r hr heq => ?_
  exact hne (heq.symm.trans (h.entity r hr))

end Fixture

/-! ## Loading -/

namespace Dataset

open Fixture

variable {e : E} {data data' : Dataset} {text : String} {error : Error}

/-- All documents are accepted, or those before the first that is refused. -/
theorem insertDocuments_cases (data : Dataset) (e : E) (ds : List Document) :
    (∃ rs, Records e ds rs ∧ data.insertDocuments e ds = (data.insertAll rs, none)) ∨
    ∃ before d after rs error, ds = before ++ d :: after ∧ Records e before rs ∧
      record e d = .error error ∧ data.insertDocuments e ds = (data.insertAll rs, some error) := by
  induction ds generalizing data with
  | nil => exact .inl ⟨[], .nil, rfl⟩
  | cons d ds ih =>
    rw [insertDocuments]
    cases hd : record e d with
    | error error => exact .inr ⟨[], d, ds, [], error, rfl, .nil, hd, rfl⟩
    | ok r =>
      obtain ⟨rs, hrs, h⟩ | ⟨before, refused, after, rs, error, rfl, hrs, hrefused, h⟩ :=
        ih (data.insert r)
      · exact .inl ⟨r :: rs, .cons hd hrs, h⟩
      · exact .inr ⟨d :: before, refused, after, r :: rs, error, rfl, .cons hd hrs, hrefused, h⟩

/-- What was loaded without an error is an array of documents that write records. -/
theorem load_accepted (h : data.load e text = (data', none)) :
    ∃ items rs, Document.read? text = some (.array items) ∧ Records e items rs ∧
      data' = data.insertAll rs := by
  rw [load] at h
  split at h
  · cases h
  · rename_i items hread
    obtain ⟨rs, hrs, hinsert⟩ | ⟨_, _, _, _, _, _, _, _, hinsert⟩ :=
      data.insertDocuments_cases e items
    · rw [hinsert] at h
      exact ⟨items, rs, hread, hrs, (Prod.mk.inj h).1.symm⟩
    · rw [hinsert] at h
      cases h
  · cases h

/-- After an error the dataset is as it was if the text is no array, and otherwise has the records
of the documents before the refused one at the end of their table.  It holds just the records of
before only if that is the first document. -/
theorem load_refused (h : data.load e text = (data', some error)) :
    (data' = data ∧ ∀ items, Document.read? text ≠ some (.array items)) ∨
    ∃ before d after rs, Document.read? text = some (.array (before ++ d :: after)) ∧
      Records e before rs ∧ record e d = .error error ∧ data' = data.insertAll rs ∧
      data'.records (Schema.name e) = data.records (Schema.name e) ++ rs ∧
      (∀ name ≠ Schema.name e, data'.records name = data.records name) ∧
      ((∀ name, data'.records name = data.records name) ↔ before = []) := by
  rw [load] at h
  split at h
  · rename_i hread
    refine .inl ⟨(Prod.mk.inj h).1.symm, fun items hitems => ?_⟩
    rw [hread] at hitems
    cases hitems
  · rename_i items hread
    obtain ⟨_, _, hinsert⟩ | ⟨before, d, after, rs, refusal, rfl, hrs, hd, hinsert⟩ :=
      data.insertDocuments_cases e items
    · rw [hinsert] at h
      cases h
    · rw [hinsert] at h
      obtain ⟨rfl, hrefusal⟩ := Prod.mk.inj h
      obtain rfl := Option.some.inj hrefusal
      obtain ⟨htable, hother⟩ := hrs.records_insertAll data
      refine .inr ⟨before, d, after, rs, hread, hrs, hd, rfl, htable, hother, ?_⟩
      rw [← hrs.eq_nil_iff]
      constructor
      · intro hsame
        exact List.append_right_eq_self.1 (htable.symm.trans (hsame _))
      · rintro rfl _
        rfl
  · rename_i d hnot hread
    refine .inl ⟨(Prod.mk.inj h).1.symm, fun items hitems => ?_⟩
    exact hnot items (Option.some.inj (hread.symm.trans hitems))

end Dataset

/-! ## A dog and a number -/

namespace Kennel

/-- A dog, and then a number where a second dog should be. -/
def dogAndNumber : String := "[\x7b\"id\": 1, \"name\": \"Rex\"\x7d, 2]"

theorem load_dogAndNumber : ∃ data, Dataset.empty.load dog dogAndNumber =
    (data, some (.fixtureNotObject "Dog" "2")) ∧ (data.records "Dog").length = 1 := by
  have h : (Dataset.empty.load dog dogAndNumber).2 = some (.fixtureNotObject "Dog" "2") ∧
      ((Dataset.empty.load dog dogAndNumber).1.records "Dog").length = 1 := by
    decide +kernel
  generalize Dataset.empty.load dog dogAndNumber = loaded at h ⊢
  obtain ⟨data, refusal?⟩ := loaded
  obtain ⟨rfl, hlength⟩ := h
  exact ⟨data, rfl, hlength⟩

/-- The dog stays behind, and nothing else does. -/
theorem load_refused_number : ∃ data error,
    Dataset.empty.load dog dogAndNumber = (data, some error) ∧
    ∃ d r, Fixture.record dog d = .ok r ∧ data.records "Dog" = [r] ∧ data.records "Owner" = [] := by
  obtain ⟨data, hload, hlength⟩ := load_dogAndNumber
  refine ⟨data, _, hload, ?_⟩
  obtain ⟨rfl, -⟩ | ⟨before, d, after, rs, -, hrs, -, -, htable, hother, -⟩ :=
    Dataset.load_refused hload
  · cases hlength
  · have htable : data.records "Dog" = rs := htable
    rw [htable] at hlength
    obtain ⟨r, rfl⟩ := List.length_eq_one_iff.1 hlength
    cases hrs with
    | cons hr _ => exact ⟨_, r, hr, htable, hother "Owner" (by decide)⟩

/-- A load that ends in an error has changed the dataset. -/
theorem not_load_atomic : ∃ data error,
    Dataset.empty.load dog dogAndNumber = (data, some error) ∧
    ¬∀ name, data.records name = Dataset.empty.records name := by
  obtain ⟨data, hload, hlength⟩ := load_dogAndNumber
  refine ⟨data, _, hload, fun hsame => ?_⟩
  rw [hsame "Dog"] at hlength
  cases hlength

end Kennel

end EntityQuery
