import EntityQuery.Value

/-! # Datasets

A dataset holds a table of records for every entity, by its name and in the order of insertion. -/

namespace EntityQuery

/-- The records of each entity, in the order in which they came. -/
structure Dataset where
  tables : List (String × List Record)

namespace Dataset

def empty : Dataset := ⟨[]⟩

/-- The records of an entity; there are none before the first. -/
def records (d : Dataset) (entity : String) : List Record := (d.tables.lookup entity).getD []

/-- Puts a record at the end of a table, which is made if it is not there. -/
def insertInto (r : Record) : List (String × List Record) → List (String × List Record)
  | [] => [(r.entity, [r])]
  | (entity, rs) :: tables =>
    if entity = r.entity then (entity, rs ++ [r]) :: tables
    else (entity, rs) :: insertInto r tables

/-- A record goes behind the others of its entity. -/
def insert (d : Dataset) (r : Record) : Dataset := ⟨insertInto r d.tables⟩

/-- An inserted record is the last of its entity. -/
theorem records_insert_self (d : Dataset) (r : Record) :
    (d.insert r).records r.entity = d.records r.entity ++ [r] := by
  suffices h : ∀ tables : List (String × List Record),
      ((insertInto r tables).lookup r.entity).getD [] =
        (tables.lookup r.entity).getD [] ++ [r] from h d.tables
  intro tables
  induction tables with
  | nil => simp [insertInto]
  | cons t tables ih =>
    obtain ⟨name, rs⟩ := t
    by_cases h : name = r.entity
    · simp [insertInto, h]
    · have h' : (r.entity == name) = false := beq_eq_false_iff_ne.2 fun e => h e.symm
      simp [insertInto, h, List.lookup_cons, h', ih]

/-- Inserting a record leaves the other entities as they are. -/
theorem records_insert_of_ne (d : Dataset) (r : Record) {entity : String}
    (hne : entity ≠ r.entity) : (d.insert r).records entity = d.records entity := by
  suffices h : ∀ tables : List (String × List Record),
      (insertInto r tables).lookup entity = tables.lookup entity from
    congrArg (·.getD []) (h d.tables)
  intro tables
  induction tables with
  | nil => simp [insertInto, List.lookup_cons, beq_eq_false_iff_ne.2 hne]
  | cons t tables ih =>
    obtain ⟨name, rs⟩ := t
    by_cases h : name = r.entity
    · simp [insertInto, h, List.lookup_cons, beq_eq_false_iff_ne.2 hne]
    · simp [insertInto, h, List.lookup_cons, ih]

end Dataset

end EntityQuery
