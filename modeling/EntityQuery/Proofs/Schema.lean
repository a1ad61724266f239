import EntityQuery.Schema

/-! # Names of attributes

Attributes are called by identifiers, so a dotted path is cut exactly between their names. -/

namespace EntityQuery

variable {E : Type} [Schema E] {e : E} {name : String} {a : Attribute E}

namespace Schema

/-- What is found under a name is an attribute of that name. -/
theorem mem_of_attribute? (h : attribute? e name = some a) : a ∈ attributes e ∧ a.name = name :=
  ⟨List.mem_of_find?_eq_some h, by simpa using List.find?_some h⟩

/-- Only identifiers are names of attributes. -/
theorem isIdentifier_of_attribute? (h : attribute? e name = some a) : IsIdentifier name := by
  obtain ⟨hmem, rfl⟩ := mem_of_attribute? h
  exact identified e a hmem

/-- There is no attribute under what is not an identifier. -/
theorem attribute?_eq_none (h : ¬IsIdentifier name) : attribute? e name = none := by
  rw [Option.eq_none_iff_forall_ne_some]
  exact fun a ha => h (isIdentifier_of_attribute? ha)

end Schema

end EntityQuery
