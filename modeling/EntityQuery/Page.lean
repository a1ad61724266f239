/-! # Pages of results -/

namespace EntityQuery

variable {α β : Type}

/-- Some of the results, the offset they start at, and how many there are in all. -/
structure Page (α : Type) where
  data : List α
  offset : Nat
  total : Nat

namespace Page

/-- How many pages of this size hold all results; an empty page has no size. -/
def totalPages (p : Page α) : Nat :=
  if p.data.isEmpty then 0 else (p.total + p.data.length - 1) / p.data.length

/-- There is nothing on the page, whatever is on others. -/
def isEmpty (p : Page α) : Bool := p.data.isEmpty

/-- The same page of other items. -/
def map (f : α → β) (p : Page α) : Page β := ⟨p.data.map f, p.offset, p.total⟩

end Page

end EntityQuery
