import EntityQuery.TextQuery.Statement

/-! # Text queries

A text query is a statement with the values of its parameters and a window on its rows. -/

namespace EntityQuery

/-- A statement with the values of its parameters and the window of rows to return. -/
structure TextQuery where
  statement : Statement
  parameters : Parameters
  /-- How many rows to skip. -/
  first? : Option Nat := none
  /-- How many rows to return at most. -/
  max? : Option Nat := none

namespace TextQuery

/-- The statement as it is sent. -/
def text (q : TextQuery) : String := q.statement.phrase.text

/-- The query with another window on its rows. -/
def withWindow (first? max? : Option Nat) (q : TextQuery) : TextQuery :=
  { q with first? := first?, max? := max? }

variable {E : Type} [Schema E]

/-- The query of a draft; only a query for rows keeps the window of the draft. -/
def ofDraft (purpose : Purpose) (d : Draft E String) : Result TextQuery := do
  let conditions := Draft.interpretAll Statement.subQuery d.conditions
  let (statement, parameters) ← Statement.ofLevel purpose d.outline conditions []
  if purpose = .rows then
    return ⟨statement, parameters, d.outline.offset?, d.outline.limit?⟩
  else return ⟨statement, parameters, none, none⟩

end TextQuery

end EntityQuery
