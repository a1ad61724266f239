import EntityQuery.GraphQuery
import EntityQuery.Session
import EntityQuery.TextQuery

/-! # The kinds of queries -/

namespace EntityQuery

variable {E : Type} [Schema E]

/-- Drafts as statements with parameters. -/
def TextQuery.kind : QueryKind E String TextQuery := ⟨ofDraft, withWindow⟩

/-- Drafts as graphs that are evaluated. -/
def GraphQuery.kind : QueryKind E (ScopedCondition E) (GraphQuery E) := ⟨ofDraft, withWindow⟩

end EntityQuery
