import EntityQuery.Session

/-! # Scripted sessions

A session that answers from a script, without rows once the script is over, and keeps the queries
it received. -/

namespace EntityQuery

/-- Answers that are given in their order, and the queries that were received. -/
structure Script (Q : Type) where
  answers : List (Result (List Row))
  received : List Q

/-- Queries are kept whatever the answer is.  Behind the last answer there are no rows. -/
def Script.session {Q : Type} : Session Q (Script Q) where
  answer q s :=
    match s.answers with
    | [] => (.ok [], { s with received := s.received ++ [q] })
    | a :: rest => (a, ⟨rest, s.received ++ [q]⟩)

end EntityQuery
