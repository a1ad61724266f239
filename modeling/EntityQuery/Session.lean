import EntityQuery.Draft
import EntityQuery.Page
import EntityQuery.Projection

/-! # Sessions

A session answers finished queries with rows.  A bound draft is a draft together with the kind of
queries it is compiled to and the session that is to answer them; its terminal operations compile
the draft, send what comes out, and project the rows that come back.  A session is asked only with
a query that was compiled without an error. -/

namespace EntityQuery

variable {E κ Q σ T : Type}

/-- A kind of queries: how drafts are compiled, and how another window is set. -/
structure QueryKind (E κ Q : Type) where
  ofDraft : Purpose → Draft E κ → Result Q
  /-- The query with this many rows skipped and this many returned at most. -/
  withWindow : Option Nat → Option Nat → Q → Q

/-- What a session answers to a query, and the state it is left in. -/
structure Session (Q σ : Type) where
  answer : Q → σ → Result (List Row) × σ

/-- An exchange with a session: its state also changes if the exchange fails. -/
abbrev Exchange (σ α : Type) := ExceptT Error (StateM σ) α

/-- What has nothing to do with the session leaves its state alone. -/
def Exchange.ofResult {α : Type} (r : Result α) : Exchange σ α := fun state => (r, state)

/-- A draft with the kind of query it is compiled to, and the session to send it to. -/
structure Bound (E κ Q σ : Type) where
  draft : Draft E κ
  kind : QueryKind E κ Q
  session? : Option (Session Q σ)

namespace Bound

/-- The query that the draft is compiled to. -/
def compile (b : Bound E κ Q σ) (purpose : Purpose) : Exchange σ Q :=
  .ofResult (b.kind.ofDraft purpose b.draft)

/-- The draft with one more comparison, unless that is with null. -/
def filter (b : Bound E κ Q σ) (field : String) (operator : Operator) (value : Value) :
    Bound E κ Q σ :=
  { b with draft := b.draft.filter (.compare none field operator value) }

/-- Columns are asked for only where some were selected. -/
def requireSelects (b : Bound E κ Q σ) : Exchange σ Unit :=
  if b.draft.outline.selects.isEmpty then throw .selectsMissing else pure ()

variable [Schema E] [Projectable T]

/-- Sends a query to the session, if there is one. -/
def send (b : Bound E κ Q σ) (q : Q) : Exchange σ (List Row) :=
  match b.session? with
  | some s => fun state => s.answer q state
  | none => throw (.sessionMissing (Schema.name b.draft.outline.root))

/-- Rows are projected in their order, up to the first one that cannot be. -/
def project (shape : Shape T) (rows : List Row) : Exchange σ (List Projected) :=
  .ofResult (rows.mapM shape.project)

/-- The rows of the query as it is. -/
def rows (b : Bound E κ Q σ) : Exchange σ (List Row) := do
  b.send (← b.compile .rows)

/-- All results. -/
def get (b : Bound E κ Q σ) (shape : Shape T) : Exchange σ (List Projected) := do
  project shape (← b.rows)

/-- The rows of selected columns. -/
def selectedRows (b : Bound E κ Q σ) : Exchange σ (List Row) := do
  b.requireSelects
  b.rows

/-- The selected columns of all rows as results. -/
def findFor (b : Bound E κ Q σ) (shape : Shape T) : Exchange σ (List Projected) := do
  project shape (← b.selectedRows)

/-- The first row, whatever window the draft has. -/
def firstRow? (b : Bound E κ Q σ) : Exchange σ (Option Row) := do
  let q ← b.compile .rows
  return (← b.send (b.kind.withWindow none (some 1) q)).head?

/-- The first result, if there is one; no more than one row is asked for. -/
def findFirst (b : Bound E κ Q σ) (shape : Shape T) : Exchange σ (Option Projected) := do
  match ← b.firstRow? with
  | some r => some <$> .ofResult (shape.project r)
  | none => return none

/-- The selected columns of the first row as a result. -/
def findFirstFor (b : Bound E κ Q σ) (shape : Shape T) : Exchange σ (Option Projected) := do
  b.requireSelects
  b.findFirst shape

/-- The number that a count returned; there are no negative counts. -/
def countOf (v : Value) : Result Nat :=
  (v.cast (.integer .long)).map fun
    | .integer _ n => n.val.toNat
    | _ => 0

/-- How many rows there are, or how many groups if the draft groups them. -/
def countResults (b : Bound E κ Q σ) : Exchange σ Nat := do
  let rows ← b.send (← b.compile .count)
  if b.draft.outline.groups.isEmpty then
    match rows.head?.bind Row.first? with
    | some v => .ofResult (countOf v)
    | none => return 0
  else return rows.length

/-- There are rows if there are more than none. -/
def exist (b : Bound E κ Q σ) : Exchange σ Bool := do return (← b.countResults) > 0

/-- Some of the results, and how many there are in all. -/
def page (b : Bound E κ Q σ) (shape : Shape T) (limit offset : Nat) :
    Exchange σ (Page Projected) := do
  let total ← b.countResults
  let q ← b.compile .rows
  let data ← project shape (← b.send (b.kind.withWindow (some offset) (some limit) q))
  return ⟨data, offset, total⟩

end Bound

end EntityQuery
