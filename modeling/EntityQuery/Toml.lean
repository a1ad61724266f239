/-! # TOML values

A table knows how it came about, because that decides how it may be extended: a table with a header
only by headers below it, a table of a dotted key only by dotted keys, and an inline table not at
all. -/

namespace EntityQuery

/-- How a table came about, which decides whether it may be opened again. -/
inductive TableOrigin where
  | header
  /-- On the way to the table of a header. -/
  | implied
  | dotted
  | inline
deriving DecidableEq, Repr

/-- The values of a settings file. -/
inductive Toml where
  | string (s : String)
  | integer (n : Int)
  | bool (b : Bool)
  /-- A number with a point or an exponent, as it is written. -/
  | float (text : String)
  /-- A date, a time or both, as it is written. -/
  | moment (text : String)
  | array (items : List Toml)
  /-- The tables of a repeated header, and the one that is still open. -/
  | tables (done : List (List (String × Toml))) (last : List (String × Toml))
  | table (origin : TableOrigin) (entries : List (String × Toml))

namespace Toml

/-- The keys of a table with their values. -/
abbrev Entries := List (String × Toml)

def get? (entries : Entries) (key : String) : Option Toml := entries.lookup key

/-- Other content under a key that is there. -/
def replace (entries : Entries) (key : String) (value : Toml) : Entries :=
  entries.map fun p => if p.1 = key then (key, value) else p

/-- Changes the table at the end of a path, making the tables on the way that are not there.
`dotted` says that the path is that of a dotted key, and `change` is told the origin of the table,
the table of the document having a header. -/
def within? (dotted : Bool) (change : TableOrigin → Entries → Option Entries) (origin : TableOrigin)
    (entries : Entries) : List String → Option Entries
  | [] => change origin entries
  | key :: path =>
    match get? entries key with
    | none => do
      let origin := if dotted then .dotted else .implied
      let inner ← within? dotted change origin [] path
      return entries ++ [(key, .table origin inner)]
    | some (.table origin inner) =>
      if origin = .inline ∨ (dotted ∧ origin = .header) then none
      else do
        let inner ← within? dotted change origin inner path
        return replace entries key (.table origin inner)
    | some (.tables done last) =>
      if dotted then none
      else do
        let last ← within? dotted change .header last path
        return replace entries key (.tables done last)
    | some _ => none

/-- Adds a key to a table, which must not have it.  Only the tables of dotted keys take more of
them. -/
def addKey? (key : String) (value : Toml) (dotted : Bool) (origin : TableOrigin)
    (entries : Entries) : Option Entries :=
  if (get? entries key).isSome ∨ decide (origin = .dotted) ≠ dotted then none
  else some (entries ++ [(key, value)])

/-- Adds the value of a key, dotted or not, below the table at `here`. -/
def addValue? (entries : Entries) (here path : List String) (key : String) (value : Toml) :
    Option Entries :=
  within? false
    (fun origin entries =>
      within? true (addKey? key value !path.isEmpty) origin entries path)
    .header entries here

/-- Opens the table of a header, which has no header yet. -/
def openTable? (entries : Entries) (path : List String) (key : String) : Option Entries :=
  within? false
    (fun _ entries =>
      match get? entries key with
      | none => some (entries ++ [(key, .table .header [])])
      | some (.table .implied inner) => some (replace entries key (.table .header inner))
      | some _ => none)
    .header entries path

/-- Opens the next table of a repeated header. -/
def openNext? (entries : Entries) (path : List String) (key : String) : Option Entries :=
  within? false
    (fun _ entries =>
      match get? entries key with
      | none => some (entries ++ [(key, .tables [] [])])
      | some (.tables done last) => some (replace entries key (.tables (done ++ [last]) []))
      | some _ => none)
    .header entries path

end Toml

end EntityQuery
