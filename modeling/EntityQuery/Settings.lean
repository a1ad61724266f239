import EntityQuery.Error
import EntityQuery.Toml.Reader

/-! # Settings

Settings are read from TOML.  What is not set has a default; keys that are no settings are
ignored. -/

namespace EntityQuery

/-- What can be set for sessions.  What is not set has a default. -/
structure Settings where
  logLevel? : Option String := none
  /-- Log events are written as JSON. -/
  logJson? : Option Bool := none
  /-- Queries are logged before they are sent. -/
  logQueries? : Option Bool := none
  /-- The size of a first page. -/
  pageSize? : Option Nat := none
deriving DecidableEq

namespace Settings

/-- Every setting at its default. -/
def standard : Settings := ⟨some "info", some false, some false, some 20⟩

def logLevel (s : Settings) : String := s.logLevel?.getD "info"
def logJson (s : Settings) : Bool := s.logJson?.getD false
def logQueries (s : Settings) : Bool := s.logQueries?.getD false
/-- The number of items on a page. -/
def pageSize (s : Settings) : Nat := s.pageSize?.getD 20

/-- A setting, if it has the right form or is not set at all. -/
def field? {α : Type} (read : Toml → Option α) (entries : Toml.Entries) (key : String) :
    Option (Option α) :=
  match Toml.get? entries key with
  | none => some none
  | some v => (read v).map some

def asString : Toml → Option String
  | .string s => some s
  | _ => none

def asBool : Toml → Option Bool
  | .bool b => some b
  | _ => none

/-- A size is a number of 64 bits without a sign. -/
def asSize : Toml → Option Nat
  | .integer n => if 0 ≤ n ∧ n < 2 ^ (64 : Nat) then some n.toNat else none
  | _ => none

/-- The settings among the keys of a table, none of which may be of another type. -/
def ofEntries? (entries : Toml.Entries) : Option Settings := do
  return {
    logLevel? := ← field? asString entries "log_level"
    logJson? := ← field? asBool entries "log_json"
    logQueries? := ← field? asBool entries "log_queries"
    pageSize? := ← field? asSize entries "default_page_size" }

/-- The settings that a text writes.  What is wrong with a text is not told. -/
def read (text : String) : Result Settings :=
  match (Toml.read? text).bind ofEntries? with
  | some s => .ok s
  | none => .error (.stated .tomlDeserialize "")

/-- A line for a setting that is set. -/
def line (key : String) (value? : Option String) : String :=
  match value? with
  | some v => key ++ " = " ++ v ++ "\n"
  | none => ""

/-- One line for each of the settings that is set. -/
def text (s : Settings) : String :=
  line "log_level" (s.logLevel?.map Toml.stringText) ++
    line "log_json" (s.logJson?.map fun b => if b then "true" else "false") ++
    line "log_queries" (s.logQueries?.map fun b => if b then "true" else "false") ++
    line "default_page_size" (s.pageSize?.map toString)

/-- The filter that lets events of the targets through from a level on. -/
def filterDirective (targets : List String) (level : String) : String :=
  String.intercalate "," (targets.map fun t => t ++ "=" ++ level)

end Settings

end EntityQuery
