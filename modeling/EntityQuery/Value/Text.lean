import EntityQuery.Text.Pieces
import EntityQuery.Text.Quoted
import EntityQuery.Value

/-! # The text of a value

A value is written in two ways: `text` writes strings bare, and `structure` shows the type of every
scalar inside. -/

namespace EntityQuery.Value

/-- Items between brackets, separated by commas. -/
def bracketed (items : List String) : String := "[" ++ Text.commaSeparated items ++ "]"

/-- Keys in quotes, each with its value, between braces. -/
def braced (entries : List (String × String)) : String :=
  "\x7b" ++ Text.commaSeparated (entries.map fun p => Text.quoted p.1 ++ ": " ++ p.2) ++ "\x7d"

/-- A scalar with the name of its type, strings and characters in quotes. -/
def structureOfScalar : Scalar → String
  | .string s => Text.quoted s
  | .char c => Text.quotedChar c
  | s => s.type.name ++ "(" ++ s.text ++ ")"

mutual

/-- A value with all of its structure, as it is shown inside a record. -/
def structureText : Value → String
  | .null => "Null"
  | .scalar s => structureOfScalar s
  | .list items => bracketed (structureTexts items)
  | .record entity fields =>
    "Record \x7b entity: " ++ Text.quoted entity ++ ", fields: " ++
      braced (structureEntries fields) ++ " \x7d"
  | .object o => "Object<" ++ o.content.type ++ ">"

def structureTexts : List Value → List String
  | [] => []
  | v :: vs => structureText v :: structureTexts vs

def structureEntries : List (String × Value) → List (String × String)
  | [] => []
  | (k, v) :: fields => (k, structureText v) :: structureEntries fields

end

mutual

/-- A value as it is cast to text; inside of records it is shown with its structure. -/
def text : Value → String
  | .null => "null"
  | .scalar s => s.text
  | .list items => bracketed (texts items)
  | .record entity fields => entity ++ braced (structureEntries fields)
  | .object o => "<" ++ o.content.type ++ ">"

def texts : List Value → List String
  | [] => []
  | v :: vs => text v :: texts vs

end

end EntityQuery.Value
