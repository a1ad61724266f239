import EntityQuery.Value

/-! # Phrases with parameters

A phrase is a piece of query text in which the places of parameters are still known: `text` writes
them as `:name`, and `parameters` lists their names from left to right.  `Binding` is what writes
phrases: it stores each value that is bound under a name of its own. -/

namespace EntityQuery

/-- A piece of a statement. -/
inductive Fragment where
  | plain (text : String)
  | parameter (name : String)
deriving DecidableEq

/-- A parameter is marked by a colon. -/
def Fragment.text : Fragment → String
  | .plain text => text
  | .parameter name => ":" ++ name

/-- Part of a statement, in which parameters are told from text. -/
abbrev Phrase := List Fragment

namespace Phrase

def ofText (s : String) : Phrase := [.plain s]

/-- The pieces one behind the other, without spaces. -/
def text : Phrase → String
  | [] => ""
  | f :: fs => f.text ++ text fs

/-- The parameters in the order in which they are written. -/
def parameters : Phrase → List String
  | [] => []
  | .plain _ :: fs => parameters fs
  | .parameter name :: fs => name :: parameters fs

theorem parameters_append (p q : Phrase) : parameters (p ++ q) = p.parameters ++ q.parameters := by
  induction p with
  | nil => rfl
  | cons f fs ih => cases f <;> simp [parameters, ih]

theorem text_append (p q : Phrase) : (p ++ q).text = p.text ++ q.text := by
  induction p with
  | nil => exact String.empty_append.symm
  | cons f fs ih => rw [List.cons_append, text, ih, text, String.append_assoc]

/-- Phrases with one separator between each two. -/
def joined (separator : String) : List Phrase → Phrase
  | [] => []
  | [p] => p
  | p :: q :: ps => p ++ .plain separator :: joined separator (q :: ps)

/-- The phrase between parentheses. -/
def parenthesized (p : Phrase) : Phrase := .plain "(" :: p ++ [.plain ")"]

end Phrase

/-- Names and values of the parameters of a query, in the order in which they were bound. -/
abbrev Parameters := List (String × Value)

/-- Writing that may bind parameters and may be refused. -/
abbrev Binding (α : Type) := StateT Parameters (Except Error) α

namespace Binding

/-- A field without its points, its parentheses written as `_`. -/
def baseName (field : String) : List Char :=
  (field.toList.filter (· ≠ '.')).map fun c => if c = '(' ∨ c = ')' then '_' else c

/-- The base name of the field and the number of the parameter in its query. -/
def parameterName (field : String) (number : Nat) : String :=
  String.ofList (baseName field) ++ "_" ++ toString number

/-- Binds a value under the next name for the field and writes its place. -/
def bindValue (field : String) (value : Value) : Binding Phrase := fun parameters =>
  let name := parameterName field (parameters.length + 1)
  .ok ([.parameter name], parameters ++ [(name, value)])

end Binding

end EntityQuery
