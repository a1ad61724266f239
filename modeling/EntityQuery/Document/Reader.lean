import EntityQuery.Document.Token
import EntityQuery.Keyed

/-! # Reading JSON

Tokens are read one after the other.  The containers that are still open are held in a list, the
innermost first, of which there may be no more than `depthLimit`. -/

namespace EntityQuery.Document

/-- A container that is part of the way through: what it holds before the value to come. -/
inductive Container where
  /-- The items come last first. -/
  | array (items : List Document)
  | object (members : List (String × Document)) (name : String)

/-- What can come next. -/
inductive Place where
  | value
  /-- The first item of an array, or its end. -/
  | firstItem
  | name (members : List (String × Document))
  /-- The first name in an object, or its end. -/
  | firstName
  | colon
  /-- Nothing but what ends a value or separates it from the next one. -/
  | after (d : Document)

/-- How far a reader has come: what may be next, and the containers that are still open, innermost
first. -/
structure Progress where
  place : Place
  opened : List Container

/-- No text opens more containers inside each other. -/
def depthLimit : Nat := 127

/-- A whole document may be next. -/
def start : Progress := ⟨.value, []⟩

/-- A container is opened, if there may be one more. -/
def openContainer? (place : Place) (opened inside : List Container) : Option Progress :=
  if opened.length < depthLimit then some ⟨place, inside⟩ else none

/-- What a token at the place of a value begins or is. -/
def readValue? (opened : List Container) : Token → Option Progress
  | .scalar d => some ⟨.after d, opened⟩
  | .mark '[' => openContainer? .firstItem opened (.array [] :: opened)
  | .mark '\x7b' => openContainer? .firstName opened opened
  | .mark _ => none

/-- Only a string names a member. -/
def readName? (members : List (String × Document)) (opened : List Container) :
    Token → Option Progress
  | .scalar (.string s) => some ⟨.colon, .object members s :: opened⟩
  | _ => none

/-- What a token behind a value means to the container that the value is in. -/
def readAfter? (d : Document) : List Container → Token → Option Progress
  | .array items :: opened, .mark ',' => some ⟨.value, .array (d :: items) :: opened⟩
  | .array items :: opened, .mark ']' => some ⟨.after (.array (d :: items).reverse), opened⟩
  | .object members name :: opened, .mark ',' => some ⟨.name (Keyed.put name d members), opened⟩
  | .object members name :: opened, .mark '\x7d' =>
    some ⟨.after (.object (Keyed.put name d members)), opened⟩
  | _, _ => none

/-- One token on; there is no step at a token that may not stand where it is. -/
def step? (p : Progress) (t : Token) : Option Progress :=
  match p.place, p.opened, t with
  | .value, opened, t => readValue? opened t
  | .firstItem, .array _ :: opened, .mark ']' => some ⟨.after (.array []), opened⟩
  | .firstItem, opened, t => readValue? opened t
  | .name members, opened, t => readName? members opened t
  | .firstName, opened, .mark '\x7d' => some ⟨.after (.object []), opened⟩
  | .firstName, opened, t => readName? [] opened t
  | .colon, opened, .mark ':' => some ⟨.value, opened⟩
  | .colon, _, _ => none
  | .after d, opened, t => readAfter? d opened t

/-- Reads the rest of the tokens; in the end a document stands alone. -/
def finish? (p : Progress) : List Token → Option Document
  | [] =>
    match p with
    | ⟨.after d, []⟩ => some d
    | _ => none
  | t :: ts => do finish? (← step? p t) ts

/-- The document that a text writes. -/
def read? (text : String) : Option Document := do
  finish? start (← tokens? .between text.toList)

end EntityQuery.Document
