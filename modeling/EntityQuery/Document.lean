import EntityQuery.Number.Binary

/-! # JSON documents

Numbers without a point or an exponent are integers as far as 64 bits hold them.  An object holds
its members in the order of their names, each name once. -/

namespace EntityQuery

/-- The document that a text holds, with its numbers as integers or as doubles. -/
inductive Document where
  | null
  | bool (b : Bool)
  | integer (n : Int)
  | double (d : Double)
  | string (s : String)
  | array (items : List Document)
  | object (members : List (String × Document))

instance : Inhabited Document := ⟨.null⟩

def Document.isNull : Document → Bool
  | .null => true
  | _ => false

end EntityQuery
