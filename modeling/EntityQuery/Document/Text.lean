import EntityQuery.Document
import EntityQuery.Number.Binary.Text

/-! # JSON text

The text of a document without any blanks. -/

namespace EntityQuery.Document

/-- A character inside a string. -/
def escaped (c : Char) : List Char :=
  if c = '"' ∨ c = '\\' then ['\\', c]
  else if c = '\x08' then ['\\', 'b']
  else if c = '\x0c' then ['\\', 'f']
  else if c = '\n' then ['\\', 'n']
  else if c = '\r' then ['\\', 'r']
  else if c = '\t' then ['\\', 't']
  else if c < ' ' then "\\u".toList ++ List.replicate (4 - (Nat.toDigits 16 c.toNat).length) '0' ++
    Nat.toDigits 16 c.toNat
  else [c]

/-- A string between quotation marks, its characters escaped one by one. -/
def stringText (s : String) : String :=
  String.ofList ('"' :: s.toList.flatMap escaped ++ ['"'])

/-- Digits with a point behind the first one, if there are more. -/
def pointed : List Char → List Char
  | [] => []
  | [c] => [c]
  | c :: cs => c :: '.' :: cs

/-- A positive number in the fewest digits, of two equally near ones the even: positional from the
fifth place behind the point up to sixteen places before it, always with a point; in powers of ten
beyond. -/
def magnitudeText (m : Nat) (q : Int) : List Char :=
  let (c, s) :=
    (fun p : Nat × Int => Binary.stripZeros 17 p.1 p.2) (Binary.shortest .double .even m q)
  let digits := Nat.toDigits 10 c
  let lead : Int := s + digits.length - 1
  if -5 ≤ lead ∧ lead ≤ 15 then
    Binary.positional c s ++ (if s ≥ 0 then ['.', '0'] else [])
  else
    pointed digits ++ 'e' :: (if lead < 0 then '-' else '+') :: Nat.toDigits 10 lead.natAbs

/-- A double always has a point or an exponent, so it is read as a double again.  What is not finite
has no text of its own. -/
def doubleText : Double → String
  | .finite s m q _ =>
    let digits := if m = 0 then ['0', '.', '0'] else magnitudeText m q
    String.ofList (if s then '-' :: digits else digits)
  | _ => "null"

mutual

/-- A document in one line, without spaces. -/
def text : Document → String
  | .null => "null"
  | .bool b => if b then "true" else "false"
  | .integer n => toString n
  | .double d => doubleText d
  | .string s => stringText s
  | .array items => "[" ++ String.intercalate "," (texts items) ++ "]"
  | .object members => "\x7b" ++ String.intercalate "," (memberTexts members) ++ "\x7d"

def texts : List Document → List String
  | [] => []
  | d :: ds => text d :: texts ds

def memberTexts : List (String × Document) → List String
  | [] => []
  | (name, d) :: members => (stringText name ++ ":" ++ text d) :: memberTexts members

end

end EntityQuery.Document
