import EntityQuery.Number.Integer
import EntityQuery.Number.Binary.Text
import EntityQuery.Number.Decimal.Text
import EntityQuery.Time.DateTime

/-! # Scalars

A scalar is a value of one of thirteen types.  The type of an attribute is such a type, and the
literals of a query are such scalars. -/

namespace EntityQuery

/-- The types of scalars. -/
inductive ScalarType where
  | bool
  | integer (width : IntWidth)
  | float
  | double
  | decimal
  | char
  | string
  | date
  | dateTime
deriving DecidableEq, Repr

namespace ScalarType

/-- How a type is named in messages. -/
def name : ScalarType → String
  | .bool => "Boolean"
  | .integer .byte => "Byte"
  | .integer .short => "Short"
  | .integer .int => "Integer"
  | .integer .long => "Long"
  | .integer .big => "BigInteger"
  | .float => "Float"
  | .double => "Double"
  | .decimal => "Decimal"
  | .char => "Character"
  | .string => "String"
  | .date => "Date"
  | .dateTime => "DateTime"

/-- Scalars of these types are compared by their size. -/
def isNumeric : ScalarType → Bool
  | .integer _ | .float | .double | .decimal => true
  | _ => false

end ScalarType

/-- A value that is not made up of others. -/
inductive Scalar where
  | bool (b : Bool)
  | integer (width : IntWidth) (n : BoundedInt width)
  | float (x : Single)
  | double (x : Double)
  | decimal (d : Decimal)
  | char (c : Char)
  | string (s : String)
  | date (d : Date)
  | dateTime (t : DateTime)
deriving DecidableEq

namespace Scalar

def type : Scalar → ScalarType
  | .bool _ => .bool
  | .integer w _ => .integer w
  | .float _ => .float
  | .double _ => .double
  | .decimal _ => .decimal
  | .char _ => .char
  | .string _ => .string
  | .date _ => .date
  | .dateTime _ => .dateTime

/-- The text that the scalar is cast to. -/
def text : Scalar → String
  | .bool b => if b then "true" else "false"
  | .integer _ n => n.text
  | .float x => x.text
  | .double x => x.text
  | .decimal d => d.text
  | .char c => String.ofList [c]
  | .string s => s
  | .date d => d.text
  | .dateTime t => t.text

/-- The value that an attribute of the type has before anything is stored in it. -/
def default : ScalarType → Scalar
  | .bool => .bool false
  | .integer w => .integer w (BoundedInt.zero w)
  | .float => .float (Binary.zero _ false)
  | .double => .double (Binary.zero _ false)
  | .decimal => .decimal Decimal.zero
  | .char => .char '\x00'
  | .string => .string ""
  | .date => .date .epoch
  | .dateTime => .dateTime (.atMidnight .epoch)

/-- Equality within one type; floating-point numbers and decimals compare by the number written. -/
def equals : Scalar → Scalar → Bool
  | .bool a, .bool b => a = b
  | .integer w a, .integer v b => w = v && a.val = b.val
  | .float a, .float b => a.equals b
  | .double a, .double b => a.equals b
  | .decimal a, .decimal b => a.equals b
  | .char a, .char b => a = b
  | .string a, .string b => a = b
  | .date a, .date b => a = b
  | .dateTime a, .dateTime b => a = b
  | _, _ => false

end Scalar

end EntityQuery
