import EntityQuery.Scalar.Cast

/-! # Comparing scalars

Scalars are ordered the way a database orders them: numbers across their types, a date as the
midnight it begins with, and a string compared with another type as that type, if it can be cast.
Integers are compared exactly, a decimal with any number it has room for exactly, and what is left
as double precision numbers. -/

namespace EntityQuery.Scalar

def compareBool (a b : Bool) : Ordering := compareOfLessAndEq a.toNat b.toNat

/-- Texts are ordered by their code points. -/
def compareText (a b : String) : Ordering := compareOfLessAndEq a b

/-- Characters by their code points. -/
def compareChar (a b : Char) : Ordering := compareOfLessAndEq a.toNat b.toNat

/-- An integer of any width as one that has none. -/
def toInt? : Scalar → Option Int
  | .integer _ n => some n.val
  | _ => none

/-- A number as a decimal, if it fits one. -/
def toDecimal? : Scalar → Option Decimal
  | .integer _ n => Decimal.ofInt? n.val
  | .float x => Decimal.ofBinary? x
  | .double x => Decimal.ofBinary? x
  | .decimal d => some d
  | _ => none

/-- A number as the double next to it. -/
def toDouble? : Scalar → Option Double
  | .integer _ n => some (Binary.ofInt .double n.val)
  | .float x => some (x.convert .double)
  | .double x => some x
  | .decimal d => some (d.toBinary .double)
  | _ => none

def isDecimal : Scalar → Bool
  | .decimal _ => true
  | _ => false

/-- The order of two decimals, if one side is one and the other has a decimal. -/
def compareDecimal? (a b : Scalar) : Option Ordering :=
  if a.isDecimal || b.isDecimal then
    match a.toDecimal?, b.toDecimal? with
    | some x, some y => some (x.compare y)
    | _, _ => none
  else none

/-- Numbers as doubles.  NaN is not ordered. -/
def compareDouble? (a b : Scalar) : Option Ordering :=
  match a.toDouble?, b.toDouble? with
  | some x, some y => x.compare? y
  | _, _ => none

/-- Integers are compared exactly, others as decimals, and as doubles if they are too large for
that. -/
def compareNumber? (a b : Scalar) : Option Ordering :=
  match a.toInt?, b.toInt? with
  | some x, some y => some (Binary.compareInt x y)
  | _, _ => (compareDecimal? a b).or (compareDouble? a b)

/-- The order of two scalars of which neither is a string beside another type. -/
def compareTyped? : Scalar → Scalar → Option Ordering
  | .bool a, .bool b => some (compareBool a b)
  | .string a, .string b => some (compareText a b)
  | .char a, .char b => some (compareChar a b)
  | .date a, .date b => some (a.compare b)
  | .dateTime a, .dateTime b => some (a.compare b)
  | .date a, .dateTime b => some ((DateTime.atMidnight a).compare b)
  | .dateTime a, .date b => some (a.compare (.atMidnight b))
  | a, b => compareNumber? a b

/-- A text beside another type is first cast to it.  What cannot be cast is not ordered. -/
def compare? : Scalar → Scalar → Option Ordering
  | .string a, .string b => some (compareText a b)
  | .char a, .string b => some (compareText (String.ofList [a]) b)
  | .string a, .char b => some (compareText a (String.ofList [b]))
  | .string a, b => (cast? b.type (.string a)).bind fun a => compareTyped? a b
  | a, .string b => (cast? a.type (.string b)).bind fun b => compareTyped? a b
  | a, b => compareTyped? a b

end EntityQuery.Scalar
