/-! # Digits

Reading a run of decimal digits as a number.  Only the ten ASCII digits count, and in base 16 the
first six letters beside them. -/

namespace EntityQuery

-- Powers are those of the core library, also where Mathlib has its own.  This instance is found
-- for exponents of a known type, so literal ones are written with theirs.
scoped instance (priority := 2000) corePow {α : Type} [NatPow α] : Pow α Nat := instPowNat

/-- The value of a decimal digit. -/
def digit? (c : Char) : Option Nat :=
  if '0' ≤ c ∧ c ≤ '9' then some (c.toNat - '0'.toNat) else none

/-- The value of a hexadecimal digit, in small letters or capitals. -/
def hexDigit? (c : Char) : Option Nat :=
  if '0' ≤ c ∧ c ≤ '9' then some (c.toNat - '0'.toNat)
  else if 'a' ≤ c ∧ c ≤ 'f' then some (c.toNat - 'a'.toNat + 10)
  else if 'A' ≤ c ∧ c ≤ 'F' then some (c.toNat - 'A'.toNat + 10)
  else none

/-- The number that the digits write after the digits of `n`; none if a character is no digit. -/
def digitsAfter? (n : Nat) : List Char → Option Nat
  | [] => some n
  | c :: cs => (digit? c).bind fun d => digitsAfter? (10 * n + d) cs

/-- The number that a non-empty run of digits writes. -/
def readNat? : List Char → Option Nat
  | [] => none
  | cs => digitsAfter? 0 cs

/-- The number that digits with an optional sign write. -/
def readInt? : List Char → Option Int
  | '-' :: cs => (readNat? cs).map fun n => -(n : Int)
  | '+' :: cs => (readNat? cs).map fun n => (n : Int)
  | cs => (readNat? cs).map fun n => (n : Int)

/-- How many decimal digits a number has; zero has one. -/
def digitCount (n : Nat) : Nat := (Nat.toDigits 10 n).length

/-- The digits of `n`, filled with zeros in front up to `width` characters. -/
def paddedDigits (width n : Nat) : List Char :=
  let ds := Nat.toDigits 10 n
  List.replicate (width - ds.length) '0' ++ ds

/-- The longest run of digits at the head of a text, at most `limit` long, and what follows it. -/
def spanDigits (limit : Nat) (cs : List Char) : List Char × List Char :=
  let run := (cs.take limit).takeWhile fun c => (digit? c).isSome
  (run, cs.drop run.length)

end EntityQuery
