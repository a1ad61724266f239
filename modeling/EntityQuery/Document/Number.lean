import EntityQuery.Document
import EntityQuery.Number.Digits

/-! # Numbers in JSON

A number is read as a significand of at most 64 bits and a power of ten.  Digits that the
significand has no room for are dropped and, before the point, raise the power.  A number that is
written as an integer and has lost no digit stays one; every other number is the significand scaled
in floating point, and there is none beyond the largest double. -/

namespace EntityQuery.Document

/-- Digits are taken into the significand as long as it fits into 64 bits. -/
def takeDigits (significand : Nat) : List Char → Nat × List Char
  | [] => (significand, [])
  | c :: cs =>
    match digit? c with
    | none => (significand, c :: cs)
    | some d =>
      if 10 * significand + d < 2 ^ (64 : Nat) then takeDigits (10 * significand + d) cs
      else (significand, c :: cs)

/-- The double next to a power of ten. -/
def powerOfTen (k : Nat) : Double := .ofDecimal .double false 1 k

/-- Divides by a power of ten, in steps of the largest one that is a double. -/
def shrink (d : Double) (k : Nat) : Double :=
  if k ≤ 308 then d.div (powerOfTen k)
  else if d.isZero then d
  else shrink (d.div (powerOfTen 308)) (k - 308)
termination_by k

/-- The significand times a power of ten. -/
def scaled? (significand : Nat) (exponent : Int) : Option Double :=
  let d : Double := .ofInt .double significand
  if exponent < 0 then some (shrink d exponent.natAbs)
  else if exponent ≤ 308 then
    let product := d.mul (powerOfTen exponent.toNat)
    if product.isInfinite then none else some product
  else if d.isZero then some d
  else none

/-- The sign goes on at last, so zero may be negative. -/
def signedDouble (negative : Bool) (d : Double) : Double := if negative then d.neg else d

/-- A significand that was written as an integer.  There is no negative zero among the integers,
and none below 64 bits. -/
def ofSignificand (negative : Bool) (significand : Nat) : Document :=
  if negative then
    if 0 < significand ∧ significand ≤ 2 ^ (63 : Nat) then .integer (-(significand : Int))
    else .double (Binary.neg (.ofInt .double significand))
  else .integer significand

/-- The exponent after its mark: an optional sign and digits. -/
def readExponent? (cs : List Char) : Option (Bool × Nat) :=
  let (negative, digits) := match cs with
    | '-' :: rest => (true, rest)
    | '+' :: rest => (false, rest)
    | rest => (false, rest)
  (readNat? digits).map fun n => (negative, n)

/-- A significand with the power of ten it was written with and the exponent behind it.  An
exponent beyond 31 bits is infinitely far away. -/
def withExponent? (negative : Bool) (significand : Nat) (power : Int) (cs : List Char) :
    Option Document := do
  let (down, n) ← readExponent? cs
  let d ←
    if n < 2 ^ (31 : Nat) then scaled? significand (if down then power - n else power + n)
    else if significand = 0 ∨ down then some (.ofInt .double 0)
    else none
  return .double (signedDouble negative d)

/-- What follows the digits before the point. -/
def readTail? (negative : Bool) (significand : Nat) (power : Nat) (cs : List Char) :
    Option Document :=
  match cs with
  | [] =>
    if power = 0 then some (ofSignificand negative significand)
    else (scaled? significand power).map fun d => .double (signedDouble negative d)
  | '.' :: rest =>
    let (digits, rest) := spanDigits rest.length rest
    if digits = [] then none
    else
      let (significand, dropped) := takeDigits significand digits
      let power : Int := power - (digits.length - dropped.length : Nat)
      match rest with
      | [] => (scaled? significand power).map fun d => .double (signedDouble negative d)
      | c :: cs =>
        if c = 'e' ∨ c = 'E' then withExponent? negative significand power cs else none
  | c :: cs => if c = 'e' ∨ c = 'E' then withExponent? negative significand power cs else none

/-- The number that a text writes.  A zero in front stands alone. -/
def readNumber? (cs : List Char) : Option Document :=
  let (negative, cs) := match cs with
    | '-' :: rest => (true, rest)
    | rest => (false, rest)
  let (digits, rest) := spanDigits cs.length cs
  if digits = [] ∨ (digits.head? = some '0' ∧ digits.length > 1) then none
  else
    let (significand, dropped) := takeDigits 0 digits
    readTail? negative significand dropped.length rest

end EntityQuery.Document
