import EntityQuery.Number.Binary

/-! # Decimal numbers

A decimal is a sign and an integer of at most 96 bits with up to 28 decimal places.  The places are
kept, so `1.0` and `1.00` are two decimals that compare as equal.  A zero has no sign, unless it is
what rounding left of a negative number. -/

namespace EntityQuery

/-- A coefficient below 2⁹⁶ with up to 28 places behind the point. -/
structure Decimal where
  negative : Bool
  coefficient : Nat
  scale : Nat
  fits : coefficient < 2 ^ (96 : Nat) ∧ scale ≤ 28
deriving DecidableEq

namespace Decimal

/-- The coefficients that a decimal has room for. -/
def capacity : Nat := 2 ^ (96 : Nat)

/-- No decimal has more places behind its point. -/
def maxScale : Nat := 28

def zero : Decimal := ⟨false, 0, 0, by decide⟩

instance : Inhabited Decimal := ⟨zero⟩

/-- The coefficient with its sign. -/
def signed (a : Decimal) : Int := Binary.signed a.negative a.coefficient

/-- The decimal `± n / 10 ^ scale`, if there is room for it; a zero has no sign. -/
def ofParts? (negative : Bool) (n : Nat) (scale : Nat) : Option Decimal :=
  if h : n < 2 ^ (96 : Nat) ∧ scale ≤ 28 then some ⟨negative && n ≠ 0, n, scale, h⟩ else none

/-- An integer is a decimal if it fits 96 bits. -/
def ofInt? (n : Int) : Option Decimal := ofParts? (decide (n < 0)) n.natAbs 0

/-- The order of the numbers written. -/
def compare (a b : Decimal) : Ordering :=
  Binary.compareInt (a.signed * 10 ^ b.scale) (b.signed * 10 ^ a.scale)

/-- Equality of the numbers written. -/
def equals (a b : Decimal) : Bool := compare a b = .eq

/-- The nearest floating-point number. -/
def toBinary (f : FloatFormat) (a : Decimal) : Binary f :=
  Binary.round f a.negative a.coefficient (10 ^ a.scale)

/-- Multiplying `n / 2 ^ k` out to tenths: each step takes one half off and keeps the number as
`n · 10 ^ e`, giving up the last bit of `n` when there is no room for another factor of five. -/
def absorbHalves : Nat → Nat → Int → Nat × Int
  | 0, n, e => (n, e)
  | k + 1, n, e =>
    if n % 2 = 0 then absorbHalves k (n / 2) (e + 1)
    else if n * 5 < capacity then absorbHalves k (n * 5) e
    else absorbHalves k (n / 2) (e + 1)

/-- Dropping decimal places, each rounded on its own, until at most `maxScale` are left. -/
def dropPlaces : Nat → Nat → Int → Nat × Int
  | 0, n, e => (n, e)
  | k + 1, n, e =>
    if e ≥ -(maxScale : Int) then (n, e)
    else if n / 10 = 0 then (0, 0)
    else dropPlaces k (if n % 10 ≥ 5 then n / 10 + 1 else n / 10) (e + 1)

/-- A floating-point number as a decimal, with all the digits there is room for; none for a number
too large, an infinity or NaN. -/
def ofBinary? {f : FloatFormat} : Binary f → Option Decimal
  | .nan | .infinite _ => none
  | .finite s m q _ =>
    if q ≥ 0 then ofParts? s (m * 2 ^ q.toNat) 0
    else
      let (n, e) := absorbHalves (-q).toNat m q
      let (n, e) := dropPlaces (-e).toNat n e
      ofParts? s n (-e).toNat

end Decimal

end EntityQuery
