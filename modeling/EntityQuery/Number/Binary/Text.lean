import EntityQuery.Number.Binary
import EntityQuery.Number.Digits

/-! # The text of a floating-point number

Written are the fewest digits that read back as the number and, of those, the nearest; a notation
decides between two equally near ones.  The notation here takes the larger and is positional,
without an exponent and without a point after an integer.  Read is the same notation, with an
optional sign, exponent, or one of the words for the infinities and NaN. -/

namespace EntityQuery.Binary

variable {f : FloatFormat}

/-- `n · 2 ^ q` as a fraction. -/
def ratio (n : Nat) (q : Int) : Nat × Nat :=
  if q ≥ 0 then (n * 2 ^ q.toNat, 1) else (n, 2 ^ (-q).toNat)

/-- The interval of reals that round to `m · 2 ^ q`, its ends in quarters of `2 ^ q`: below a power
of two the neighbour is only half as far. -/
def roundingEnds (f : FloatFormat) (m : Nat) (q : Int) : Nat × Nat :=
  (if m = 2 ^ (f.precision - 1) ∧ f.minExponent < q then 4 * m - 1 else 4 * m - 2, 4 * m + 2)

/-- `c · 10 ^ s` lies in the interval of reals that round to `m · 2 ^ q`; the ends belong to it for
an even significand. -/
def readsBack (f : FloatFormat) (m : Nat) (q : Int) (c : Nat) (s : Int) : Bool :=
  let ends := roundingEnds f m q
  let (num, den) := ratio 1 (q - 2)
  let left := if s ≥ 0 then c * 10 ^ s.toNat * den else c * den
  let scale := if s ≥ 0 then num else num * 10 ^ (-s).toNat
  if m % 2 = 0 then ends.1 * scale ≤ left && left ≤ ends.2 * scale
  else ends.1 * scale < left && left < ends.2 * scale

/-- The exponent of the leading decimal digit of `a / b`. -/
def leadingExponent (a b : Nat) : Int :=
  if a ≥ b then (digitCount (a / b) : Int) - 1
  else
    let n := digitCount (b / a)
    if a * 10 ^ (n - 1) ≥ b then -((n - 1 : Nat) : Int) else -(n : Int)

/-- Which of two neighbours on a grid stands for a number halfway between them. -/
inductive Tie where
  | larger
  | even
deriving DecidableEq, Repr

/-- The number of the grid `10 ^ s` that reads back as `m · 2 ^ q` and is nearest to it. -/
def onGrid? (f : FloatFormat) (tie : Tie) (m : Nat) (q s : Int) : Option Nat :=
  let (a, b) := ratio m q
  let a := if s ≥ 0 then a else a * 10 ^ (-s).toNat
  let b := if s ≥ 0 then b * 10 ^ s.toNat else b
  let c := a / b
  match readsBack f m q c s, readsBack f m q (c + 1) s with
  | true, true =>
    some (if 2 * (a % b) < b ∨ (2 * (a % b) = b ∧ tie = .even ∧ c % 2 = 0) then c else c + 1)
  | true, false => some c
  | false, true => some (c + 1)
  | false, false => none

/-- The first grid, from `digits` digits up, that has a number reading back as `m · 2 ^ q`. -/
def shortestFrom (f : FloatFormat) (tie : Tie) (m : Nat) (q lead : Int) (digits : Nat) :
    Nat → Nat × Int
  | 0 => (m, q)
  | more + 1 =>
    let s := lead - digits + 1
    match onGrid? f tie m q s with
    | some c => (c, s)
    | none => shortestFrom f tie m q lead (digits + 1) more

/-- The fewest decimal digits that read back, as `c · 10 ^ s`; seventeen are enough for either
format. -/
def shortest (f : FloatFormat) (tie : Tie) (m : Nat) (q : Int) : Nat × Int :=
  let (a, b) := ratio m q
  shortestFrom f tie m q (leadingExponent a b) 1 17

/-- `c · 10 ^ s` without zeros at the end of `c`. -/
def stripZeros : Nat → Nat → Int → Nat × Int
  | 0, c, s => (c, s)
  | fuel + 1, c, s => if c ≠ 0 ∧ c % 10 = 0 then stripZeros fuel (c / 10) (s + 1) else (c, s)

/-- The positional notation of `c · 10 ^ s`. -/
def positional (c : Nat) (s : Int) : List Char :=
  if s ≥ 0 then Nat.toDigits 10 c ++ List.replicate s.toNat '0'
  else
    let places := (-s).toNat
    let ds := paddedDigits (places + 1) c
    ds.take (ds.length - places) ++ '.' :: ds.drop (ds.length - places)

/-- The shortest digits that are read as the number again, without an exponent. -/
def text : Binary f → String
  | .nan => "NaN"
  | .infinite s => if s then "-inf" else "inf"
  | .finite s m q _ =>
    let digits := if m = 0 then ['0'] else
      let (c, e) := shortest f .larger m q
      let (c, e) := stripZeros 17 c e
      positional c e
    String.ofList (if s then '-' :: digits else digits)

/-- An exponent: an optional sign and digits. -/
def readExponent? : List Char → Option Int
  | [] => some 0
  | c :: cs => if c = 'e' ∨ c = 'E' then readInt? cs else none

/-- Digits with an optional point, then an optional exponent; at least one digit is needed. -/
def readDecimal? (f : FloatFormat) (negative : Bool) (cs : List Char) : Option (Binary f) :=
  let (whole, rest) := spanDigits cs.length cs
  let (part, rest) := match rest with
    | '.' :: r => spanDigits r.length r
    | r => ([], r)
  if whole = [] ∧ part = [] then none
  else do
    let n ← digitsAfter? 0 (whole ++ part)
    let e ← readExponent? rest
    return ofDecimal f negative n (e - part.length)

/-- The words for the infinities and NaN, in any case, or a decimal number. -/
def readUnsigned? (f : FloatFormat) (negative : Bool) (cs : List Char) : Option (Binary f) :=
  let word := String.ofList (cs.map Char.toLower)
  if word = "nan" then some .nan
  else if word = "inf" ∨ word = "infinity" then some (.infinite negative)
  else readDecimal? f negative cs

/-- A number with a sign or without one. -/
def read? (f : FloatFormat) : List Char → Option (Binary f)
  | '-' :: cs => readUnsigned? f true cs
  | '+' :: cs => readUnsigned? f false cs
  | cs => readUnsigned? f false cs

end EntityQuery.Binary
