import EntityQuery.Number.Digits

/-! # Binary floating point

A finite number is a sign, a significand and a power of two that its format can write.  Every
operation takes the exact rational result and rounds it once, to the nearest number of the format,
a half going to the even significand.  Signed zeros, infinities and one NaN complete the format. -/

namespace EntityQuery

/-- A format is given by the bits of a significand and the least and largest power of two that a
significand is scaled by. -/
structure FloatFormat where
  precision : Nat
  minExponent : Int
  maxExponent : Int
deriving DecidableEq, Repr

namespace FloatFormat

/-- Numbers of 32 bits. -/
def single : FloatFormat := ⟨24, -149, 104⟩

/-- Numbers of 64 bits. -/
def double : FloatFormat := ⟨53, -1074, 971⟩

/-- A significand uses all its bits, except with the least exponent. -/
def Fits (f : FloatFormat) (m : Nat) (q : Int) : Prop :=
  m < 2 ^ f.precision ∧ f.minExponent ≤ q ∧ q ≤ f.maxExponent ∧
    (2 ^ (f.precision - 1) ≤ m ∨ q = f.minExponent)

instance (f : FloatFormat) (m : Nat) (q : Int) : Decidable (f.Fits m q) :=
  inferInstanceAs (Decidable (_ ∧ _))

end FloatFormat

/-- A number of a format.  A finite one is its significand times two to the exponent, which the
format has room for. -/
inductive Binary (f : FloatFormat) where
  | nan
  | infinite (negative : Bool)
  | finite (negative : Bool) (significand : Nat) (exponent : Int)
      (fits : f.Fits significand exponent)
deriving DecidableEq

abbrev Single := Binary .single
abbrev Double := Binary .double

/-- The quotient to the nearest integer, a half to the even one. -/
def roundDiv (num den : Nat) : Nat :=
  let q := num / den
  let r := num % den
  if 2 * r < den ∨ (2 * r = den ∧ q % 2 = 0) then q else q + 1

namespace Binary

variable {f : FloatFormat}

/-- The number of the format with this significand and exponent; infinite if there is none. -/
def ofParts (f : FloatFormat) (negative : Bool) (m : Nat) (q : Int) : Binary f :=
  if h : f.Fits m q then .finite negative m q h else .infinite negative

/-- Zero of either sign, with the least exponent. -/
def zero (f : FloatFormat) (negative : Bool) : Binary f := ofParts f negative 0 f.minExponent

/-- The power of two that leaves `precision` bits before the point of `num / den`. -/
def scaleOf (f : FloatFormat) (num den : Nat) : Int :=
  let gap : Int := (Nat.log2 num : Int) - (Nat.log2 den : Int)
  let below := if gap ≥ 0 then num < den * 2 ^ gap.toNat else num * 2 ^ (-gap).toNat < den
  let q := if below then gap - f.precision else gap - f.precision + 1
  max q f.minExponent

/-- The number of the format nearest to `num / den`. -/
def round (f : FloatFormat) (negative : Bool) (num den : Nat) : Binary f :=
  if num = 0 then zero f negative
  else
    let q := scaleOf f num den
    let m := if q ≥ 0 then roundDiv num (den * 2 ^ q.toNat) else roundDiv (num * 2 ^ (-q).toNat) den
    if m = 2 ^ f.precision then ofParts f negative (2 ^ (f.precision - 1)) (q + 1)
    else ofParts f negative m q

/-- The number of the format nearest to `n · 2 ^ q`, a zero being positive. -/
def roundScaled (f : FloatFormat) (n : Int) (q : Int) : Binary f :=
  if q ≥ 0 then round f (decide (n < 0)) (n.natAbs * 2 ^ q.toNat) 1
  else round f (decide (n < 0)) n.natAbs (2 ^ (-q).toNat)

/-- The number next to an integer. -/
def ofInt (f : FloatFormat) (n : Int) : Binary f := roundScaled f n 0

/-- The number of the format nearest to `n · 10 ^ k`.  Powers of ten far outside every format are
not computed. -/
def ofDecimal (f : FloatFormat) (negative : Bool) (n : Nat) (k : Int) : Binary f :=
  let magnitude : Int := (Nat.log2 n / 4 : Nat) + k
  if n = 0 then zero f negative
  else if magnitude > 400 then .infinite negative
  else if (Nat.log2 n : Int) + k < -400 then zero f negative
  else if k ≥ 0 then round f negative (n * 10 ^ k.toNat) 1
  else round f negative n (10 ^ (-k).toNat)

/-- The same number in another format, rounded if that has to be. -/
def convert (g : FloatFormat) : Binary f → Binary g
  | .nan => .nan
  | .infinite s => .infinite s
  | .finite s m q _ =>
    if q ≥ 0 then round g s (m * 2 ^ q.toNat) 1 else round g s m (2 ^ (-q).toNat)

/-- Only the sign changes, also of zero and of the infinite. -/
def neg : Binary f → Binary f
  | .nan => .nan
  | .infinite s => .infinite (!s)
  | .finite s m q h => .finite (!s) m q h

def isZero : Binary f → Bool
  | .finite _ m _ _ => m = 0
  | _ => false

def isInfinite : Binary f → Bool
  | .infinite _ => true
  | _ => false

/-- The signed significand. -/
def signed (negative : Bool) (m : Nat) : Int := if negative then -(m : Int) else m

/-- Two scaled integers over the smaller of their powers of two. -/
def aligned (a : Int) (q : Int) (b : Int) (r : Int) : Int × Int :=
  (a * 2 ^ (q - min q r).toNat, b * 2 ^ (r - min q r).toNat)

/-- Integers by their size. -/
def compareInt (a b : Int) : Ordering := compareOfLessAndEq a b

/-- The order of the numbers written; a NaN is not comparable and the zeros are equal. -/
def compare? : Binary f → Binary f → Option Ordering
  | .nan, _ | _, .nan => none
  | .infinite s, .infinite t => some (compareInt (signed s 1) (signed t 1))
  | .infinite s, .finite .. => some (if s then .lt else .gt)
  | .finite .., .infinite t => some (if t then .gt else .lt)
  | .finite s m q _, .finite t n r _ =>
    let p := aligned (signed s m) q (signed t n) r
    some (compareInt p.1 p.2)

/-- Equality of the numbers written: a NaN differs from itself, the zeros are equal. -/
def equals (x y : Binary f) : Bool := compare? x y = some .eq

/-- The sum is rounded once, from the exact sum over the smaller exponent. -/
def add : Binary f → Binary f → Binary f
  | .nan, _ | _, .nan => .nan
  | .infinite s, .infinite t => if s = t then .infinite s else .nan
  | .infinite s, _ => .infinite s
  | _, .infinite t => .infinite t
  | .finite s m q _, .finite t n r _ =>
    let p := aligned (signed s m) q (signed t n) r
    if m = 0 ∧ n = 0 then zero f (s && t) else roundScaled f (p.1 + p.2) (min q r)

/-- The product is rounded once, from the exact product. -/
def mul : Binary f → Binary f → Binary f
  | .nan, _ | _, .nan => .nan
  | .infinite s, .infinite t => .infinite (s ^^ t)
  | .infinite s, .finite t n _ _ => if n = 0 then .nan else .infinite (s ^^ t)
  | .finite s m _ _, .infinite t => if m = 0 then .nan else .infinite (s ^^ t)
  | .finite s m q _, .finite t n r _ =>
    if q + r ≥ 0 then round f (s ^^ t) (m * n * 2 ^ (q + r).toNat) 1
    else round f (s ^^ t) (m * n) (2 ^ (-(q + r)).toNat)

/-- The quotient is rounded once.  What is divided by zero is infinite, but for zero itself. -/
def div : Binary f → Binary f → Binary f
  | .nan, _ | _, .nan => .nan
  | .infinite _, .infinite _ => .nan
  | .infinite s, .finite t _ _ _ => .infinite (s ^^ t)
  | .finite s _ _ _, .infinite t => zero f (s ^^ t)
  | .finite s m q _, .finite t n r _ =>
    if n = 0 then (if m = 0 then .nan else .infinite (s ^^ t))
    else if q - r ≥ 0 then round f (s ^^ t) (m * 2 ^ (q - r).toNat) n
    else round f (s ^^ t) m (n * 2 ^ (-(q - r)).toNat)

instance : Inhabited (Binary f) := ⟨zero f false⟩

end Binary

end EntityQuery
