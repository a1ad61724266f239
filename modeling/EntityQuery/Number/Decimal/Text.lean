import EntityQuery.Number.Decimal
import EntityQuery.Number.Digits
import EntityQuery.Text.Pieces

/-! # The text of a decimal

Written are all its places.  Read are digits with an optional sign and point, `_` allowed after a
digit; digits after the last place there is room for are rounded away.  Where that reading fails, a
coefficient with an exponent is tried. -/

namespace EntityQuery.Decimal

/-- All places behind the point are written, zeros as well. -/
def text (a : Decimal) : String :=
  let ds := paddedDigits (a.scale + 1) a.coefficient
  let body :=
    if a.scale = 0 then ds
    else ds.take (ds.length - a.scale) ++ '.' :: ds.drop (ds.length - a.scale)
  String.ofList (if a.negative then '-' :: body else body)

/-- Rounds on the first digit there is no room for.  A coefficient that outgrows its room gives up
its last place. -/
def roundLast? (n scale digit : Nat) : Option (Nat × Nat) :=
  if digit < 5 then some (n, scale)
  else if n + 1 < capacity then some (n + 1, scale)
  else if scale = 0 then none
  else some ((n + 5) / 10, scale - 1)

/-- Rounds on the digits there is no room for, of which the first decides.  They may be
separated. -/
def roundRest? (n scale : Nat) (cs : List Char) : Option (Nat × Nat) := do
  match ← (cs.filter (· ≠ '_')).mapM digit? with
  | [] => return (n, scale)
  | d :: _ => roundLast? n scale d

/-- Reads the rest of a number from its coefficient and places so far: `point` after the point,
`any` after a digit. -/
def readPlaces? (point any : Bool) (n scale : Nat) : List Char → Option (Nat × Nat)
  | [] => if any then some (n, scale) else none
  | c :: cs =>
    if point ∧ scale = maxScale then roundRest? n scale (c :: cs)
    else if c = '_' then if any then readPlaces? point any n scale cs else none
    else if c = '.' then if point then none else readPlaces? true any n scale cs
    else match digit? c with
      | none => none
      | some d =>
        if n * 10 + d < capacity then
          readPlaces? point true (n * 10 + d) (if point then scale + 1 else 0) cs
        else if point then roundRest? n scale (c :: cs)
        else none

/-- Digits and at most one point, behind a sign if there is one. -/
def readPlain? (cs : List Char) : Option Decimal :=
  let read (negative : Bool) (cs : List Char) : Option Decimal :=
    (readPlaces? false false 0 0 cs).bind fun p => ofParts? negative p.1 p.2
  match cs with
  | '-' :: cs => read true cs
  | '+' :: cs => read false cs
  | cs => read false cs

/-- The number without its last `k` digits, a half being rounded up. -/
def dropDigits (k n : Nat) : Nat := if k = 0 then n else (n / 10 ^ (k - 1) + 5) / 10

/-- Moves the point to the left; places there is no room for are rounded away, the sign stays. -/
def shiftLeft? (a : Decimal) (k : Nat) : Option Decimal :=
  let excess := a.scale + k - maxScale
  (ofParts? a.negative (dropDigits excess a.coefficient) (a.scale + k - excess)).map fun d =>
    { d with negative := a.negative }

/-- Moves the point to the right, as far as there is room for the digits. -/
def shiftRight? (a : Decimal) (k : Nat) : Option Decimal :=
  ofParts? a.negative (a.coefficient * 10 ^ (k - a.scale)) (a.scale - k)

/-- The size of an exponent: at most `maxScale`, with an optional plus sign. -/
def readShift? (cs : List Char) : Option Nat :=
  let digits := match cs with
    | '+' :: cs => cs
    | cs => cs
  (readNat? digits).bind fun n => if n ≤ maxScale then some n else none

/-- A plain decimal, `e` or `E`, and an exponent. -/
def readScientific? (cs : List Char) : Option Decimal := do
  let base := cs.takeWhile fun c => c ≠ 'e' ∧ c ≠ 'E'
  match cs.drop base.length with
  | [] => none
  | _ :: exponent =>
    let a ← readPlain? base
    match exponent with
    | '-' :: digits => shiftLeft? a (← readShift? digits)
    | digits => shiftRight? a (← readShift? digits)

/-- What cannot be read as plain digits may have an exponent. -/
def read? (cs : List Char) : Option Decimal := (readPlain? cs).or (readScientific? cs)

end EntityQuery.Decimal
