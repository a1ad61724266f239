import EntityQuery.Number.Binary.Text
import EntityQuery.Number.Digits
import EntityQuery.Time.Date
import EntityQuery.Toml

/-! # Bare values in TOML

Numbers, dates, times and the two words for truth.  Digits may be grouped by single underscores. -/

namespace EntityQuery.Toml

/-- The number that grouped digits write after those of `n`; an underscore stands between two. -/
def groupedAfter? (digitOf : Char → Option Nat) (base n : Nat) (afterDigit : Bool) :
    List Char → Option Nat
  | [] => if afterDigit then some n else none
  | c :: cs =>
    if c = '_' then if afterDigit then groupedAfter? digitOf base n false cs else none
    else (digitOf c).bind fun d => groupedAfter? digitOf base (base * n + d) true cs

/-- The number that grouped digits write. -/
def grouped? (digitOf : Char → Option Nat) (base : Nat) (cs : List Char) : Option Nat :=
  groupedAfter? digitOf base 0 false cs

/-- A digit of a base up to sixteen. -/
def digitOfBase? (base : Nat) (c : Char) : Option Nat :=
  let d? :=
    if 'a' ≤ c ∧ c ≤ 'f' then some (c.toNat - 'a'.toNat + 10)
    else if 'A' ≤ c ∧ c ≤ 'F' then some (c.toNat - 'A'.toNat + 10)
    else digit? c
  d?.filter (· < base)

/-- A decimal number whose first digit is zero only if it is the only one. -/
def decimal? (cs : List Char) : Option Nat :=
  if cs.head? = some '0' ∧ cs.length > 1 then none else grouped? digit? 10 cs

/-- Whether there is a minus, and what is behind the sign. -/
def splitSign (cs : List Char) : Bool × List Char :=
  match cs with
  | '-' :: rest => (true, rest)
  | '+' :: rest => (false, rest)
  | rest => (false, rest)

/-- The size of a decimal number with or without a sign.  An underscore may follow the sign, and
zeros may follow such an underscore. -/
def magnitude? (cs : List Char) : Option Nat :=
  match cs with
  | '-' :: '_' :: rest | '+' :: '_' :: rest => grouped? digit? 10 rest
  | cs => decimal? (splitSign cs).2

/-- An integer in base 16, 8 or 2 behind its mark, or a decimal one, which alone may have a sign. -/
def integer? (cs : List Char) : Option Int :=
  match cs with
  | '0' :: 'x' :: rest => (grouped? (digitOfBase? 16) 16 rest).map fun n => (n : Int)
  | '0' :: 'o' :: rest => (grouped? (digitOfBase? 8) 8 rest).map fun n => (n : Int)
  | '0' :: 'b' :: rest => (grouped? (digitOfBase? 2) 2 rest).map fun n => (n : Int)
  | cs => (magnitude? cs).map fun n => if (splitSign cs).1 then -(n : Int) else n

/-- A number with a point or an exponent, or the word for infinity or for no number. -/
def isFloat (cs : List Char) : Bool :=
  let word := String.ofList (splitSign cs).2
  if word = "inf" ∨ word = "nan" then true
  else
    let mantissa := cs.takeWhile fun c => c ≠ 'e' ∧ c ≠ 'E'
    let exponent := cs.drop mantissa.length
    let whole := mantissa.takeWhile (· ≠ '.')
    let part := mantissa.drop whole.length
    (!exponent.isEmpty || !part.isEmpty) && (magnitude? whole).isSome &&
      (part.isEmpty || (grouped? digit? 10 (part.drop 1)).isSome) &&
      (exponent.isEmpty || (grouped? digit? 10 (splitSign (exponent.drop 1)).2).isSome)

/-- A decimal number too large for a double. -/
def overflows (cs : List Char) : Bool :=
  (splitSign cs).2 ≠ "inf".toList &&
    (Binary.read? .double (cs.filter (· ≠ '_'))).any Binary.isInfinite

/-- Two digits that write a number below a limit. -/
def isPair (limit : Nat) (cs : List Char) : Bool :=
  cs.length = 2 && ((readNat? cs).any (· < limit))

/-- Ten characters that are a date of the calendar. -/
def isDate (cs : List Char) : Bool :=
  match (cs.take 4, cs.drop 4) with
  | (year, ['-', m, n, '-', d, e]) =>
    match readNat? year, readNat? [m, n], readNat? [d, e] with
    | some year, some month, some day => (Date.ofParts? year month day).isSome
    | _, _, _ => false
  | _ => false

/-- Hours and minutes, with or without seconds and their fraction. -/
def isTime (cs : List Char) : Bool :=
  isPair 24 (cs.take 2) && (cs.drop 2).head? = some ':' && isPair 60 ((cs.drop 3).take 2) &&
    match cs.drop 5 with
    | [] => true
    | ':' :: rest =>
      isPair 61 (rest.take 2) &&
        match rest.drop 2 with
        | [] => true
        | '.' :: fraction => (readNat? fraction).isSome
        | _ => false
    | _ => false

/-- An offset from universal time. -/
def isOffset : List Char → Bool
  | ['Z'] | ['z'] => true
  | c :: rest =>
    (c = '+' || c = '-') && isPair 24 (rest.take 2) && (rest.drop 2).head? = some ':' &&
      isPair 60 (rest.drop 3)
  | [] => false

/-- A date, a time, or both with or without an offset. -/
def isMoment (cs : List Char) : Bool :=
  isDate cs || isTime cs ||
    match cs.drop 10 with
    | c :: rest =>
      let time := rest.takeWhile fun c => c = ':' || c = '.' || (digit? c).isSome
      let offset := rest.drop time.length
      (c = 'T' || c = 't' || c = ' ') && isDate (cs.take 10) && isTime time &&
        (offset.isEmpty || isOffset offset)
    | [] => false

/-- The value that a bare text writes.  Integers are kept as far as 128 bits hold them, floats as
far as a double does. -/
def bare? (cs : List Char) : Option Toml :=
  if cs = "true".toList then some (.bool true)
  else if cs = "false".toList then some (.bool false)
  else match integer? cs with
    | some n => if -(2 ^ (127 : Nat)) ≤ n ∧ n < 2 ^ (128 : Nat) then some (.integer n) else none
    | none =>
      if isFloat cs then if overflows cs then none else some (.float (String.ofList cs))
      else if isMoment cs then some (.moment (String.ofList cs))
      else none

/-- Characters of values that are not quoted. -/
def isBare (c : Char) : Bool := c.isAlphanum || "+-_.:".toList.contains c

/-- A bare value and what follows it.  A blank may separate a date from a time. -/
def readBare? (cs : List Char) : Option (Toml × List Char) :=
  let run := cs.takeWhile isBare
  let rest := cs.drop run.length
  let time := match rest with
    | ' ' :: c :: more => if isDate run ∧ (digit? c).isSome then ' ' :: (c :: more).takeWhile isBare
      else []
    | _ => []
  (bare? (run ++ time)).map fun v => (v, rest.drop time.length)

end EntityQuery.Toml
