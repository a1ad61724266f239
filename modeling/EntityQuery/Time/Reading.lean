import EntityQuery.Text.Blank
import EntityQuery.Time.DateTime

/-! # Reading dates and times

Numbers need no padding and may follow blanks; marks between them have to stand as written.  A year
has at most four digits, unless it has a sign. -/

namespace EntityQuery

/-- A number of at most `limit` digits, blanks skipped in front, and what follows it. -/
def readField? (limit : Nat) (cs : List Char) : Option (Nat × List Char) :=
  let (ds, rest) := spanDigits limit (Text.trimLeft cs)
  (readNat? ds).map fun n => (n, rest)

/-- A year, which may have more than four digits behind a sign. -/
def readYear? (cs : List Char) : Option (Int × List Char) :=
  match Text.trimLeft cs with
  | '-' :: cs => signed? cs fun n => -(n : Int)
  | '+' :: cs => signed? cs fun n => (n : Int)
  | cs => (readField? 4 cs).map fun (n, rest) => ((n : Int), rest)
where
  /-- The digits follow the sign at once. -/
  signed? (cs : List Char) (sign : Nat → Int) : Option (Int × List Char) :=
    let (ds, rest) := spanDigits cs.length cs
    (readNat? ds).map fun n => (sign n, rest)

/-- The rest after a mark that has to come next. -/
def readMark? (mark : Char) : List Char → Option (List Char)
  | [] => none
  | c :: cs => if c = mark then some cs else none

/-- A date at the beginning of a text, with what is behind it. -/
def readDatePart? (cs : List Char) : Option (Date × List Char) := do
  let (year, cs) ← readYear? cs
  let cs ← readMark? '-' cs
  let (month, cs) ← readField? 2 cs
  let cs ← readMark? '-' cs
  let (day, cs) ← readField? 2 cs
  let date ← Date.ofParts? year month day
  return (date, cs)

/-- An optional fraction of a second in nanoseconds; digits after the ninth are skipped. -/
def readFraction? : List Char → Option (Nat × List Char)
  | '.' :: cs => do
    let (ds, rest) := spanDigits 9 cs
    let n ← readNat? ds
    let (_, rest) := spanDigits rest.length rest
    return (n * 10 ^ (9 - ds.length), rest)
  | cs => some (0, cs)

/-- A time at the beginning of a text, with what is behind it. -/
def readTimePart? (cs : List Char) : Option (TimeOfDay × List Char) := do
  let (hour, cs) ← readField? 2 cs
  let cs ← readMark? ':' cs
  let (minute, cs) ← readField? 2 cs
  let cs ← readMark? ':' cs
  let (second, cs) ← readField? 2 cs
  let (nano, cs) ← readFraction? cs
  let time ← TimeOfDay.ofParts? hour minute second nano
  return (time, cs)

/-- The whole of a text as what `read?` reads at its head. -/
def readWhole? {α : Type} (read? : List Char → Option (α × List Char)) (cs : List Char) :
    Option α :=
  match read? cs with
  | some (a, []) => some a
  | _ => none

/-- A text that is a date and nothing else. -/
def Date.read? (cs : List Char) : Option Date := readWhole? readDatePart? cs

/-- Date and time with a `T` between them. -/
def readMarked? (cs : List Char) : Option (DateTime × List Char) := do
  let (date, cs) ← readDatePart? cs
  let cs ← readMark? 'T' cs
  let (time, cs) ← readTimePart? cs
  return (⟨date, time⟩, cs)

/-- Date and time with blanks, or nothing, between them. -/
def readSpaced? (cs : List Char) : Option (DateTime × List Char) := do
  let (date, cs) ← readDatePart? cs
  let (time, cs) ← readTimePart? (Text.trimLeft cs)
  return (⟨date, time⟩, cs)

/-- A date-time; a date alone is its midnight. -/
def DateTime.read? (cs : List Char) : Option DateTime :=
  (readWhole? readMarked? cs).or
    ((readWhole? readSpaced? cs).or ((Date.read? cs).map DateTime.atMidnight))

end EntityQuery
