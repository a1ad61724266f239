import EntityQuery.Number.Digits

/-! # Calendar dates

Days of the Gregorian calendar, extended to all years from -262143 to 262142. -/

namespace EntityQuery

/-- Every fourth year but for centuries, of which every fourth one is. -/
def isLeap (year : Int) : Bool := year % 4 = 0 && (year % 100 ≠ 0 || year % 400 = 0)

def daysInMonth (year : Int) (month : Nat) : Nat :=
  match month with
  | 2 => if isLeap year then 29 else 28
  | 4 | 6 | 9 | 11 => 30
  | _ => 31

/-- The date exists in the calendar. -/
def IsDate (year : Int) (month day : Nat) : Prop :=
  -262143 ≤ year ∧ year ≤ 262142 ∧ 1 ≤ month ∧ month ≤ 12 ∧ 1 ≤ day ∧ day ≤ daysInMonth year month

instance (year : Int) (month day : Nat) : Decidable (IsDate year month day) :=
  inferInstanceAs (Decidable (_ ∧ _))

/-- A day of the calendar, which is extended to all years. -/
structure Date where
  year : Int
  month : Nat
  day : Nat
  isDate : IsDate year month day
deriving DecidableEq

namespace Date

/-- Parts that are a date; there is no thirtieth of February. -/
def ofParts? (year : Int) (month day : Nat) : Option Date :=
  if h : IsDate year month day then some ⟨year, month, day, h⟩ else none

/-- The first day of 1970. -/
def epoch : Date := ⟨1970, 1, 1, by decide⟩

instance : Inhabited Date := ⟨epoch⟩

/-- By year, then by month, then by day. -/
def compare (a b : Date) : Ordering :=
  (compareOfLessAndEq a.year b.year).then
    ((compareOfLessAndEq a.month b.month).then (compareOfLessAndEq a.day b.day))

/-- A year is written with four digits, and with a sign outside of 0 to 9999. -/
def yearText (year : Int) : List Char :=
  let ds := paddedDigits 4 year.natAbs
  if year < 0 then '-' :: ds else if year > 9999 then '+' :: ds else ds

/-- Year, month and day in the form `2024-02-29`. -/
def chars (a : Date) : List Char :=
  yearText a.year ++ '-' :: paddedDigits 2 a.month ++ '-' :: paddedDigits 2 a.day

def text (a : Date) : String := String.ofList a.chars

end Date

end EntityQuery
