import EntityQuery.Time.Date

/-! # Times of day and date-times

A time counts nanoseconds within a second.  A second numbered 60 is written with a count of a
billion or more within the second before it. -/

namespace EntityQuery

/-- Parts of a time of day.  A leap second is the second 59 with a nanosecond past its end. -/
def IsTime (hour minute second nano : Nat) : Prop :=
  hour < 24 ∧ minute < 60 ∧ second < 60 ∧ nano < 2000000000 ∧ (nano < 1000000000 ∨ second = 59)

instance (hour minute second nano : Nat) : Decidable (IsTime hour minute second nano) :=
  inferInstanceAs (Decidable (_ ∧ _))

/-- A time of day to the nanosecond. -/
structure TimeOfDay where
  hour : Nat
  minute : Nat
  second : Nat
  nano : Nat
  isTime : IsTime hour minute second nano
deriving DecidableEq

namespace TimeOfDay

def midnight : TimeOfDay := ⟨0, 0, 0, 0, by decide⟩

/-- The time at a second of a minute, 60 included. -/
def ofParts? (hour minute second nano : Nat) : Option TimeOfDay :=
  let s := if second = 60 then 59 else second
  let n := if second = 60 then nano + 1000000000 else nano
  if h : IsTime hour minute s n then some ⟨hour, minute, s, n, h⟩ else none

def compare (a b : TimeOfDay) : Ordering :=
  (compareOfLessAndEq a.hour b.hour).then
    ((compareOfLessAndEq a.minute b.minute).then
      ((compareOfLessAndEq a.second b.second).then (compareOfLessAndEq a.nano b.nano)))

/-- A fraction of a second has no digits, or the first of 3, 6 and 9 that is exact. -/
def fraction (nano : Nat) : List Char :=
  let n := nano % 1000000000
  if n = 0 then []
  else if n % 1000000 = 0 then '.' :: paddedDigits 3 (n / 1000000)
  else if n % 1000 = 0 then '.' :: paddedDigits 6 (n / 1000)
  else '.' :: paddedDigits 9 n

/-- A leap second is written as the second 60. -/
def chars (a : TimeOfDay) : List Char :=
  paddedDigits 2 a.hour ++ ':' :: paddedDigits 2 a.minute ++
    ':' :: paddedDigits 2 (a.second + a.nano / 1000000000) ++ fraction a.nano

end TimeOfDay

/-- A day and a time of it, without a time zone. -/
structure DateTime where
  date : Date
  time : TimeOfDay
deriving DecidableEq

namespace DateTime

def atMidnight (date : Date) : DateTime := ⟨date, .midnight⟩

instance : Inhabited DateTime := ⟨atMidnight .epoch⟩

def compare (a b : DateTime) : Ordering :=
  (a.date.compare b.date).then (a.time.compare b.time)

/-- Date and time in the form `2024-02-29T08:30:00.250`. -/
def text (a : DateTime) : String := String.ofList (a.date.chars ++ 'T' :: a.time.chars)

end DateTime

end EntityQuery
