import EntityQuery.Proofs.Number.Digits
import EntityQuery.Time.Reading

/-! # Reading back dates and times

A date is written with fields of fixed widths between marks, a time with a fraction of no more
digits than it needs.  Each reader gives back what was written and leaves what follows it, so that
the text of a date or a date-time is read as it (`Date.read?_text`, `DateTime.read?_text`). -/

namespace EntityQuery

theorem trimLeft_of_isDigit {ds : List Char} (hne : ds ≠ []) (h : ∀ c ∈ ds, c.isDigit)
    (rest : List Char) : Text.trimLeft (ds ++ rest) = ds ++ rest := by
  obtain ⟨d, ds, rfl⟩ := List.exists_cons_of_ne_nil hne
  exact Text.trimLeft_cons (isBlank_of_isDigit (h d List.mem_cons_self)) (ds ++ rest)

/-- A number is read back from a field that has room for it, whatever follows. -/
theorem readField?_paddedDigits {width n : Nat} (hwidth : 0 < width) (h : n < 10 ^ width)
    (rest : List Char) : readField? width (paddedDigits width n ++ rest) = some (n, rest) := by
  have hlength := length_paddedDigits hwidth h
  have hdigits : ∀ c ∈ paddedDigits width n, c.isDigit := fun c => isDigit_of_mem_paddedDigits
  rw [readField?, trimLeft_of_isDigit (paddedDigits_ne_nil width n) hdigits,
    spanDigits_append hdigits (Nat.le_of_eq hlength) (.inl hlength)]
  dsimp only
  rw [readNat?_paddedDigits, Option.map_some]

theorem readMark?_cons (mark : Char) (rest : List Char) :
    readMark? mark (mark :: rest) = some rest :=
  if_pos rfl

/-! ## Dates -/

/-- A year after its sign is read as far as its digits go. -/
theorem readYear?.signed?_paddedDigits (width n : Nat) {rest : List Char}
    (hrest : ∀ c ∈ rest.head?, c.isDigit = false) (sign : Nat → Int) :
    readYear?.signed? (paddedDigits width n ++ rest) sign = some (sign n, rest) := by
  have hdigits : ∀ c ∈ paddedDigits width n, c.isDigit := fun c => isDigit_of_mem_paddedDigits
  rw [signed?, spanDigits_append hdigits (by simp) (.inr hrest)]
  dsimp only
  rw [readNat?_paddedDigits, Option.map_some]

/-- A year is read back, also one that needs a sign. -/
theorem readYear?_yearText (year : Int) {rest : List Char}
    (hrest : ∀ c ∈ rest.head?, c.isDigit = false) :
    readYear? (Date.yearText year ++ rest) = some (year, rest) := by
  rw [Date.yearText]
  split
  · rename_i hnegative
    have hyear : -(year.natAbs : Int) = year := by omega
    rw [List.cons_append, readYear?, Text.trimLeft_cons rfl]
    exact (readYear?.signed?_paddedDigits 4 _ hrest _).trans (by rw [hyear])
  · split
    · have hyear : (year.natAbs : Int) = year := by omega
      rw [List.cons_append, readYear?, Text.trimLeft_cons rfl]
      exact (readYear?.signed?_paddedDigits 4 _ hrest _).trans (by rw [hyear])
    · have hdigits : ∀ c ∈ paddedDigits 4 year.natAbs, c.isDigit :=
        fun c => isDigit_of_mem_paddedDigits
      have hyear : (year.natAbs : Int) = year := by omega
      -- Without a sign no more than four digits are read; such a year has no more.
      have hfour : year.natAbs < 10 ^ 4 := by omega
      have hne := paddedDigits_ne_nil 4 year.natAbs
      rw [readYear?, trimLeft_of_isDigit hne hdigits]
      split
      · rename_i h
        exact absurd h (append_ne_cons_of_isDigit hne hdigits rest rfl _)
      · rename_i h
        exact absurd h (append_ne_cons_of_isDigit hne hdigits rest rfl _)
      · rw [readField?_paddedDigits (by decide) hfour]
        simp [hyear]

theorem Date.ofParts?_self (a : Date) : ofParts? a.year a.month a.day = some a :=
  dif_pos a.isDate

theorem daysInMonth_le (year : Int) (month : Nat) : daysInMonth year month ≤ 31 := by
  unfold daysInMonth
  split
  · split <;> decide
  all_goals decide

/-- A date is read back, whatever stands behind it. -/
theorem readDatePart?_chars (a : Date) (rest : List Char) :
    readDatePart? (a.chars ++ rest) = some (a, rest) := by
  have hmonth : a.month < 10 ^ 2 := Nat.lt_of_le_of_lt a.isDate.2.2.2.1 (by decide)
  have hday : a.day < 10 ^ 2 :=
    Nat.lt_of_le_of_lt (Nat.le_trans a.isDate.2.2.2.2.2 (daysInMonth_le _ _)) (by decide)
  have hmark : ∀ more : List Char, ∀ c ∈ ('-' :: more).head?, c.isDigit = false := by
    intro more c hc
    rw [← Option.some.inj hc]
    rfl
  simp only [readDatePart?, Date.chars, List.append_assoc, List.cons_append,
    readYear?_yearText _ (hmark _), readMark?_cons, readField?_paddedDigits (by decide) hmonth,
    readField?_paddedDigits (by decide) hday, Date.ofParts?_self, Option.bind_eq_bind,
    Option.bind_some, Option.pure_def]

/-- The text of a date is read as the date. -/
theorem Date.read?_text (a : Date) : read? a.text.toList = some a := by
  have hread := readDatePart?_chars a []
  rw [List.append_nil] at hread
  rw [read?, text, String.toList_ofList, readWhole?, hread]

/-! ## Times -/

/-- A fraction is read as the nanoseconds within the second. -/
theorem readFraction?_fraction (nano : Nat) :
    readFraction? (TimeOfDay.fraction nano) = some (nano % 1000000000, []) := by
  have hpadded : ∀ width n : Nat, 0 < width → width ≤ 9 → n < 10 ^ width →
      readFraction? ('.' :: paddedDigits width n) = some (n * 10 ^ (9 - width), []) := by
    intro width n hpos hnine hn
    have hlength := length_paddedDigits hpos hn
    have hspan : spanDigits 9 (paddedDigits width n ++ []) = (paddedDigits width n, []) :=
      spanDigits_append (fun c => isDigit_of_mem_paddedDigits) (by omega) (.inr nofun)
    rw [List.append_nil] at hspan
    simp only [readFraction?, hspan, readNat?_paddedDigits, Option.bind_eq_bind, Option.bind_some,
      hlength]
    rfl
  rw [TimeOfDay.fraction]
  split
  · rename_i hzero
    rw [hzero]
    rfl
  · split
    · rw [hpadded 3 _ (by decide) (by decide) (by omega)]
      congr 2
      omega
    · split
      · rw [hpadded 6 _ (by decide) (by decide) (by omega)]
        congr 2
        omega
      · rw [hpadded 9 _ (by decide) (by decide) (by omega)]
        congr 2
        omega

/-- A second of a billion nanoseconds or more is written as the second 60, and comes back. -/
theorem TimeOfDay.ofParts?_self (a : TimeOfDay) :
    ofParts? a.hour a.minute (a.second + a.nano / 1000000000) (a.nano % 1000000000) = some a := by
  obtain ⟨hour, minute, second, nano, htime⟩ := a
  have hparts := htime
  obtain ⟨-, -, hsecond, hnano, hleap⟩ := hparts
  -- A billion nanoseconds or more there can be in the second 59 only.
  by_cases hleap' : nano < 1000000000
  · have hdiv : nano / 1000000000 = 0 := by omega
    have hmod : nano % 1000000000 = nano := by omega
    have hne : second ≠ 60 := by omega
    simp [ofParts?, hdiv, hmod, hne, htime]
  · have hdiv : nano / 1000000000 = 1 := by omega
    have hmod : nano % 1000000000 + 1000000000 = nano := by omega
    obtain rfl : second = 59 := by omega
    simp [ofParts?, hdiv, hmod, htime]

/-- A time is read back, also a leap second. -/
theorem readTimePart?_chars (a : TimeOfDay) : readTimePart? a.chars = some (a, []) := by
  have hhour : a.hour < 10 ^ 2 := Nat.lt_trans a.isTime.1 (by decide)
  have hminute : a.minute < 10 ^ 2 := Nat.lt_trans a.isTime.2.1 (by decide)
  have hsecond : a.second + a.nano / 1000000000 < 10 ^ 2 := by
    obtain ⟨-, -, hsecond, hnano, -⟩ := a.isTime
    omega
  simp only [readTimePart?, TimeOfDay.chars, List.append_assoc, List.cons_append,
    readField?_paddedDigits (by decide) hhour, readField?_paddedDigits (by decide) hminute,
    readField?_paddedDigits (by decide) hsecond, readMark?_cons, readFraction?_fraction,
    a.ofParts?_self, Option.bind_eq_bind, Option.bind_some, Option.pure_def]

/-- The text of a date-time is read as the date-time. -/
theorem DateTime.read?_text (a : DateTime) : read? a.text.toList = some a := by
  have hmarked : readMarked? (a.date.chars ++ 'T' :: a.time.chars) = some (a, []) := by
    simp only [readMarked?, readDatePart?_chars, readMark?_cons, readTimePart?_chars,
      Option.bind_eq_bind, Option.bind_some, Option.pure_def]
  rw [read?, text, String.toList_ofList, readWhole?, hmarked]
  rfl

/-! ## Blanks

A reader that is given a whole text is given it without the blanks at its ends; here are none. -/

theorem isBlank_of_mem_paddedDigits {width n : Nat} {c : Char} (h : c ∈ paddedDigits width n) :
    Text.isBlank c = false :=
  isBlank_of_isDigit (isDigit_of_mem_paddedDigits h)

theorem Date.isBlank_of_mem_yearText {year : Int} {c : Char} (h : c ∈ yearText year) :
    Text.isBlank c = false := by
  rw [yearText] at h
  split at h
  · rcases List.mem_cons.1 h with rfl | h
    · rfl
    · exact isBlank_of_mem_paddedDigits h
  · split at h
    · rcases List.mem_cons.1 h with rfl | h
      · rfl
      · exact isBlank_of_mem_paddedDigits h
    · exact isBlank_of_mem_paddedDigits h

theorem Date.isBlank_of_mem_chars {a : Date} {c : Char} (h : c ∈ a.chars) :
    Text.isBlank c = false := by
  simp only [chars, List.mem_append, List.mem_cons] at h
  rcases h with (h | rfl | h) | rfl | h
  · exact isBlank_of_mem_yearText h
  · rfl
  · exact isBlank_of_mem_paddedDigits h
  · rfl
  · exact isBlank_of_mem_paddedDigits h

/-- The text of a date has no blanks. -/
theorem Date.trim_text (a : Date) : Text.trim a.text.toList = a.text.toList := by
  refine Text.trim_eq_self fun c hc => ?_
  rw [text, String.toList_ofList] at hc
  exact isBlank_of_mem_chars hc

theorem TimeOfDay.isBlank_of_mem_fraction {nano : Nat} {c : Char} (h : c ∈ fraction nano) :
    Text.isBlank c = false := by
  have hpoint : ∀ {width n : Nat}, c ∈ '.' :: paddedDigits width n → Text.isBlank c = false := by
    intro width n h
    rcases List.mem_cons.1 h with rfl | h
    · rfl
    · exact isBlank_of_mem_paddedDigits h
  rw [fraction] at h
  split at h
  · cases h
  · split at h
    · exact hpoint h
    · split at h
      · exact hpoint h
      · exact hpoint h

theorem TimeOfDay.isBlank_of_mem_chars {a : TimeOfDay} {c : Char} (h : c ∈ a.chars) :
    Text.isBlank c = false := by
  simp only [chars, List.mem_append, List.mem_cons] at h
  rcases h with ((h | rfl | h) | rfl | h) | h
  · exact isBlank_of_mem_paddedDigits h
  · rfl
  · exact isBlank_of_mem_paddedDigits h
  · rfl
  · exact isBlank_of_mem_paddedDigits h
  · exact isBlank_of_mem_fraction h

theorem DateTime.trim_text (a : DateTime) : Text.trim a.text.toList = a.text.toList := by
  refine Text.trim_eq_self fun c hc => ?_
  rw [text, String.toList_ofList, List.mem_append, List.mem_cons] at hc
  rcases hc with hc | rfl | hc
  · exact Date.isBlank_of_mem_chars hc
  · rfl
  · exact TimeOfDay.isBlank_of_mem_chars hc

end EntityQuery
