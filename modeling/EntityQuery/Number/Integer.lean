import EntityQuery.Number.Digits

/-! # Signed integers of five widths

An integer is carried with its width and the proof that the width holds it. -/

namespace EntityQuery

/-- The widths of signed integers. -/
inductive IntWidth where
  | byte
  | short
  | int
  | long
  | big
deriving DecidableEq, Repr

namespace IntWidth

/-- The number of bits, that of the sign included. -/
def bits : IntWidth → Nat
  | .byte => 8
  | .short => 16
  | .int => 32
  | .long => 64
  | .big => 128

/-- The integers that two's complement of this width can write. -/
def Holds (w : IntWidth) (n : Int) : Prop :=
  -(2 ^ (w.bits - 1) : Int) ≤ n ∧ n < (2 ^ (w.bits - 1) : Int)

instance (w : IntWidth) (n : Int) : Decidable (w.Holds n) :=
  inferInstanceAs (Decidable (_ ∧ _))

theorem holds_zero (w : IntWidth) : w.Holds 0 := by
  cases w <;> decide

end IntWidth

/-- An integer that fits its width. -/
structure BoundedInt (w : IntWidth) where
  val : Int
  inRange : w.Holds val
deriving DecidableEq

namespace BoundedInt

variable {w : IntWidth}

def zero (w : IntWidth) : BoundedInt w := ⟨0, w.holds_zero⟩

instance : Inhabited (BoundedInt w) := ⟨zero w⟩

/-- The integer in this width, if the width holds it. -/
def ofInt? (w : IntWidth) (n : Int) : Option (BoundedInt w) :=
  if h : w.Holds n then some ⟨n, h⟩ else none

/-- What fits already is kept as it is. -/
theorem ofInt?_val (a : BoundedInt w) : ofInt? w a.val = some a := by
  simp [ofInt?, a.inRange]

/-- An integer is bounded to itself or not at all. -/
theorem ofInt?_eq_some_iff {n : Int} {a : BoundedInt w} : ofInt? w n = some a ↔ a.val = n := by
  constructor
  · intro h
    by_cases hn : w.Holds n
    · simp only [ofInt?, hn, dif_pos, Option.some.injEq] at h
      simp [← h]
    · simp [ofInt?, hn] at h
  · rintro rfl
    exact ofInt?_val a

/-- The integer of this width that a text of an optional sign and digits writes. -/
def read? (w : IntWidth) (cs : List Char) : Option (BoundedInt w) :=
  (readInt? cs).bind (ofInt? w)

/-- Digits without leading zeros, after a minus sign for a negative integer. -/
def text (a : BoundedInt w) : String := toString a.val

end BoundedInt

end EntityQuery
