import EntityQuery.Fixture
import EntityQuery.Proofs.Document.Numbers
import EntityQuery.Proofs.Number.Shortest
import EntityQuery.Proofs.Scalar

/-! # Integers in fixtures

A JSON integer goes through a carrier to the type of its attribute: the carrier is a long, or a
double for the integers beyond, and its text is what is read as the type.  A long passes its integer
on.  A double passes on the shortest digits that read back as it, which are some integer close by,
so what such an attribute holds then is close to the integer written and need not be it
(`Fixture.scalar_of_integer`). -/

namespace EntityQuery

/-- The types whose numbers are exact. -/
def ScalarType.isExact : ScalarType → Bool
  | .integer _ | .decimal => true
  | _ => false

/-- Integers and decimals are the types without rounding. -/
theorem ScalarType.cases_of_isExact {type : ScalarType} (h : type.isExact) :
    (∃ w, type = .integer w) ∨ type = .decimal := by
  cases type with
  | integer w => exact .inl ⟨w, rfl⟩
  | decimal => exact .inr rfl
  | bool | float | double | char | string | date | dateTime => cases h

/-- The integers that an exact type has room for. -/
def ScalarType.Holds : ScalarType → Int → Prop
  | .integer w, n => w.Holds n
  | .decimal, n => n.natAbs < Decimal.capacity
  | _, _ => False

namespace Scalar

/-- The scalar is this integer. -/
def Denotes : Scalar → Int → Prop
  | .integer _ b, n => b.val = n
  | .decimal a, n => a.signed = n * 10 ^ a.scale
  | _, _ => False

/-- A scalar denotes one integer at most. -/
theorem Denotes.unique {s : Scalar} {k n : Int} (hk : s.Denotes k) (hn : s.Denotes n) : k = n := by
  cases s with
  | integer w b => exact hk.symm.trans hn
  | decimal a =>
    have hscale : (10 : Int) ^ a.scale ≠ 0 := Int.pow_ne_zero (by decide)
    exact Int.eq_of_mul_eq_mul_right hscale (hk.symm.trans hn)
  | bool | float | double | char | string | date | dateTime => exact hk.elim

variable {type : ScalarType} {n : Int}

theorem denotes_of_ofInt? {a : Decimal} (h : Decimal.ofInt? n = some a) :
    (Scalar.decimal a).Denotes n := by
  rw [Decimal.ofInt?, Decimal.ofParts?] at h
  split at h
  · obtain rfl := Option.some.inj h
    change Binary.signed (decide (n < 0) && decide (n.natAbs ≠ 0)) n.natAbs = n * 10 ^ (0 : Nat)
    rw [Binary.signed, Int.pow_zero, Int.mul_one]
    by_cases hn : n < 0
    · have hne : n.natAbs ≠ 0 := by omega
      simp only [hn, hne, ne_eq, not_false_eq_true, decide_true, Bool.and_self, if_true]
      omega
    · simp only [hn, decide_false, Bool.false_and, if_neg Bool.false_ne_true]
      omega
  · cases h

/-- The text of an integer is read as it by the exact types that have room for it, and by no other
exact type. -/
theorem ofText?_toString_int (hexact : type.isExact) (hsmall : n.natAbs < Decimal.capacity) :
    (∃ s, ofText? type (toString n).toList = some s ∧ s.Denotes n ∧ type.Holds n) ∨
      ofText? type (toString n).toList = none ∧ ¬type.Holds n := by
  obtain ⟨w, rfl⟩ | rfl := ScalarType.cases_of_isExact hexact
  · rw [ofText?, trim_toString_int, BoundedInt.read?_toString_int, BoundedInt.ofInt?]
    split
    · rename_i hholds
      exact .inl ⟨_, rfl, rfl, hholds⟩
    · rename_i hholds
      exact .inr ⟨rfl, hholds⟩
  · obtain ⟨a, ha⟩ : ∃ a, Decimal.ofInt? n = some a := ⟨_, dif_pos ⟨hsmall, Nat.zero_le 28⟩⟩
    rw [ofText?, trim_toString_int, Decimal.read?_toString_int hsmall, ha]
    exact .inl ⟨_, rfl, denotes_of_ofInt? ha, hsmall⟩

/-- An integer becomes an exact type through its text. -/
theorem cast?_integer (hexact : type.isExact) {w : IntWidth} (b : BoundedInt w) :
    cast? type (.integer w b) = ofText? type (toString b.val).toList := by
  unfold cast?
  split
  · rename_i htype
    subst htype
    change _ = ofText? (.integer w) _
    rw [ofText?, trim_toString_int, BoundedInt.read?_toString_int, BoundedInt.ofInt?_val]
    rfl
  · obtain ⟨w', rfl⟩ | rfl := ScalarType.cases_of_isExact hexact <;> rfl

/-- A double becomes an exact type through its text. -/
theorem cast?_double (hexact : type.isExact) (x : Double) :
    cast? type (.double x) = ofText? type x.text.toList := by
  obtain ⟨w, rfl⟩ | rfl := ScalarType.cases_of_isExact hexact <;> rfl

/-- The sign of a zero is not read by an exact type. -/
theorem ofText?_minus_zero (hexact : type.isExact) :
    ofText? type "-0".toList = ofText? type (toString (0 : Int)).toList := by
  obtain ⟨w, rfl⟩ | rfl := ScalarType.cases_of_isExact hexact
  · cases w <;> decide
  · decide

end Scalar

namespace Fixture

/-- The document is loaded as this integer: by the types that have room for it, and as a value of
the type that is the integer. -/
structure LoadsAs (type : ScalarType) (d : Document) (n : Int) : Prop where
  loads_iff : (∃ v, scalar type d = .ok v) ↔ type.Holds n
  denotes : ∀ v, scalar type d = .ok v → ∃ s : Scalar, v = .scalar s ∧ s.type = type ∧ s.Denotes n

variable {type : ScalarType} {d : Document} {n : Int}

/-- A document is loaded as the integer that the text of its carrier writes. -/
theorem loadsAs_of_cast? {carrier : Scalar} (hexact : type.isExact)
    (hplain : plainValue? d = some (.scalar carrier))
    (hcast : carrier.cast? type = Scalar.ofText? type (toString n).toList)
    (hsmall : n.natAbs < Decimal.capacity) : LoadsAs type d n := by
  have hscalar : scalar type d = (carrier.cast type).map .scalar := by
    rw [scalar, hplain]
    rfl
  rw [Scalar.cast, hcast] at hscalar
  rcases Scalar.ofText?_toString_int hexact hsmall with ⟨s, hs, hdenotes, hholds⟩ | ⟨hnone, hholds⟩
  · have htype := Scalar.type_of_ofText? hs
    rw [hs] at hscalar
    refine ⟨iff_of_true ⟨_, hscalar⟩ hholds, ?_⟩
    intro v hv
    obtain rfl := Except.ok.inj (hscalar.symm.trans hv)
    exact ⟨s, rfl, htype, hdenotes⟩
  · rw [hnone] at hscalar
    refine ⟨iff_of_false ?_ hholds, ?_⟩
    · rintro ⟨v, hv⟩
      cases hscalar.symm.trans hv
    · intro v hv
      cases hscalar.symm.trans hv

/-- What fits a long is loaded exactly. -/
theorem loadsAs_long (hexact : type.isExact) (hn : IntWidth.long.Holds n) :
    LoadsAs type (.integer n) n := by
  have hplain : plainValue? (.integer n) = some (.scalar (.integer .long ⟨n, hn⟩)) := by
    rw [plainValue?, BoundedInt.ofInt?, dif_pos hn]
  refine loadsAs_of_cast? hexact hplain (Scalar.cast?_integer hexact _) ?_
  obtain ⟨hlow, hhigh⟩ := hn
  change n.natAbs < 2 ^ (96 : Nat)
  change -2 ^ (63 : Nat) ≤ n at hlow
  change n < 2 ^ (63 : Nat) at hhigh
  omega

/-- A negative zero is a double, and loads as zero all the same. -/
theorem loadsAs_negativeZero (hexact : type.isExact) : LoadsAs type Document.negativeZero 0 := by
  have htext : (Binary.neg (.ofInt .double 0) : Double).text = "-0" := by decide +kernel
  refine loadsAs_of_cast? hexact rfl ?_ (by decide)
  rw [Scalar.cast?_double hexact, htext, Scalar.ofText?_minus_zero hexact]

/-- An integer that is no long is loaded as the one whose text the nearest double has. -/
theorem loadsAs_double (hexact : type.isExact) (hn : ¬IntWidth.long.Holds n) {k : Int}
    (htext : (Binary.ofInt .double n).text = toString k) (hsmall : k.natAbs < Decimal.capacity) :
    LoadsAs type (.integer n) k := by
  have hplain : plainValue? (.integer n) = some (.scalar (.double (.ofInt .double n))) := by
    rw [plainValue?, BoundedInt.ofInt?, dif_neg hn]
  refine loadsAs_of_cast? hexact hplain ?_ hsmall
  rw [Scalar.cast?_double hexact, htext]

/-- Between 2⁶³ and the largest decimal lies no limit of an exact type. -/
theorem holds_of_large (hexact : type.isExact) {k : Int} (hn : 2 ^ (63 : Nat) ≤ n)
    (hn' : n < 2 ^ (96 : Nat)) (hk : 2 ^ (63 : Nat) ≤ k) (hk' : k < 2 ^ (96 : Nat)) :
    type.Holds k ↔ type.Holds n := by
  obtain ⟨w, rfl⟩ | rfl := ScalarType.cases_of_isExact hexact
  · cases w with
    | byte | short | int | long | big =>
      simp only [ScalarType.Holds, IntWidth.Holds, IntWidth.bits]
      omega
  · change k.natAbs < 2 ^ (96 : Nat) ↔ n.natAbs < 2 ^ (96 : Nat)
    omega

/-- A JSON integer of 64 bits, with a sign or without, is loaded by the exact types that have room
for it, and as an integer: as itself if it is a long, else as the one whose text the nearest double
has, at most 2¹¹ away. -/
theorem scalar_of_integer {cs : List Char} (hexact : type.isExact)
    (hd : Document.readNumber? cs = some d) (hn : readInt? cs = some n)
    (hlow : -2 ^ (63 : Nat) ≤ n) (hhigh : n < 2 ^ (64 : Nat)) :
    ∃ k : Int, LoadsAs type d k ∧ (type.Holds k ↔ type.Holds n) ∧
      (n < 2 ^ (63 : Nat) → k = n) ∧
      (2 ^ (63 : Nat) ≤ n → (Binary.ofInt .double n).text = toString k ∧
        (k - n).natAbs ≤ 2 ^ (11 : Nat)) := by
  rcases Document.readNumber?_of_readInt? hd hn hlow hhigh with rfl | ⟨rfl, rfl⟩
  · by_cases hlong : n < 2 ^ (63 : Nat)
    · exact ⟨n, loadsAs_long hexact ⟨hlow, hlong⟩, .rfl, fun _ => rfl,
        fun hlarge => absurd hlong (by omega)⟩
    · obtain ⟨m, rfl⟩ := Int.eq_ofNat_of_zero_le (a := n) (by omega)
      obtain ⟨k, htext, hmin, hup, hdown⟩ := Binary.text_ofInt_near (n := m) (by omega) (by omega)
      refine ⟨k, loadsAs_double hexact (fun hholds => hlong hholds.2) htext ?_, ?_, ?_, ?_⟩
      · change (k : Int).natAbs < 2 ^ (96 : Nat)
        omega
      · exact holds_of_large hexact (by omega) (by omega) (by omega) (by omega)
      · exact fun hless => absurd hless hlong
      · exact fun _ => ⟨htext, by omega⟩
  · exact ⟨0, loadsAs_negativeZero hexact, .rfl, fun _ => rfl,
      fun hlarge => absurd hlarge (by decide)⟩

theorem readNumber?_largest : Document.readNumber? "18446744073709551615".toList =
    some (.integer 18446744073709551615) := by
  cbv

theorem scalar_of_integer_largest :
    ScalarType.isExact (.integer .big) = true ∧
      Document.readNumber? "18446744073709551615".toList = some (.integer 18446744073709551615) ∧
      readInt? "18446744073709551615".toList = some 18446744073709551615 ∧
      ∃ k : Int, LoadsAs (.integer .big) (.integer 18446744073709551615) k ∧
        (k - 18446744073709551615).natAbs ≤ 2 ^ (11 : Nat) := by
  refine ⟨rfl, readNumber?_largest, by decide, ?_⟩
  have hexact : ScalarType.isExact (.integer .big) = true := rfl
  obtain ⟨k, hloads, -, -, hnear⟩ := scalar_of_integer hexact readNumber?_largest
    (n := 18446744073709551615) (by decide) (by decide) (by decide)
  exact ⟨k, hloads, (hnear (by decide)).2⟩

/-- The largest integer of 64 bits is loaded as another one. -/
theorem not_loadsAs_integer :
    ¬∀ (type : ScalarType) (cs : List Char) (d : Document) (n : Int), type.isExact = true →
      Document.readNumber? cs = some d → readInt? cs = some n → -2 ^ (63 : Nat) ≤ n →
      n < 2 ^ (64 : Nat) → LoadsAs type d n := by
  intro hall
  have hexact := hall (.integer .big) "18446744073709551615".toList _ 18446744073709551615 rfl
    readNumber?_largest (by decide) (by decide) (by decide)
  have hloads : LoadsAs (.integer .big) (.integer 18446744073709551615) 18446744073709552000 :=
    loadsAs_double rfl (by decide) (by decide +kernel) (by decide)
  obtain ⟨v, hv⟩ := hloads.loads_iff.2 (by decide : IntWidth.big.Holds 18446744073709552000)
  obtain ⟨s, rfl, -, hs⟩ := hloads.denotes v hv
  obtain ⟨_, heq, -, hs'⟩ := hexact.denotes _ hv
  obtain rfl := Value.scalar.inj heq
  exact absurd (hs.unique hs') (by decide)

end Fixture

end EntityQuery
