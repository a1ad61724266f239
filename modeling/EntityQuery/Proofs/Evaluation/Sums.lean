import EntityQuery.Evaluation
import EntityQuery.Proofs.Kennel
import EntityQuery.Proofs.Number.Digits
import EntityQuery.Proofs.Success
import Mathlib.Data.List.Infix

/-! # Sums of machine integers

Integers of at most 64 bits are added in a register of 64 bits, from left to right.  The sum is
exact if every total on the way fits the register.  As soon as one does not, the program stops, even
if later numbers would have brought the total back; so a sum is never a wrong number, and how the
numbers are ordered decides whether there is one.  The average divides what is in the register. -/

namespace EntityQuery

/-- An integer of at most 64 bits, and its number. -/
inductive Value.IsMachineInteger : Value → Int → Prop
  | intro {w : IntWidth} (hw : w ≠ .big) (n : BoundedInt w) :
      IsMachineInteger (.scalar (.integer w n)) n.val

/-- The sum of integers, however large. -/
def exactSum (ns : List Int) : Int := ns.foldr (· + ·) 0

namespace Aggregate

/-- All the totals that come up when numbers are added from left to right fit 64 bits. -/
def KeepsRegister (ns : List Int) : Prop := ∀ p, p <+: ns → IntWidth.long.Holds (exactSum p)

instance (ns : List Int) : Decidable (KeepsRegister ns) :=
  decidable_of_iff (∀ p ∈ ns.inits, IntWidth.long.Holds (exactSum p)) <|
    forall_congr' fun p => imp_congr_left (List.mem_inits p ns)

variable {vs : List Value} {ns : List Int}

/-! ## The register -/

/-- A total that fits goes on as it is. -/
theorem sumMachineIntegers_cons {total total' : BoundedInt .long} {n : Int}
    (h : total'.val = total.val + n) (ns : List Int) :
    sumMachineIntegers total (n :: ns) = sumMachineIntegers total' ns := by
  rw [sumMachineIntegers, BoundedInt.ofInt?_eq_some_iff.2 h]

/-- The first total that does not fit ends the sum, whatever is still to come. -/
theorem sumMachineIntegers_cons_overflow {total : BoundedInt .long} {n : Int}
    (h : ¬IntWidth.long.Holds (total.val + n)) (ns : List Int) :
    sumMachineIntegers total (n :: ns) = .error .overflow := by
  rw [sumMachineIntegers, BoundedInt.ofInt?, dif_neg h]

theorem exactSum_cons (total n : Int) (ns : List Int) :
    total + exactSum (n :: ns) = total + n + exactSum ns :=
  (Int.add_assoc total n (exactSum ns)).symm

/-- While the totals fit, the register holds them exactly. -/
theorem sumMachineIntegers_ok {total : BoundedInt .long}
    (h : ∀ p, p <+: ns → IntWidth.long.Holds (total.val + exactSum p)) :
    ∃ s, sumMachineIntegers total ns = .ok s ∧ s.val = total.val + exactSum ns := by
  induction ns generalizing total with
  | nil => exact ⟨total, rfl, (Int.add_zero total.val).symm⟩
  | cons n ns ih =>
    have hn : IntWidth.long.Holds (total.val + n) := by
      have hfirst := h [n] (List.prefix_append [n] ns)
      rwa [exactSum_cons, exactSum, List.foldr_nil, Int.add_zero] at hfirst
    obtain ⟨next, hnext⟩ : ∃ next : BoundedInt .long, next.val = total.val + n := ⟨⟨_, hn⟩, rfl⟩
    have hlater : ∀ p, p <+: ns → IntWidth.long.Holds (next.val + exactSum p) := by
      intro p hp
      rw [hnext, ← exactSum_cons]
      exact h (n :: p) ((List.prefix_cons_inj n).2 hp)
    obtain ⟨s, hs, hval⟩ := ih hlater
    refine ⟨s, ?_, ?_⟩
    · rw [sumMachineIntegers_cons hnext, hs]
    · rw [hval, hnext, exactSum_cons]

/-- The first total that does not fit stops the sum, whatever comes after it. -/
theorem sumMachineIntegers_overflow {total : BoundedInt .long} {p : List Int} (hp : p <+: ns)
    (h : ¬IntWidth.long.Holds (total.val + exactSum p)) :
    sumMachineIntegers total ns = .error .overflow := by
  induction ns generalizing total p with
  | nil =>
    rw [List.prefix_nil.1 hp, exactSum, List.foldr_nil, Int.add_zero] at h
    exact absurd total.inRange h
  | cons n ns ih =>
    obtain rfl | ⟨q, rfl, hq⟩ := List.prefix_cons_iff.1 hp
    · rw [exactSum, List.foldr_nil, Int.add_zero] at h
      exact absurd total.inRange h
    · by_cases hn : IntWidth.long.Holds (total.val + n)
      · obtain ⟨next, hnext⟩ : ∃ next : BoundedInt .long, next.val = total.val + n :=
          ⟨⟨_, hn⟩, rfl⟩
        rw [exactSum_cons, ← hnext] at h
        rw [sumMachineIntegers_cons hnext]
        exact ih hq h
      · exact sumMachineIntegers_cons_overflow hn ns

/-- The first total is zero, and the ones after it are the sums of the prefixes. -/
theorem zero_add_exactSum (ns : List Int) :
    (BoundedInt.zero .long).val + exactSum ns = exactSum ns :=
  Int.zero_add (exactSum ns)

/-- If every total fits the register, so does the last, which is the exact sum. -/
theorem sumMachineIntegers_zero_ok (h : KeepsRegister ns) :
    ∃ s, sumMachineIntegers (.zero .long) ns = .ok s ∧ s.val = exactSum ns := by
  rw [← zero_add_exactSum ns]
  refine sumMachineIntegers_ok fun p hp => ?_
  rw [zero_add_exactSum]
  exact h p hp

/-- If some total does not fit, there is no sum, even where the exact one would fit. -/
theorem sumMachineIntegers_zero_overflow (h : ¬KeepsRegister ns) :
    sumMachineIntegers (.zero .long) ns = .error .overflow := by
  simp only [KeepsRegister, not_forall] at h
  obtain ⟨p, hp, hlarge⟩ := h
  rw [← zero_add_exactSum p] at hlarge
  exact sumMachineIntegers_overflow hp hlarge

/-! ## Sums and averages -/

/-- Every machine integer is added as the integer it is. -/
theorem machineInteger?_eq_some {v : Value} {n : Int} (h : v.IsMachineInteger n) :
    machineInteger? v = some n := by
  obtain ⟨hw, n⟩ := h
  rename_i w
  cases w with
  | big => exact absurd rfl hw
  | byte | short | int | long => rfl

/-- Values that are all machine integers are summed as integers and not as doubles. -/
theorem machineIntegers?_eq_some (h : List.Forall₂ Value.IsMachineInteger vs ns) :
    machineIntegers? vs = some ns := by
  induction h with
  | nil => rfl
  | cons hv _ ih =>
    rw [machineIntegers?, machineInteger?_eq_some hv, ih]
    rfl

/-- The sum of machine integers is a long, if there is one. -/
theorem sumOf_eq (h : List.Forall₂ Value.IsMachineInteger vs ns) :
    sumOf vs = (sumMachineIntegers (.zero .long) ns).map fun s => .scalar (.integer .long s) := by
  rw [sumOf, machineIntegers?_eq_some h]

/-- The double nearest to an integer. -/
def nearestDouble (n : Int) : Double := Binary.ofDecimal .double (n < 0) n.natAbs 0

/-- An integer has a text that is read as the nearest double. -/
theorem cast_double {w : IntWidth} (n : BoundedInt w) :
    Value.cast .double (.scalar (.integer w n)) = .ok (.double (nearestDouble n.val)) := by
  have hread : Scalar.ofText? .double n.text.toList = some (.double (nearestDouble n.val)) := by
    rw [Scalar.ofText?, BoundedInt.text, trim_toString_int, Binary.read?_toString_int]
    rfl
  have htype : (Scalar.integer w n).type ≠ .double := by
    intro h
    cases h
  have hcast : Scalar.cast? .double (.integer w n) = some (.double (nearestDouble n.val)) := by
    -- A cast to a double is none of those between dates.
    rw [Scalar.cast?, if_neg htype]
    · exact hread
    · intro _ hdate
      cases hdate
    · intro _ hdateTime
      cases hdateTime
  rw [Value.cast, Scalar.cast, hcast]

/-- The average divides the sum, where there is one. -/
theorem average_eq {s : BoundedInt .long} (h : sumOf vs = .ok (.scalar (.integer .long s))) :
    average vs = .ok (.scalar (.double ((nearestDouble s.val).div
      (Binary.ofInt .double vs.length)))) := by
  rw [average, h]
  change (Value.cast .double _ >>= _) = _
  rw [cast_double]
  rfl

/-- The sum of a group is that of its operands, if there are any. -/
theorem ofGroup_sum {frames : Frames} {e : Expression} {group : List Tuple}
    (hoperands : operands frames e group = .ok vs) (hne : vs ≠ []) :
    ofGroup .sum frames e group = sumOf vs := by
  rw [ofGroup, hoperands]
  change combine .sum vs = _
  rw [combine, List.isEmpty_eq_false_iff.2 hne]
  rfl

theorem ofGroup_avg {frames : Frames} {e : Expression} {group : List Tuple}
    (hoperands : operands frames e group = .ok vs) (hne : vs ≠ []) :
    ofGroup .avg frames e group = average vs := by
  rw [ofGroup, hoperands]
  change combine .avg vs = _
  rw [combine, List.isEmpty_eq_false_iff.2 hne]
  rfl

/-- The sum of at least one machine integer is exact, and the average a double, that of the sum over
the double of their number, if all totals on the way fit 64 bits.  If one does not, the program
stops in both. -/
theorem sum_and_average_of_machine_integers {frames : Frames} {e : Expression} {group : List Tuple}
    (hoperands : operands frames e group = .ok vs)
    (hvs : List.Forall₂ Value.IsMachineInteger vs ns) (hne : vs ≠ []) :
    (KeepsRegister ns → ∃ s : BoundedInt .long, s.val = exactSum ns ∧
      ofGroup .sum frames e group = .ok (.scalar (.integer .long s)) ∧
      ofGroup .avg frames e group = .ok (.scalar (.double
        ((nearestDouble s.val).div (Binary.ofInt .double vs.length))))) ∧
    (¬KeepsRegister ns →
      ofGroup .sum frames e group = .error .overflow ∧
      ofGroup .avg frames e group = .error .overflow) := by
  rw [ofGroup_sum hoperands hne, ofGroup_avg hoperands hne]
  refine ⟨fun hkeeps => ?_, fun hleaves => ?_⟩
  · obtain ⟨s, hs, hval⟩ := sumMachineIntegers_zero_ok hkeeps
    have hsum : sumOf vs = .ok (.scalar (.integer .long s)) := by
      rw [sumOf_eq hvs, hs]
      rfl
    exact ⟨s, hval, hsum, average_eq hsum⟩
  · have hsum : sumOf vs = .error .overflow := by
      rw [sumOf_eq hvs, sumMachineIntegers_zero_overflow hleaves]
      rfl
    refine ⟨hsum, ?_⟩
    rw [average, hsum]
    rfl

end Aggregate

/-! ## Owners with the largest numbers -/

namespace Kennel

open Aggregate

def idOfOwner : Expression := .path ⟨⟨0, .root⟩, ["id"], some (.integer .long)⟩

def numbered (n : BoundedInt .long) : Tuple :=
  [some ⟨"Owner", [("id", .scalar (.integer .long n))]⟩]

theorem operands_numbered (ns : List (BoundedInt .long)) :
    operands [] idOfOwner (ns.map numbered) = .ok (ns.map fun n => .scalar (.integer .long n)) := by
  induction ns with
  | nil => rfl
  | cons n ns ih =>
    rw [List.map_cons, operands, ih]
    rfl

theorem isMachineInteger_numbered (ns : List (BoundedInt .long)) :
    List.Forall₂ Value.IsMachineInteger (ns.map fun n => .scalar (.integer .long n))
      (ns.map BoundedInt.val) := by
  rw [List.forall₂_map_left_iff, List.forall₂_map_right_iff, List.forall₂_same]
  intro n _
  exact .intro (by decide) n

def largest : BoundedInt .long := ⟨9223372036854775807, by decide⟩

def ofOne : BoundedInt .long := ⟨1, by decide⟩

def minusOne : BoundedInt .long := ⟨-1, by decide⟩

theorem sum_and_average_of_largest :
    (∃ vs, operands [] idOfOwner ([largest, minusOne, ofOne].map numbered) = .ok vs ∧
      List.Forall₂ Value.IsMachineInteger vs [9223372036854775807, -1, 1] ∧ vs ≠ []) ∧
    KeepsRegister [9223372036854775807, -1, 1] ∧
    ∃ s : BoundedInt .long, s.val = 9223372036854775807 ∧
      ofGroup .sum [] idOfOwner ([largest, minusOne, ofOne].map numbered) =
        .ok (.scalar (.integer .long s)) := by
  have hoperands := operands_numbered [largest, minusOne, ofOne]
  have hvs := isMachineInteger_numbered [largest, minusOne, ofOne]
  have hkeeps : KeepsRegister [9223372036854775807, -1, 1] := by decide
  refine ⟨⟨_, hoperands, hvs, nofun⟩, hkeeps, ?_⟩
  obtain ⟨s, hval, hsum, -⟩ := (sum_and_average_of_machine_integers hoperands hvs nofun).1 hkeeps
  exact ⟨s, hval, hsum⟩

/-- The same numbers in another order stop the program on the way to a sum that fits, and so does a
sum that does not fit. -/
theorem not_sum_exact_or_refused :
    (IntWidth.long.Holds (exactSum [9223372036854775807, 1, -1]) ∧
      ofGroup .sum [] idOfOwner ([largest, ofOne, minusOne].map numbered) = .error .overflow ∧
      ofGroup .avg [] idOfOwner ([largest, ofOne, minusOne].map numbered) = .error .overflow) ∧
    (¬IntWidth.long.Holds (exactSum [9223372036854775807, 1]) ∧
      ofGroup .sum [] idOfOwner ([largest, ofOne].map numbered) = .error .overflow) ∧
    Error.overflow.kind = .abort :=
  ⟨⟨by decide, rfl, rfl⟩, ⟨by decide, rfl⟩, rfl⟩

end Kennel

end EntityQuery
