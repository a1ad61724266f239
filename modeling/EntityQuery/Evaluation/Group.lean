import EntityQuery.Evaluation.Expression
import EntityQuery.Number.Binary
import EntityQuery.Value.Order

/-! # Groups and aggregates

Tuples with equal keys form a group; groups come in the order of their first members.  Aggregates
leave nulls out. -/

namespace EntityQuery

/-- A key with the tuples that have it. -/
abbrev KeyedGroup := List Value × List Tuple

/-- Adds a tuple to the group of its key, which is made if it is not there. -/
def insertKeyed (key : List Value) (t : Tuple) : List KeyedGroup → List KeyedGroup
  | [] => [(key, [t])]
  | g :: gs =>
    if Value.equalLists g.1 key then (g.1, g.2 ++ [t]) :: gs
    else g :: insertKeyed key t gs

/-- Groups tuples by the keys they have. -/
def groupByKey (keyed : List (List Value × Tuple)) : List (List Tuple) :=
  (keyed.foldl (fun gs p => insertKeyed p.1 p.2 gs) []).map Prod.snd

/-- The keys of tuples, evaluated tuple by tuple. -/
def keysOf (frames : Frames) (keys : List Expression) :
    List Tuple → Result (List (List Value × Tuple))
  | [] => .ok []
  | t :: ts => do
    let key ← Expression.evaluateAll frames t keys
    let rest ← keysOf frames keys ts
    return (key, t) :: rest

/-- Without keys all tuples are one group, even if there are none. -/
def groupTuples (frames : Frames) (keys : List Expression) (ts : List Tuple) :
    Result (List (List Tuple)) :=
  if keys.isEmpty then .ok [ts] else (keysOf frames keys ts).map groupByKey

namespace Aggregate

/-- The values of an expression on tuples, without nulls. -/
def operands (frames : Frames) (e : Expression) : List Tuple → Result (List Value)
  | [] => .ok []
  | t :: ts => do
    let v ← e.evaluate frames t
    let vs ← operands frames e ts
    return if v.isNull then vs else v :: vs

/-- The number in an integer of at most 64 bits. -/
def machineInteger? : Value → Option Int
  | .scalar (.integer .big _) => none
  | .scalar (.integer _ n) => some n.val
  | _ => none

/-- All values as machine integers, if every one of them is. -/
def machineIntegers? : List Value → Option (List Int)
  | [] => some []
  | v :: vs => do
    let n ← machineInteger? v
    let ns ← machineIntegers? vs
    return n :: ns

/-- A sum with anything but machine integers is one of doubles. -/
def asDouble (v : Value) : Result Double := do
  match ← v.cast .double with
  | .double d => .ok d
  | s => .error (.sumNotNumeric s.type.name)

/-- The sum of doubles, from left to right. -/
def sumDoubles (total : Double) : List Value → Result Double
  | [] => .ok total
  | v :: vs => do sumDoubles (total.add (← asDouble v)) vs

/-- The sum of machine integers, from left to right, in a register of 64 bits.  An addition that
does not fit the register aborts. -/
def sumMachineIntegers (total : BoundedInt .long) : List Int → Result (BoundedInt .long)
  | [] => .ok total
  | n :: ns =>
    match BoundedInt.ofInt? .long (total.val + n) with
    | some total => sumMachineIntegers total ns
    | none => .error .overflow

/-- Machine integers are added in a register, and all other values as doubles. -/
def sumOf (vs : List Value) : Result Value :=
  match machineIntegers? vs with
  | some ns => (sumMachineIntegers (.zero .long) ns).map fun n => .scalar (.integer .long n)
  | none => (sumDoubles (Binary.ofInt .double 0) vs).map fun d => .scalar (.double d)

/-- The average of values is their sum, as a double, over their number. -/
def average (vs : List Value) : Result Value := do
  let total ← sumOf vs
  match ← total.cast .double with
  | .double d => .ok (.scalar (.double (d.div (Binary.ofInt .double vs.length))))
  | _ => .error .averageNotNumeric

/-- The first of the values that no later one surpasses in the wanted direction. -/
def extreme (wanted : Ordering) : List Value → Value
  | [] => .null
  | v :: vs => vs.foldl (fun best v => if v.compare? best = some wanted then v else best) v

/-- What an aggregate makes of its values that are not null.  Of no values only the count is not
null. -/
def combine (f : Aggregate) (vs : List Value) : Result Value :=
  match f with
  | .count => .ok (.long vs.length)
  | .sum => if vs.isEmpty then .ok .null else sumOf vs
  | .avg => if vs.isEmpty then .ok .null else average vs
  | .min => .ok (extreme .lt vs)
  | .max => .ok (extreme .gt vs)

/-- The aggregate of an expression over the tuples of a group. -/
def ofGroup (f : Aggregate) (frames : Frames) (e : Expression) (group : List Tuple) :
    Result Value := do
  combine f (← operands frames e group)

end Aggregate

end EntityQuery
