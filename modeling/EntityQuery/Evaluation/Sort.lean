import EntityQuery.Value.Order

/-! # Sorting

Items are put one after the other behind all those they do not come before, so that items without a
difference keep their order. -/

namespace EntityQuery

/-- Puts an item into a sorted list that is given from its end. -/
def insertFromEnd {α : Type} (before : α → α → Bool) (a : α) : List α → List α
  | [] => [a]
  | b :: bs => if before a b then b :: insertFromEnd before a bs else a :: b :: bs

/-- Sorts by a relation that says which of two items must come first. -/
def stableSort {α : Type} (before : α → α → Bool) (as : List α) : List α :=
  (as.foldl (fun sorted a => insertFromEnd before a sorted) []).reverse

namespace Value

/-- The order of keys: null before everything else, and no difference between values that cannot be
compared. -/
def compareKey (a b : Value) : Ordering :=
  match a.isNull, b.isNull with
  | true, true => .eq
  | true, false => .lt
  | false, true => .gt
  | false, false => (a.compare? b).getD .eq

/-- The order of lists of keys, each with its direction; the first difference decides. -/
def compareKeys : List SortOrder → List Value → List Value → Ordering
  | sort :: sorts, a :: as, b :: bs =>
    let o := match sort with
      | .asc => compareKey a b
      | .desc => (compareKey a b).swap
    o.then (compareKeys sorts as bs)
  | _, _, _ => .eq

end Value

end EntityQuery
