import EntityQuery.GraphQuery.Comparison
import EntityQuery.Proofs.Evaluation.Runs

/-! # Runs over mapped tuples

Two outermost queries may range over different tuples, those of the one being those of the other
under a map.  If what the one evaluates on a mapped tuple is what the other evaluates on the tuple
itself, every stage of a run commutes with the map: the same tuples are kept, in the same groups and
in the same order, and the rows are the same (`GraphQuery.Follows.run_eq`). -/

namespace EntityQuery

variable {ρ E : Type} (f : Tuple → Tuple)

/-! ## Expressions and predicates -/

/-- On mapped tuples the second path has the values that the first has on the tuples. -/
structure Path.Follows (p p' : Path) : Prop where
  type? : p'.type? = p.type?
  value : ∀ t, p'.value [] (f t) = p.value [] t

/-- The expressions that selections, orders and groups are made of. -/
inductive Expression.Follows : Expression → Expression → Prop
  | path {p p' : Path} (h : p.Follows f p') : Follows (.path p) (.path p')
  | aggregate (g : Aggregate) {p p' : Path} (h : p.Follows f p') :
      Follows (.aggregate g (.path p)) (.aggregate g (.path p'))

/-- On mapped tuples the second predicate has the truth that the first has on the tuples. -/
def Predicate.Follows (p p' : Predicate ρ) : Prop :=
  ∀ (meaning : ρ → Meaning) (t : Tuple),
    (p'.map meaning).test [] (f t) = (p.map meaning).test [] t

variable {f}

namespace Expression

variable {e e' : Expression} {es es' : List Expression}

/-- An expression has on mapped tuples the value it had. -/
theorem Follows.evaluate (h : e.Follows f e') (t : Tuple) :
    e'.evaluate [] (f t) = e.evaluate [] t := by
  cases h with
  | path h => exact congrArg Except.ok (h.value t)
  | aggregate => rfl

theorem Follows.isAggregate (h : e.Follows f e') : e'.isAggregate = e.isAggregate := by
  cases h <;> rfl

theorem evaluateAll_follows (h : List.Forall₂ (Follows f) es es') (t : Tuple) :
    evaluateAll [] (f t) es' = evaluateAll [] t es := by
  induction h with
  | nil => rfl
  | cons h _ ih => rw [evaluateAll, evaluateAll, h.evaluate, ih]

end Expression

namespace Predicate

variable {p p' q q' : Predicate ρ} {path path' left right left' right' : Path}

/-- Following passes through connectives. -/
theorem Follows.attach (c : Connective) (hp : p.Follows f p') (hq : q.Follows f q') :
    (attach c p q).Follows f (attach c p' q') := by
  intro meaning t
  cases c <;> simp only [Predicate.attach, map, test, hp meaning t, hq meaning t]

theorem Follows.signed (positive : Bool) (h : p.Follows f p') :
    (signed positive p).Follows f (signed positive p') := by
  intro meaning t
  cases positive with
  | true => exact h meaning t
  | false => exact congrArg (Except.map Truth.not) (h meaning t)

theorem follows_foldl {items items' : List (Connective × Predicate ρ)}
    (h : List.Forall₂ (fun i i' => i'.1 = i.1 ∧ i.2.Follows f i'.2) items items')
    (hp : p.Follows f p') :
    (items.foldl (fun p next => Predicate.attach next.1 p next.2) p).Follows f
      (items'.foldl (fun p next => Predicate.attach next.1 p next.2) p') := by
  induction h generalizing p p' with
  | nil => exact hp
  | @cons i i' _ _ hi _ ih =>
    obtain ⟨hattach, hfollows⟩ := hi
    rw [List.foldl_cons, List.foldl_cons, hattach]
    exact ih (hp.attach i.1 hfollows)

/-- Folding keeps up what follows. -/
theorem follows_fold {items items' : List (Connective × Predicate ρ)}
    (h : List.Forall₂ (fun i i' => i'.1 = i.1 ∧ i.2.Follows f i'.2) items items') :
    Option.Rel (Follows f) (fold items) (fold items') := by
  cases h with
  | nil => exact .none
  | cons h hrest => exact .some (follows_foldl hrest h.2)

/-! A comparison asks for nothing but the value of its path, and for the type when it is made. -/

theorem follows_compareLiteral (h : path.Follows f path') (c : Comparator) (v : Value) :
    (compareLiteral path c v : Predicate ρ).Follows f (compareLiteral path' c v) := by
  intro meaning t
  simp only [compareLiteral, map, test, Expression.evaluate, h.value t]

theorem follows_ordered (h : path.Follows f path') {c : Comparator} {v : Value}
    (hp : ordered path c v = .ok p) :
    ∃ p', ordered path' c v = .ok p' ∧ p.Follows f p' := by
  obtain ⟨operand, hoperand, rfl⟩ := Result.map_eq_ok.1 hp
  have hsame : orderingOperand path' v = .ok operand := by
    rw [orderingOperand] at hoperand ⊢
    split at hoperand
    · cases hoperand
    · rename_i hnull
      rwa [if_neg hnull, h.type?]
  exact ⟨_, Result.map_eq_ok.2 ⟨operand, hsame, rfl⟩, follows_compareLiteral h c operand⟩

/-- A comparison on one side compiles on the other side too, and tests alike. -/
theorem follows_compareValue (h : path.Follows f path') {operator : Operator} {v : Value}
    (hp : compareValue path operator v = .ok p) :
    ∃ p', compareValue path' operator v = .ok p' ∧ p.Follows f p' := by
  cases operator with
  | isNull | isNotNull =>
    obtain rfl := Except.ok.inj hp
    exact ⟨_, rfl, fun meaning t => by simp only [map, test, Expression.evaluate, h.value t]⟩
  | equal | diff =>
    obtain rfl := Except.ok.inj hp
    refine ⟨_, rfl, ?_⟩
    split
    · exact fun meaning t => by simp only [map, test, Expression.evaluate, h.value t]
    · exact follows_compareLiteral h _ v
  | less | lessOrEqual | greater | greaterOrEqual => exact follows_ordered h hp
  | like | notLike =>
    obtain rfl := Except.ok.inj hp
    exact ⟨_, rfl, fun meaning t => by
      simp only [likeText, map, test, Expression.evaluate, h.value t]⟩
  | isIn | notIn =>
    rw [compareValue] at hp ⊢
    cases hv : v.toList? with
    | none =>
      rw [hv] at hp
      cases hp
    | some values =>
      rw [hv] at hp
      obtain rfl := Except.ok.inj hp
      refine ⟨_, rfl, Follows.signed _ fun meaning t => ?_⟩
      simp only [map, test, Expression.evaluate, h.value t]
  | findInSet | notFindInSet =>
    obtain rfl := Except.ok.inj hp
    exact ⟨_, rfl, fun meaning t => by
      simp only [findInSet, map, test, Expression.evaluate, Expression.evaluateAll, h.value t]⟩

theorem follows_between? {operator : Operator} {build : Expression → Expression → Predicate ρ}
    (hb : between? operator = some build) (hl : left.Follows f left')
    (hr : right.Follows f right') :
    (build (.path left) (.path right)).Follows f (build (.path left') (.path right')) := by
  intro meaning t
  cases operator with
  | equal | diff | less | lessOrEqual | greater | greaterOrEqual | like | notLike =>
    obtain rfl := Option.some.inj hb
    simp only [map, test, Expression.evaluate, hl.value t, hr.value t]
  | isIn | notIn | isNull | isNotNull | findInSet | notFindInSet => cases hb

end Predicate

/-! ## Keeping, grouping and sorting -/

theorem isEmpty_of_forall₂ {α β : Type} {r : α → β → Prop} {as : List α} {bs : List β}
    (h : List.Forall₂ r as bs) : bs.isEmpty = as.isEmpty := by
  cases h <;> rfl

/-- Mapped tuples are kept if the tuples are. -/
theorem keepHolding_map {α β : Type} {g : α → β} {test : α → Result Truth}
    {test' : β → Result Truth} (h : ∀ a, test' (g a) = test a) (as : List α) :
    keepHolding test' (as.map g) = (keepHolding test as).map (List.map g) := by
  induction as with
  | nil => rfl
  | cons a as ih =>
    rw [List.map_cons, keepHolding, keepHolding, h, ih]
    cases test a with
    | error e => rfl
    | ok truth =>
      cases keepHolding test as with
      | error e => rfl
      | ok kept =>
        change Except.ok _ = Except.ok _
        split <;> rfl

theorem insertKeyed_map (g : Tuple → Tuple) (key : List Value) (t : Tuple)
    (gs : List KeyedGroup) : insertKeyed key (g t) (gs.map (Prod.map id (List.map g))) =
      (insertKeyed key t gs).map (Prod.map id (List.map g)) := by
  induction gs with
  | nil => rfl
  | cons k gs ih =>
    rw [List.map_cons, insertKeyed, insertKeyed, ih]
    change (if Value.equalLists k.1 key then _ else _) = _
    split
    · rw [List.map_cons, Prod.map, Prod.map, List.map_append]
      rfl
    · rfl

/-- Mapping tuples maps their groups. -/
theorem groupByKey_map (g : Tuple → Tuple) (keyed : List (List Value × Tuple)) :
    groupByKey (keyed.map (Prod.map id g)) = (groupByKey keyed).map (List.map g) := by
  suffices h : ∀ gs : List KeyedGroup,
      (keyed.map (Prod.map id g)).foldl (fun gs p => insertKeyed p.1 p.2 gs)
        (gs.map (Prod.map id (List.map g))) =
      (keyed.foldl (fun gs p => insertKeyed p.1 p.2 gs) gs).map (Prod.map id (List.map g)) by
    rw [groupByKey, groupByKey, List.map_map]
    exact (congrArg (List.map Prod.snd) (h [])).trans (List.map_map ..)
  induction keyed with
  | nil => exact fun _ => rfl
  | cons k keyed ih =>
    intro gs
    rw [List.map_cons, List.foldl_cons, List.foldl_cons, ← ih, ← insertKeyed_map]
    rfl

/-- Mapping commutes with insertion, as far as it keeps the order. -/
theorem insertFromEnd_map {α β : Type} {g : α → β} {before : α → α → Bool}
    {before' : β → β → Bool} (h : ∀ a b, before' (g a) (g b) = before a b) (a : α)
    (as : List α) :
    insertFromEnd before' (g a) (as.map g) = (insertFromEnd before a as).map g := by
  induction as with
  | nil => rfl
  | cons b as ih =>
    rw [List.map_cons, insertFromEnd, insertFromEnd, h, ih]
    split <;> rfl

/-- What is compared alike is sorted alike. -/
theorem stableSort_map {α β : Type} {g : α → β} {before : α → α → Bool} {before' : β → β → Bool}
    (h : ∀ a b, before' (g a) (g b) = before a b) (as : List α) :
    stableSort before' (as.map g) = (stableSort before as).map g := by
  suffices hfold : ∀ sorted : List α,
      (as.map g).foldl (fun sorted a => insertFromEnd before' a sorted) (sorted.map g) =
        (as.foldl (fun sorted a => insertFromEnd before a sorted) sorted).map g by
    rw [stableSort, stableSort, List.map_reverse]
    exact congrArg List.reverse (hfold [])
  induction as with
  | nil => exact fun _ => rfl
  | cons a as ih =>
    intro sorted
    rw [List.map_cons, List.foldl_cons, List.foldl_cons, ← ih, insertFromEnd_map h]

section Groups

variable {keys keys' : List Expression}

theorem keysOf_follows (h : List.Forall₂ (Expression.Follows f) keys keys') (ts : List Tuple) :
    keysOf [] keys' (ts.map f) = (keysOf [] keys ts).map (List.map (Prod.map id f)) := by
  induction ts with
  | nil => rfl
  | cons t ts ih =>
    rw [List.map_cons, keysOf, keysOf, Expression.evaluateAll_follows h, ih]
    cases Expression.evaluateAll [] t keys with
    | error e => rfl
    | ok key => cases keysOf [] keys ts <;> rfl

/-- Mapped tuples have the groups they had. -/
theorem groupTuples_follows (h : List.Forall₂ (Expression.Follows f) keys keys')
    (ts : List Tuple) : groupTuples [] keys' (ts.map f) =
      (groupTuples [] keys ts).map (List.map (List.map f)) := by
  rw [groupTuples, groupTuples, keysOf_follows h, isEmpty_of_forall₂ h]
  split
  · rfl
  · cases keysOf [] keys ts with
    | error e => rfl
    | ok keyed => exact congrArg Except.ok (groupByKey_map f keyed)

end Groups

theorem Aggregate.operands_follows {e e' : Expression} (h : e.Follows f e') (ts : List Tuple) :
    operands [] e' (ts.map f) = operands [] e ts := by
  induction ts with
  | nil => rfl
  | cons t ts ih => rw [List.map_cons, operands, operands, h.evaluate, ih]

/-! ## Runs -/

/-- The selections have the same values, under the same alias. -/
def Selection.Follows (f : Tuple → Tuple) (s s' : Selection) : Prop :=
  s.expression.Follows f s'.expression ∧ s'.alias? = s.alias?

/-- The orders have the same values, in the same direction. -/
def Sorting.Follows (f : Tuple → Tuple) (s s' : Sorting) : Prop :=
  s.expression.Follows f s'.expression ∧ s'.sort = s.sort

/-- Everything that is done with mapped tuples is what is done with the tuples. -/
structure Plan.Follows (f : Tuple → Tuple) (p p' : Plan E) : Prop where
  selections : List.Forall₂ (Selection.Follows f) p.selections p'.selections
  orders : List.Forall₂ (Sorting.Follows f) p.orders p'.orders
  groups : List.Forall₂ (Expression.Follows f) p.groups p'.groups
  fetches : ∀ t, p'.fetchesPresent (f t) = p.fetchesPresent t
  /-- The tuple without any record is mapped to the one of the other plan. -/
  empty : List.replicate (p'.joins.length + 1) none = f (List.replicate (p.joins.length + 1) none)
  first : p'.first? = p.first?
  max : p'.max? = p.max?

namespace Plan.Follows

variable {p p' : Plan E} {data : Dataset}

theorem isGrouped (h : p.Follows f p') : p'.isGrouped = p.isGrouped := by
  have hselections : (p'.selections.any fun s => s.expression.isAggregate) =
      p.selections.any fun s => s.expression.isAggregate := by
    have hs := h.selections
    generalize p.selections = ss, p'.selections = ss' at hs
    induction hs with
    | nil => rfl
    | cons h _ ih => rw [List.any_cons, List.any_cons, ih, h.1.isAggregate]
  rw [Plan.isGrouped, Plan.isGrouped, hselections, isEmpty_of_forall₂ h.groups]

theorem representative (h : p.Follows f p') (g : List Tuple) :
    p'.representative (g.map f) = f (p.representative g) := by
  cases g with
  | nil => exact h.empty
  | cons t g => rfl

/-- Groups of mapped tuples are the mapped groups. -/
theorem grouped (h : p.Follows f p') (ts : List Tuple) :
    p'.grouped [] (ts.map f) = (p.grouped [] ts).map (List.map (List.map f)) := by
  rw [Plan.grouped, Plan.grouped, h.isGrouped, groupTuples_follows h.groups]
  split
  · rfl
  · exact congrArg Except.ok (by simp only [List.map_map]; rfl)

theorem sortKeys (h : p.Follows f p') (gs : List (List Tuple)) :
    p'.sortKeys [] (gs.map (List.map f)) =
      (p.sortKeys [] gs).map (List.map (Prod.map id (List.map f))) := by
  have hkeys : List.Forall₂ (Expression.Follows f) (p.orders.map Sorting.expression)
      (p'.orders.map Sorting.expression) :=
    List.forall₂_map_left_iff.2 (List.forall₂_map_right_iff.2 (h.orders.imp fun _ _ h => h.1))
  induction gs with
  | nil => rfl
  | cons g gs ih =>
    rw [List.map_cons, Plan.sortKeys, Plan.sortKeys, h.representative,
      Expression.evaluateAll_follows hkeys, ih]
    cases Expression.evaluateAll [] (p.representative g) (p.orders.map Sorting.expression) with
    | error e => rfl
    | ok key => cases p.sortKeys [] gs <;> rfl

/-- Mapped groups are sorted as they were. -/
theorem sorted (h : p.Follows f p') (gs : List (List Tuple)) :
    p'.sorted [] (gs.map (List.map f)) = (p.sorted [] gs).map (List.map (List.map f)) := by
  have hsorts : p'.orders.map Sorting.sort = p.orders.map Sorting.sort := by
    have hs := h.orders
    generalize p.orders = ss, p'.orders = ss' at hs
    induction hs with
    | nil => rfl
    | cons h _ ih => rw [List.map_cons, List.map_cons, ih, h.2]
  rw [Plan.sorted, Plan.sorted, isEmpty_of_forall₂ h.orders, h.sortKeys, hsorts]
  split
  · rfl
  · cases p.sortKeys [] gs with
    | error e => rfl
    | ok keyed =>
      refine congrArg Except.ok ?_
      change (stableSort _ (keyed.map (Prod.map id (List.map f)))).map Prod.snd = _
      rw [stableSort_map fun _ _ => rfl, List.map_map, List.map_map]
      rfl

theorem columns (h : p.Follows f p') (g : List Tuple) {ss ss' : List Selection}
    (hss : List.Forall₂ (Selection.Follows f) ss ss') :
    p'.columns [] (g.map f) ss' = p.columns [] g ss := by
  induction hss with
  | nil => rfl
  | @cons s s' _ _ hs _ ih =>
    obtain ⟨hexpression, halias⟩ := hs
    rw [Plan.columns, Plan.columns, ih, halias, h.representative]
    generalize s.expression = e, s'.expression = e' at hexpression
    cases hexpression with
    | path hp => simp only [(Expression.Follows.path hp).evaluate]
    | aggregate a hp => simp only [Aggregate.ofGroup, Aggregate.operands_follows (.path hp)]

/-- The rows of mapped groups are the rows they had. -/
theorem rows (h : p.Follows f p') (gs : List (List Tuple)) :
    p'.rows [] (gs.map (List.map f)) = p.rows [] gs := by
  induction gs with
  | nil => rfl
  | cons g gs ih => rw [List.map_cons, Plan.rows, Plan.rows, h.columns g h.selections, ih]

theorem window (h : p.Follows f p') (gs : List (List Tuple)) :
    p'.window (gs.map (List.map f)) = (p.window gs).map (List.map f) := by
  rw [Plan.window, Plan.window, h.first, h.max, ← List.map_drop]
  cases p.max? with
  | none => rfl
  | some max => exact List.map_take.symm

end Plan.Follows

variable [Schema E]

namespace GraphQuery

/-- The joined tuples of the second query are those of the first under the map, and nothing else
makes a difference. -/
structure Follows (f : Tuple → Tuple) (data : Dataset) (q q' : GraphQuery E) : Prop where
  joined : q'.plan.joined data [] = (q.plan.joined data []).map (List.map f)
  condition : Option.Rel (Predicate.Follows f) q.condition? q'.condition?
  plan : q.plan.Follows f q'.plan

variable {data : Dataset} {q q' : GraphQuery E}

/-- What a query keeps of mapped tuples is what it kept. -/
theorem Follows.filtered (h : q.Follows f data q') :
    q'.filtered data [] = (q.filtered data []).map (List.map f) := by
  rw [GraphQuery.filtered, GraphQuery.filtered, Plan.filtered, Plan.filtered, h.joined]
  cases q.plan.joined data [] with
  | error e => rfl
  | ok ts =>
    have hfilter : ∀ kept : List Tuple, (kept.map f).filter q'.plan.fetchesPresent =
        (kept.filter q.plan.fetchesPresent).map f := by
      intro kept
      rw [List.filter_map]
      exact congrArg (List.map f) (List.filter_congr fun t _ => h.plan.fetches t)
    have hcondition := h.condition
    generalize q.condition? = c?, q'.condition? = c'? at hcondition
    cases hcondition with
    | none => exact congrArg Except.ok (hfilter ts)
    | @some c c' hc =>
      change (keepHolding (fun t => (c'.map (meaning data)).test [] t) (ts.map f) >>= _) =
        Except.map _ (keepHolding (fun t => (c.map (meaning data)).test [] t) ts >>= _)
      rw [keepHolding_map (hc (meaning data))]
      cases keepHolding (fun t => (c.map (meaning data)).test [] t) ts with
      | error e => rfl
      | ok kept => exact congrArg Except.ok (hfilter kept)

/-- Queries of which one follows the other have the same rows. -/
theorem Follows.run_eq (h : q.Follows f data q') : q'.run data = q.run data := by
  rw [run, run, meaning_eq, meaning_eq]
  change (q'.filtered data [] >>= fun ts => _) = (q.filtered data [] >>= fun ts => _)
  rw [h.filtered]
  cases q.filtered data [] with
  | error e => rfl
  | ok ts =>
    change (q'.plan.grouped [] (ts.map f) >>= fun gs => _) =
      (q.plan.grouped [] ts >>= fun gs => _)
    rw [h.plan.grouped]
    cases q.plan.grouped [] ts with
    | error e => rfl
    | ok gs =>
      change (q'.plan.sorted [] (gs.map (List.map f)) >>= fun gs => _) =
        (q.plan.sorted [] gs >>= fun gs => _)
      rw [h.plan.sorted]
      cases q.plan.sorted [] gs with
      | error e => rfl
      | ok sorted =>
        change q'.plan.rows [] (q'.plan.window (sorted.map (List.map f))) =
          q.plan.rows [] (q.plan.window sorted)
        rw [h.plan.window, h.plan.rows]

end GraphQuery

end EntityQuery
