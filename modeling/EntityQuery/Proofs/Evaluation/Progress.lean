import EntityQuery.Proofs.Evaluation.Runs

/-! # Progress

The evaluation of a well-formed query never gets stuck at an expression: aggregates are met over
groups only, and every function is known.  What it may still refuse are values, such as a sum of
texts.  Expressions of conditions, orders and groups are never refused at all. -/

namespace EntityQuery

/-- The error of an expression for which there is no rule. -/
def Error.isStuck : Error → Bool
  | .aggregateOutsideGroup _ | .functionUnknown .. => true
  | _ => false

/-- It may be refused, but not for want of a rule. -/
def Result.Progresses {α : Type} (x : Result α) : Prop := ∀ e, x = .error e → e.isStuck = false

namespace Result

variable {α β : Type} {x : Result α}

theorem Progresses.ok (a : α) : Progresses (.ok a) := nofun

theorem Progresses.error {e : Error} (he : e.isStuck = false) :
    Progresses (.error e : Result α) := by
  rintro _ ⟨⟩
  exact he

/-- What progresses first and goes on to what progresses, progresses. -/
theorem Progresses.bind {f : α → Result β} (hx : x.Progresses)
    (hf : ∀ a, x = .ok a → (f a).Progresses) : Progresses (x >>= f) := by
  cases x with
  | error e => exact .error (hx e rfl)
  | ok a => exact hf a rfl

theorem Progresses.map {f : α → β} (hx : x.Progresses) : Progresses (x.map f) := by
  cases x with
  | error e => exact .error (hx e rfl)
  | ok a => exact .ok (f a)

theorem Progresses.of_exists_ok : (∃ a, x = .ok a) → x.Progresses := by
  rintro ⟨a, rfl⟩
  exact .ok a

end Result

open Result

/-! ## Expressions -/

section

variable {E : Type} [Schema E] {levels : List (Level E)} {frames : Frames} {t : Tuple}

/-- A well-formed expression has a value for every tuple. -/
theorem Expression.WellFormed.evaluate_ok {e : Expression} (he : e.WellFormed levels)
    (frames : Frames) (t : Tuple) : ∃ v, e.evaluate frames t = .ok v := by
  induction he with
  | @path p hp => exact ⟨p.value frames t, rfl⟩
  | literal v => exact ⟨v, rfl⟩
  | @findInSet needle haystack hn hh ihn ihh =>
    obtain ⟨v, hv⟩ := ihn
    obtain ⟨w, hw⟩ := ihh
    have harguments : evaluateAll frames t [needle, haystack] = .ok [v, w] := by
      simp only [evaluateAll, hv, hw]
      rfl
    simp only [evaluate, harguments]
    change ∃ r, callFunction "find_in_set" [v, w] = .ok r
    rw [callFunction]
    split
    · exact ⟨.null, rfl⟩
    · exact ⟨_, rfl⟩

theorem Expression.evaluateAll_ok {es : List Expression} (hes : ∀ e ∈ es, e.WellFormed levels)
    (frames : Frames) (t : Tuple) : ∃ vs, evaluateAll frames t es = .ok vs := by
  induction es with
  | nil => exact ⟨[], rfl⟩
  | cons e es ih =>
    obtain ⟨he, hes⟩ := List.forall_mem_cons.1 hes
    obtain ⟨v, hv⟩ := he.evaluate_ok frames t
    obtain ⟨vs, hvs⟩ := ih hes
    refine ⟨v :: vs, ?_⟩
    rw [evaluateAll, hv, hvs]
    rfl

/-! ## Predicates -/

/-- A pattern may be too large, which is not to be stuck. -/
theorem Value.likeTruth_progresses (v pattern : Value) (negated : Bool) :
    (v.likeTruth pattern negated).Progresses := by
  rw [likeTruth]
  split
  · exact .ok _
  · split
    · exact .error rfl
    · exact .ok _

/-- The test of a predicate progresses if the queries in it do, inside the frames around it. -/
theorem Predicate.test_progresses {ρ : Type} {p : Predicate ρ} {f : ρ → List (Level E) → Prop}
    {meaning : ρ → Meaning} (hp : (p.map f).WellFormed levels)
    (hq : ∀ q ∈ p.queries, (meaning q (frames ++ [t])).Progresses) :
    ((p.map meaning).test frames t).Progresses := by
  induction p with
  | compare left comparator right =>
    refine .bind (.of_exists_ok (hp.1.evaluate_ok frames t)) fun a _ => ?_
    exact .bind (.of_exists_ok (hp.2.1.evaluate_ok frames t)) fun b _ => .ok _
  | like subject pattern negated =>
    refine .bind (.of_exists_ok (hp.1.evaluate_ok frames t)) fun v _ => ?_
    refine .bind (.of_exists_ok (hp.2.evaluate_ok frames t)) fun w _ => ?_
    exact v.likeTruth_progresses w negated
  | isNull e | isNotNull e | isIn e values =>
    exact .bind (.of_exists_ok (Expression.WellFormed.evaluate_ok hp frames t)) fun v _ => .ok _
  | inSubQuery e query =>
    refine .bind (.of_exists_ok (hp.1.evaluate_ok frames t)) fun v _ => ?_
    exact .bind (hq query (List.mem_singleton_self query)) fun rows _ => .ok _
  | exist query => exact .bind (hq query (List.mem_singleton_self query)) fun rows _ => .ok _
  | not p ih => exact (ih hp hq).map
  | and p q ihp ihq | or p q ihp ihq =>
    obtain ⟨hqp, hqq⟩ := List.forall_mem_append.1 hq
    refine .bind (ihp hp.1 hqp) fun truth _ => ?_
    -- The right side is left out where the left side decides.
    cases truth with
    | holds | fails | unknown =>
      first
        | exact .ok _
        | exact .bind (ihq hp.2 hqq) fun truth _ => .ok _

theorem keepHolding_progresses {α : Type} {test : α → Result Truth} {as : List α}
    (h : ∀ a ∈ as, (test a).Progresses) : (keepHolding test as).Progresses := by
  induction as with
  | nil => exact .ok []
  | cons a as ih =>
    obtain ⟨ha, has⟩ := List.forall_mem_cons.1 h
    exact .bind ha fun truth _ => .bind (ih has) fun kept _ => .ok _

end

/-! ## Aggregates -/

/-- What cannot be cast is an error of its own. -/
theorem Value.cast_progresses (v : Value) (type : ScalarType) : (v.cast type).Progresses := by
  intro e h
  cases v with
  | scalar s =>
    change s.cast type = _ at h
    rw [Scalar.cast] at h
    split at h
    · exact absurd h nofun
    · obtain rfl := Except.error.inj h
      rfl
  | null | list | record | object =>
    obtain rfl := Except.error.inj h
    rfl

namespace Aggregate

theorem asDouble_progresses (v : Value) : (asDouble v).Progresses := by
  refine .bind (v.cast_progresses .double) fun s _ => ?_
  split
  · exact .ok _
  · exact .error rfl

theorem sumDoubles_progresses (vs : List Value) (total : Double) :
    (sumDoubles total vs).Progresses := by
  induction vs generalizing total with
  | nil => exact .ok total
  | cons v vs ih => exact .bind (asDouble_progresses v) fun d _ => ih _

/-- Machine integers are added or refused at the first total that does not fit. -/
theorem sumMachineIntegers_progresses (ns : List Int) (total : BoundedInt .long) :
    (sumMachineIntegers total ns).Progresses := by
  induction ns generalizing total with
  | nil => exact .ok total
  | cons n ns ih =>
    rw [sumMachineIntegers]
    split
    · exact ih _
    · exact .error rfl

theorem sumOf_progresses (vs : List Value) : (sumOf vs).Progresses := by
  rw [sumOf]
  split
  · exact (sumMachineIntegers_progresses _ _).map
  · exact (sumDoubles_progresses vs _).map

theorem average_progresses (vs : List Value) : (average vs).Progresses := by
  refine .bind (sumOf_progresses vs) fun total _ => ?_
  refine .bind (total.cast_progresses .double) fun s _ => ?_
  split
  · exact .ok _
  · exact .error rfl

theorem combine_progresses (f : Aggregate) (vs : List Value) : (f.combine vs).Progresses := by
  cases f with
  | count | min | max => exact .ok _
  | sum =>
    rw [combine]
    split
    · exact .ok _
    · exact sumOf_progresses vs
  | avg =>
    rw [combine]
    split
    · exact .ok _
    · exact average_progresses vs

variable {E : Type} [Schema E] {levels : List (Level E)}

theorem operands_ok {e : Expression} (he : e.WellFormed levels) (frames : Frames)
    (ts : List Tuple) : ∃ vs, operands frames e ts = .ok vs := by
  induction ts with
  | nil => exact ⟨[], rfl⟩
  | cons t ts ih =>
    obtain ⟨v, hv⟩ := he.evaluate_ok frames t
    obtain ⟨vs, hvs⟩ := ih
    refine ⟨if v.isNull then vs else v :: vs, ?_⟩
    rw [operands, hv, hvs]
    rfl

/-- The aggregate of a well-formed expression is never stuck. -/
theorem ofGroup_progresses {e : Expression} (he : e.WellFormed levels) (f : Aggregate)
    (frames : Frames) (group : List Tuple) : (f.ofGroup frames e group).Progresses :=
  .bind (.of_exists_ok (operands_ok he frames group)) fun vs _ => f.combine_progresses vs

end Aggregate

/-! ## Queries -/

variable {E : Type} [Schema E] {outer levels : List (Level E)} {data : Dataset} {frames : Frames}

theorem keysOf_ok {keys : List Expression} (hkeys : ∀ e ∈ keys, e.WellFormed levels)
    (ts : List Tuple) : ∃ keyed, keysOf frames keys ts = .ok keyed := by
  induction ts with
  | nil => exact ⟨[], rfl⟩
  | cons t ts ih =>
    obtain ⟨key, hkey⟩ := Expression.evaluateAll_ok hkeys frames t
    obtain ⟨rest, hrest⟩ := ih
    refine ⟨(key, t) :: rest, ?_⟩
    rw [keysOf, hkey, hrest]
    rfl

theorem exists_groupTuples {keys : List Expression} (hkeys : ∀ e ∈ keys, e.WellFormed levels)
    (ts : List Tuple) : ∃ gs, groupTuples frames keys ts = .ok gs := by
  obtain ⟨keyed, hkeyed⟩ := keysOf_ok hkeys ts
  rw [groupTuples]
  split
  · exact ⟨_, rfl⟩
  · exact ⟨_, Result.map_eq_ok.2 ⟨keyed, hkeyed, rfl⟩⟩

namespace JoinNode

variable {root : E} {before : List (JoinNode E)} {n : JoinNode E}

/-- The condition of a well-formed node is never stuck. -/
theorem testOn_progresses (hn : n.WellFormed outer root before) (t : Tuple) (r : Record) :
    (n.testOn frames t r).Progresses := by
  rw [testOn]
  split
  · rename_i p hp
    have hq : ∀ q ∈ p.queries, ((Empty.elim q : Meaning) (frames ++ [t ++ [some r]])).Progresses :=
      fun q => q.elim
    exact Predicate.test_progresses (hn.on p hp) hq
  · exact .ok _

theorem pairings_progresses (hn : n.WellFormed outer root before) (ts : List Tuple) :
    (n.pairings data frames ts).Progresses := by
  induction ts with
  | nil => exact .ok []
  | cons t ts ih =>
    have haccepted : (n.accepted data frames t).Progresses :=
      keepHolding_progresses fun r _ => testOn_progresses hn t r
    exact .bind haccepted fun rs _ => .bind ih fun rest _ => .ok _

theorem join_progresses (hn : n.WellFormed outer root before) (width : Nat) (ts : List Tuple) :
    (n.join data frames width ts).Progresses := by
  refine .bind (pairings_progresses hn ts) fun pairs _ => ?_
  dsimp only
  split <;> exact .ok _

/-- Joining is never stuck, since each node is well formed behind those before it. -/
theorem joinAll_progresses {ns : List (JoinNode E)}
    (hns : ∀ n ∈ ns, ∃ before, n.WellFormed outer root before) (width : Nat) (ts : List Tuple) :
    (joinAll data frames width ts ns).Progresses := by
  induction ns generalizing width ts with
  | nil => exact .ok ts
  | cons n ns ih =>
    obtain ⟨⟨before, hn⟩, hns⟩ := List.forall_mem_cons.1 hns
    exact .bind (join_progresses hn width ts) fun joined _ => ih hns _ joined

end JoinNode

namespace Plan

variable {p : Plan E}

theorem joined_progresses (hp : p.WellFormed outer) : (p.joined data frames).Progresses := by
  have hns : ∀ n ∈ p.joins, ∃ before, n.WellFormed outer p.root before := by
    intro n hn
    obtain ⟨before, after, hjoins⟩ := List.append_of_mem hn
    exact ⟨before, hp.joins before n after hjoins⟩
  exact JoinNode.joinAll_progresses hns 1 (p.rootTuples data)

/-- Filtering is stuck only if the condition is. -/
theorem filtered_progresses (hp : p.WellFormed outer) {condition? : Option (Predicate Meaning)}
    (hc : ∀ c ∈ condition?, ∀ t, (c.test frames t).Progresses) :
    (p.filtered data condition? frames).Progresses := by
  refine .bind (joined_progresses hp) fun ts _ => ?_
  cases condition? with
  | none => exact .ok _
  | some c => exact .bind (keepHolding_progresses fun t _ => hc c rfl t) fun kept _ => .ok _

theorem grouped_progresses (hp : p.WellFormed outer) (ts : List Tuple) :
    (p.grouped frames ts).Progresses := by
  rw [grouped]
  split
  · exact .of_exists_ok (exists_groupTuples hp.groups ts)
  · exact .ok _

/-- The orders of a well-formed plan are paths, which have values. -/
theorem sortKeys_ok (hp : p.WellFormed outer) (gs : List (List Tuple)) :
    ∃ keyed, p.sortKeys frames gs = .ok keyed := by
  have horders : ∀ e ∈ p.orders.map Sorting.expression, e.WellFormed (outer ++ [p.level]) :=
    List.forall_mem_map.2 hp.orders
  induction gs with
  | nil => exact ⟨[], rfl⟩
  | cons g gs ih =>
    obtain ⟨key, hkey⟩ := Expression.evaluateAll_ok horders frames (p.representative g)
    obtain ⟨rest, hrest⟩ := ih
    refine ⟨(key, g) :: rest, ?_⟩
    rw [sortKeys, hkey, hrest]
    rfl

theorem sorted_progresses (hp : p.WellFormed outer) (gs : List (List Tuple)) :
    (p.sorted frames gs).Progresses := by
  rw [sorted]
  split
  · exact .ok gs
  · exact Progresses.map (.of_exists_ok (sortKeys_ok hp gs))

/-- Well-formed selections always come to columns or to an error of their own. -/
theorem columns_progresses {ss : List Selection} (hss : ∀ s ∈ ss, s.WellFormed levels)
    (group : List Tuple) : (p.columns frames group ss).Progresses := by
  induction ss with
  | nil => exact .ok []
  | cons s ss ih =>
    obtain ⟨hs, hrest⟩ := List.forall_mem_cons.1 hss
    obtain ⟨e, alias?⟩ := s
    cases e with
    | aggregate f e =>
      refine .bind (Aggregate.ofGroup_progresses hs f frames group) fun v _ => ?_
      exact .bind (ih hrest) fun rest _ => .ok _
    | path | literal | call =>
      refine .bind (.of_exists_ok (Expression.WellFormed.evaluate_ok hs frames _)) fun v _ => ?_
      exact .bind (ih hrest) fun rest _ => .ok _

theorem rows_progresses (hp : p.WellFormed outer) (gs : List (List Tuple)) :
    (p.rows frames gs).Progresses := by
  induction gs with
  | nil => exact .ok []
  | cons g gs ih =>
    refine .bind (columns_progresses hp.selections g) fun columns _ => ?_
    exact .bind ih fun rest _ => .ok _

end Plan

namespace GraphQuery

/-- A query that is well formed makes progress on every dataset and inside all frames. -/
theorem meaning_progresses (q : GraphQuery E) : ∀ (outer : List (Level E)) (frames : Frames),
    q.WellFormed outer → (q.meaning data frames).Progresses := by
  induction q using GraphQuery.induction with
  | level q ih =>
    intro outer frames hq
    obtain ⟨hplan, hcondition⟩ := wellFormed_iff.1 hq
    rw [meaning_eq]
    have hfiltered : (q.filtered data frames).Progresses := by
      refine Plan.filtered_progresses hplan fun c hc t => ?_
      obtain ⟨p, hp, rfl⟩ := Option.map_eq_some_iff.1 hc
      have hwf := hcondition p hp
      refine Predicate.test_progresses hwf fun sub hsub => ?_
      exact ih p hp sub hsub _ _ (hwf.query sub hsub)
    refine .bind hfiltered fun ts _ => ?_
    refine .bind (Plan.grouped_progresses hplan ts) fun gs _ => ?_
    refine .bind (Plan.sorted_progresses hplan gs) fun gs _ => ?_
    exact Plan.rows_progresses hplan _

end GraphQuery

end EntityQuery
