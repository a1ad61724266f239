import EntityQuery.Evaluation
import EntityQuery.GraphQuery
import EntityQuery.Proofs.GraphQuery.Parts
import EntityQuery.Proofs.Success

/-! # What happens in a run

The condition of a query is tested on its joined tuples, and a query inside the condition is run
inside the frames of the outer one and the tested tuple.  `GraphQuery.Reaches` follows these runs
to any depth, `GraphQuery.Tests` and `GraphQuery.Evaluates` say which predicates and expressions
are looked at on which tuples.  They do not stop where the right side of a connective is left out,
so they hold of all that is looked at and possibly of more. -/

namespace EntityQuery

variable {E : Type} [Schema E]

namespace GraphQuery

/-- The meaning of a query is that of its plan, with every query in its condition replaced by its
own. -/
theorem meaning_eq (data : Dataset) (q : GraphQuery E) :
    q.meaning data = q.plan.meaning data (q.condition?.map (Predicate.map (meaning data))) := by
  obtain ⟨plan, condition?⟩ := q
  cases condition? with
  | none => rfl
  | some p =>
    rw [meaning, interpret, interpretCondition, interpretPredicate_eq_map]
    rfl

/-- A draft of which the number of rows is known has been compiled and run. -/
theorem exists_rows_of_length {data : Dataset} {d : Draft E (ScopedCondition E)} {n : Nat}
    (h : ((ofDraft .rows d).bind fun q => q.run data).map List.length = .ok n) :
    ∃ q rows, ofDraft .rows d = .ok q ∧ q.run data = .ok rows ∧ rows.length = n := by
  obtain ⟨rows, hrun, hlength⟩ := Result.map_eq_ok.1 h
  obtain ⟨q, hq, hrows⟩ := Result.bind_eq_ok.1 hrun
  exact ⟨q, rows, hq, hrows, hlength⟩

/-- The tuples of a query on which its condition holds. -/
def filtered (data : Dataset) (q : GraphQuery E) (frames : Frames) : Result (List Tuple) :=
  q.plan.filtered data (q.condition?.map (Predicate.map (meaning data))) frames

/-- The queries that a query may run, each inside its frames: those in its condition, for every
joined tuple. -/
def callees (data : Dataset) (q : GraphQuery E) (frames : Frames) :
    List (GraphQuery E × Frames) :=
  match q.plan.joined data frames with
  | .ok ts => ts.flatMap fun t => (q.condition?.elim [] Predicate.queries).map (·, frames ++ [t])
  | .error _ => []

/-- A query is called on each tuple that is joined, and once for every place it has in the
condition. -/
theorem mem_callees {data : Dataset} {q sub : GraphQuery E} {frames frames' : Frames} :
    (sub, frames') ∈ q.callees data frames ↔ ∃ ts, q.plan.joined data frames = .ok ts ∧
      ∃ t ∈ ts, ∃ p ∈ q.condition?, sub ∈ p.queries ∧ frames' = frames ++ [t] := by
  rw [callees]
  cases q.plan.joined data frames with
  | error e => simp
  | ok ts =>
    cases q.condition? with
    | none => simp
    | some p => simp [eq_comm]

/-- A run of a query leads to the run of another one, or is that run itself. -/
inductive Reaches (data : Dataset) : GraphQuery E → Frames → GraphQuery E → Frames → Prop
  | refl (q : GraphQuery E) (frames : Frames) : Reaches data q frames q frames
  | step {q q' q'' : GraphQuery E} {frames frames' frames'' : Frames}
      (hc : (q', frames') ∈ q.callees data frames) (hr : Reaches data q' frames' q'' frames'') :
      Reaches data q frames q'' frames''

/-- The condition of a query is tested on its joined tuples, and that of a join on every tuple of
the joins before it with every candidate. -/
inductive Tests (data : Dataset) (q : GraphQuery E) (frames : Frames) :
    Predicate (GraphQuery E) → Tuple → Prop
  | condition {ts : List Tuple} {t : Tuple} {p : Predicate (GraphQuery E)}
      (hts : q.plan.joined data frames = .ok ts) (ht : t ∈ ts) (hp : p ∈ q.condition?) :
      Tests data q frames p t
  | on {before after : List (JoinNode E)} {n : JoinNode E} {ts : List Tuple} {t : Tuple}
      {r : Record} {p : Predicate Empty} (hn : q.plan.joins = before ++ n :: after)
      (hts : JoinNode.joinAll data frames 1 (q.plan.rootTuples data) before = .ok ts)
      (ht : t ∈ ts) (hr : r ∈ n.candidates data t) (hp : p ∈ n.on?) :
      Tests data q frames (p.map Empty.elim) (t ++ [some r])

/-- Expressions are evaluated on the tuples that their predicate is tested on, keys of groups on
the tuples that are kept, and orders and selections on the tuple that stands for a group or, inside
an aggregate, on each of its tuples. -/
inductive Evaluates (data : Dataset) (q : GraphQuery E) (frames : Frames) :
    Expression → Tuple → Prop
  | tested {p : Predicate (GraphQuery E)} {t : Tuple} {e : Expression}
      (hp : q.Tests data frames p t) (he : e ∈ p.expressions) : Evaluates data q frames e t
  | key {ts : List Tuple} {t : Tuple} {e : Expression} (hts : q.filtered data frames = .ok ts)
      (ht : t ∈ ts) (he : e ∈ q.plan.groups) : Evaluates data q frames e t
  | order {ts : List Tuple} {gs : List (List Tuple)} {g : List Tuple} {s : Sorting}
      (hts : q.filtered data frames = .ok ts) (hgs : q.plan.grouped frames ts = .ok gs)
      (hg : g ∈ gs) (hs : s ∈ q.plan.orders) :
      Evaluates data q frames s.expression (q.plan.representative g)
  | selection {ts : List Tuple} {gs : List (List Tuple)} {g : List Tuple} {s : Selection}
      (hts : q.filtered data frames = .ok ts) (hgs : q.plan.grouped frames ts = .ok gs)
      (hg : g ∈ gs) (hs : s ∈ q.plan.selections) :
      Evaluates data q frames s.expression (q.plan.representative g)
  | aggregated {ts : List Tuple} {gs : List (List Tuple)} {g : List Tuple} {t : Tuple}
      {s : Selection} {f : Aggregate} {e : Expression}
      (hts : q.filtered data frames = .ok ts) (hgs : q.plan.grouped frames ts = .ok gs)
      (hg : g ∈ gs) (ht : t ∈ g) (hs : s ∈ q.plan.selections)
      (he : s.expression = .aggregate f e) : Evaluates data q frames e t

end GraphQuery

/-! ## Items that pass a test -/

/-- What is kept is what the test holds of. -/
theorem mem_keepHolding_iff {α : Type} {test : α → Result Truth} {as kept : List α}
    (h : keepHolding test as = .ok kept) {a : α} :
    a ∈ kept ↔ a ∈ as ∧ test a = .ok .holds := by
  induction as generalizing kept with
  | nil =>
    obtain rfl := Except.ok.inj h
    simp
  | cons b as ih =>
    obtain ⟨t, ht, h⟩ := Result.bind_eq_ok.1 h
    obtain ⟨rest, hrest, h⟩ := Result.bind_eq_ok.1 h
    obtain rfl := Result.pure_eq_ok.1 h
    have hb : test b = .ok .holds ↔ t = .holds := by rw [ht, Except.ok.injEq]
    split
    · rename_i hholds
      rw [List.mem_cons, List.mem_cons, ih hrest]
      constructor
      · rintro (rfl | ⟨ha, htest⟩)
        · exact ⟨.inl rfl, hb.2 hholds⟩
        · exact ⟨.inr ha, htest⟩
      · rintro ⟨rfl | ha, htest⟩
        · exact .inl rfl
        · exact .inr ⟨ha, htest⟩
    · rename_i hholds
      rw [List.mem_cons, ih hrest]
      refine ⟨fun ⟨ha, htest⟩ => ⟨.inr ha, htest⟩, ?_⟩
      rintro ⟨rfl | ha, htest⟩
      · exact absurd (hb.1 htest) hholds
      · exact ⟨ha, htest⟩

/-- Where every test is answered, the items are filtered. -/
theorem keepHolding_of_answered {α : Type} {test : α → Result Truth} {as : List α}
    (h : ∀ a ∈ as, (test a).isOk) :
    keepHolding test as = .ok (as.filter fun a => test a = .ok .holds) := by
  induction as with
  | nil => rfl
  | cons a as ih =>
    obtain ⟨ha, has⟩ := List.forall_mem_cons.1 h
    obtain ⟨t, ht⟩ := Result.exists_of_isOk ha
    rw [keepHolding, ht, ih has, List.filter_cons, ht]
    cases t <;> rfl

/-- Tests that hold of the same items keep the same items. -/
theorem keepHolding_unique {α : Type} {test test' : α → Result Truth} {as kept kept' : List α}
    (h : keepHolding test as = .ok kept) (h' : keepHolding test' as = .ok kept')
    (hiff : ∀ a ∈ as, ∀ t t', test a = .ok t → test' a = .ok t' → (t = .holds ↔ t' = .holds)) :
    kept = kept' := by
  induction as generalizing kept kept' with
  | nil => exact Except.ok.inj (h.symm.trans h')
  | cons a as ih =>
    obtain ⟨ha, has⟩ := List.forall_mem_cons.1 hiff
    obtain ⟨t, ht, h⟩ := Result.bind_eq_ok.1 h
    obtain ⟨rest, hrest, h⟩ := Result.bind_eq_ok.1 h
    obtain ⟨t', ht', h'⟩ := Result.bind_eq_ok.1 h'
    obtain ⟨rest', hrest', h'⟩ := Result.bind_eq_ok.1 h'
    obtain rfl := Result.pure_eq_ok.1 h
    obtain rfl := Result.pure_eq_ok.1 h'
    rw [ih hrest hrest' has]
    exact if_congr (ha t t' ht ht') rfl rfl

end EntityQuery
