import EntityQuery.Proofs.GraphQuery.WellFormed

/-! # Parts of graphs

The paths of an expression, and the expressions, comparisons and queries of a predicate.  The parts
of what is well formed are well formed, and a graph is understood once all queries in its condition
are (`GraphQuery.induction`). -/

namespace EntityQuery

variable {E ρ σ τ : Type}

/-! ## Parts of expressions and predicates -/

/-- A path stands somewhere in an expression. -/
inductive Expression.Mentions (p : Path) : Expression → Prop
  | path : Mentions p (.path p)
  | argument {name : String} {arguments : List Expression} {e : Expression}
      (he : e ∈ arguments) (h : Mentions p e) : Mentions p (.call name arguments)
  | aggregate {f : Aggregate} {e : Expression} (h : Mentions p e) : Mentions p (.aggregate f e)

namespace Predicate

/-- What is evaluated for a predicate, apart from the queries inside it. -/
def expressions : Predicate ρ → List Expression
  | .compare left _ right => [left, right]
  | .like subject pattern _ => [subject, pattern]
  | .isNull e | .isNotNull e | .isIn e _ | .inSubQuery e _ => [e]
  | .exist _ => []
  | .not p => expressions p
  | .and p q | .or p q => expressions p ++ expressions q

/-- The comparisons in a predicate, apart from those of the queries inside it. -/
def comparisons : Predicate ρ → List (Expression × Comparator × Expression)
  | .compare left comparator right => [(left, comparator, right)]
  | .not p => comparisons p
  | .and p q | .or p q => comparisons p ++ comparisons q
  | _ => []

/-- The queries in a predicate, from left to right. -/
def queries : Predicate ρ → List ρ
  | .inSubQuery _ query | .exist query => [query]
  | .not p => queries p
  | .and p q | .or p q => queries p ++ queries q
  | _ => []

theorem map_map (f : ρ → σ) (g : σ → τ) (p : Predicate ρ) : (p.map f).map g = p.map (g ∘ f) := by
  induction p with
  | not p ih => exact congrArg Predicate.not ih
  | and p q ihp ihq | or p q ihp ihq => simp only [map, ihp, ihq]
  | _ => rfl

/-- Both sides of a comparison are evaluated. -/
theorem expressions_of_comparison {p : Predicate ρ}
    {c : Expression × Comparator × Expression}
    (hc : c ∈ p.comparisons) : c.1 ∈ p.expressions ∧ c.2.2 ∈ p.expressions := by
  induction p with
  | compare left comparator right =>
    obtain rfl := List.mem_singleton.1 hc
    exact ⟨List.mem_cons_self, List.mem_cons_of_mem _ List.mem_cons_self⟩
  | like | isNull | isNotNull | isIn | inSubQuery | exist => exact absurd hc nofun
  | not p ih => exact ih hc
  | and p q ihp ihq | or p q ihp ihq =>
    rcases List.mem_append.1 hc with hc | hc
    · exact (ihp hc).imp (List.mem_append_left _) (List.mem_append_left _)
    · exact (ihq hc).imp (List.mem_append_right _) (List.mem_append_right _)

end Predicate

/-! ## Queries in queries -/

namespace GraphQuery

variable {motive : GraphQuery E → Prop}

mutual

/-- What holds of a graph if it holds of the queries in its condition holds of every graph. -/
theorem induction
    (level : ∀ q, (∀ p ∈ q.condition?, ∀ sub ∈ p.queries, motive sub) → motive q)
    (q : GraphQuery E) : motive q := by
  match q with
  | ⟨plan, condition?⟩ => exact level ⟨plan, condition?⟩ (induction_condition level condition?)

theorem induction_condition
    (level : ∀ q, (∀ p ∈ q.condition?, ∀ sub ∈ p.queries, motive sub) → motive q)
    (condition? : Option (Predicate (GraphQuery E))) :
    ∀ p ∈ condition?, ∀ sub ∈ p.queries, motive sub := by
  match condition? with
  | none => exact nofun
  | some p =>
    have below := induction_queries level p
    rintro _ ⟨⟩
    exact below

/-- Each query inside a condition is smaller than the graph. -/
theorem induction_queries
    (level : ∀ q, (∀ p ∈ q.condition?, ∀ sub ∈ p.queries, motive sub) → motive q)
    (p : Predicate (GraphQuery E)) : ∀ sub ∈ p.queries, motive sub := by
  match p with
  | .compare .. | .like .. | .isNull _ | .isNotNull _ | .isIn .. => exact nofun
  | .inSubQuery _ query | .exist query => exact List.forall_mem_singleton.2 (induction level query)
  | .not p => exact induction_queries level p
  | .and p q | .or p q =>
    exact List.forall_mem_append.2 ⟨induction_queries level p, induction_queries level q⟩

end

end GraphQuery

/-! ## Parts of what is well formed -/

variable [Schema E] {levels : List (Level E)} {p : Predicate ρ} {f : ρ → List (Level E) → Prop}

theorem Expression.WellFormed.path_of_mentions {e : Expression} (he : e.WellFormed levels)
    {path : Path} (h : e.Mentions path) : path.WellFormed levels := by
  induction he with
  | path hp =>
    cases h with
    | path => exact hp
  | literal v => exact absurd h nofun
  | findInSet hn hh ihn ihh =>
    cases h with
    | argument he h =>
      rcases List.mem_pair.1 he with rfl | rfl
      · exact ihn h
      · exact ihh h

theorem Selection.WellFormed.path_of_mentions {s : Selection} (hs : s.WellFormed levels)
    {path : Path} (h : s.expression.Mentions path) : path.WellFormed levels := by
  obtain ⟨e, alias?⟩ := s
  cases e with
  | aggregate g e =>
    cases h with
    | aggregate h => exact Expression.WellFormed.path_of_mentions hs h
  | path | literal | call => exact Expression.WellFormed.path_of_mentions hs h

namespace Predicate.WellFormed

/-- What is evaluated for a well-formed predicate is well formed. -/
theorem expression (hp : (p.map f).WellFormed levels) :
    ∀ e ∈ p.expressions, e.WellFormed levels := by
  induction p with
  | compare left comparator right =>
    exact List.forall_mem_cons.2 ⟨hp.1, List.forall_mem_singleton.2 hp.2.1⟩
  | like subject pattern negated =>
    exact List.forall_mem_cons.2 ⟨hp.1, List.forall_mem_singleton.2 hp.2⟩
  | isNull e | isNotNull e | isIn e values => exact List.forall_mem_singleton.2 hp
  | inSubQuery e query => exact List.forall_mem_singleton.2 hp.1
  | exist query => exact nofun
  | not p ih => exact ih hp
  | and p q ihp ihq | or p q ihp ihq => exact List.forall_mem_append.2 ⟨ihp hp.1, ihq hp.2⟩

/-- Every ordering in a well-formed predicate is in the type of its attribute. -/
theorem ordersInType (hp : (p.map f).WellFormed levels) :
    ∀ c ∈ p.comparisons, c.1.OrdersInType c.2.1 c.2.2 := by
  induction p with
  | compare left comparator right => exact List.forall_mem_singleton.2 hp.2.2
  | like | isNull | isNotNull | isIn | inSubQuery | exist => exact nofun
  | not p ih => exact ih hp
  | and p q ihp ihq | or p q ihp ihq => exact List.forall_mem_append.2 ⟨ihp hp.1, ihq hp.2⟩

/-- The queries in a well-formed predicate are well formed. -/
theorem query (hp : (p.map f).WellFormed levels) : ∀ q ∈ p.queries, f q levels := by
  induction p with
  | compare | like | isNull | isNotNull | isIn => exact nofun
  | inSubQuery e query => exact List.forall_mem_singleton.2 hp.2
  | exist query => exact List.forall_mem_singleton.2 hp
  | not p ih => exact ih hp
  | and p q ihp ihq | or p q ihp ihq => exact List.forall_mem_append.2 ⟨ihp hp.1, ihq hp.2⟩

end Predicate.WellFormed

end EntityQuery
