import EntityQuery.GraphQuery
import EntityQuery.Proofs.Condition.Leaves
import EntityQuery.TextQuery

/-! # Conditions without a trace

A group without leaves says nothing in either kind of query, wherever it stands, so that a tree may
be pruned of such groups.  The calls that a builder skips, and those that add nothing but such
groups, may therefore be left out of a program: before they are pruned, the conditions that are
collected differ in no more than that. -/

namespace EntityQuery

variable {σ κ : Type}

/-! ## Pruned trees -/

namespace Clause

mutual

/-- The tree without its groups without leaves, itself included. -/
def pruned : Clause σ κ → List (Clause σ κ)
  | .leaf a l => [.leaf a l]
  | .group a members =>
    match prunedAll members with
    | [] => []
    | c :: cs => [.group a (c :: cs)]

def prunedAll : List (Clause σ κ) → List (Clause σ κ)
  | [] => []
  | c :: cs => pruned c ++ prunedAll cs

end

theorem prunedAll_append (cs ds : List (Clause σ κ)) :
    prunedAll (cs ++ ds) = prunedAll cs ++ prunedAll ds := by
  induction cs with
  | nil => rfl
  | cons c cs ih => rw [List.cons_append, prunedAll, prunedAll, ih, List.append_assoc]

theorem prunedAll_singleton (c : Clause σ κ) : prunedAll [c] = pruned c :=
  List.append_nil _

mutual

/-- Nothing is left of a tree without leaves. -/
theorem pruned_of_hasLeaf_eq_false {c : Clause σ κ} (h : c.hasLeaf = false) : pruned c = [] := by
  match c with
  | .leaf a l => exact Bool.noConfusion h
  | .group a members => rw [pruned, prunedAll_of_anyLeaf_eq_false h]

theorem prunedAll_of_anyLeaf_eq_false {cs : List (Clause σ κ)} (h : anyLeaf cs = false) :
    prunedAll cs = [] := by
  match cs with
  | [] => rfl
  | c :: cs =>
    obtain ⟨hc, hcs⟩ := Bool.or_eq_false_iff.1 h
    rw [prunedAll, pruned_of_hasLeaf_eq_false hc, prunedAll_of_anyLeaf_eq_false hcs]
    rfl

end

end Clause

/-! ## Text -/

namespace TextClause

variable {E : Type} [Schema E] {name : String} {names : Names E}

/-- Clauses are written one after the other, so that parameters are numbered in their order. -/
theorem written_append (cs ds : List TextClause) : written name names (cs ++ ds) = (do
    let before ← written name names cs
    let after ← written name names ds
    return before ++ after) := by
  induction cs with
  | nil => exact (bind_pure _).symm
  | cons c cs ih =>
    simp only [List.cons_append, written, ih, bind_assoc, pure_bind]
    refine bind_congr fun ts => bind_congr fun before => bind_congr fun after => ?_
    split <;> rfl

/-- All that the text of a group depends on is what its members write. -/
theorem written_group {a : Connective} {members members' : List TextClause}
    (h : written name names members = written name names members') :
    written name names [.group a members] = written name names [.group a members'] := by
  simp only [written, tokens, h]
  rfl

mutual

/-- Groups without leaves write nothing. -/
theorem written_pruned (c : TextClause) :
    written name names c.pruned = written name names [c] := by
  match c with
  | .leaf a l => rfl
  | .group a members =>
    rw [written_group (written_prunedAll members).symm, Clause.pruned]
    split
    · rename_i h
      rw [h]
      rfl
    · rename_i h
      rw [h]

/-- Groups without leaves leave nothing behind in the text. -/
theorem written_prunedAll (cs : List TextClause) :
    written name names (Clause.prunedAll cs) = written name names cs := by
  match cs with
  | [] => rfl
  | c :: cs =>
    rw [Clause.prunedAll, written_append, written_pruned c, written_prunedAll cs,
      ← written_append]
    rfl

end

end TextClause

/-! ## Graphs -/

namespace GraphClause

variable {E : Type} [Schema E] {scope : Scope E}

theorem predicates_append (cs ds : List (GraphClause E)) : predicates scope (cs ++ ds) = (do
    let before ← predicates scope cs
    let after ← predicates scope ds
    return before ++ after) := by
  induction cs with
  | nil => exact (bind_pure _).symm
  | cons c cs ih =>
    simp only [List.cons_append, predicates, ih, bind_assoc, pure_bind]
    refine bind_congr fun p? => ?_
    cases p? with
    | none => rfl
    | some p => simp only [pure_bind, List.cons_append]

/-- All that the predicate of a group depends on is what its members become. -/
theorem predicates_group {a : Connective} {members members' : List (GraphClause E)}
    (h : predicates scope members = predicates scope members') :
    predicates scope [.group a members] = predicates scope [.group a members'] := by
  simp only [predicates, predicate?, h]
  rfl

mutual

/-- Groups without leaves come to no predicate. -/
theorem predicates_pruned (c : GraphClause E) :
    predicates scope c.pruned = predicates scope [c] := by
  match c with
  | .leaf a l => rfl
  | .group a members =>
    rw [predicates_group (predicates_prunedAll members).symm, Clause.pruned]
    split
    · rename_i h
      rw [h]
      rfl
    · rename_i h
      rw [h]

/-- Groups without leaves leave nothing behind in the predicate. -/
theorem predicates_prunedAll (cs : List (GraphClause E)) :
    predicates scope (Clause.prunedAll cs) = predicates scope cs := by
  match cs with
  | [] => rfl
  | c :: cs =>
    rw [Clause.prunedAll, predicates_append, predicates_pruned c, predicates_prunedAll cs,
      ← predicates_append]
    rfl

end

end GraphClause

/-! ## Drafts -/

namespace Draft

variable {E τ : Type}

section Interpret

variable (level : Outline E → List (Clause τ κ) → τ)

mutual

/-- Trees may be pruned before their sub queries are read or after. -/
theorem pruned_interpretClause (c : Clause (Draft E κ) κ) :
    (interpretClause level c).pruned = interpretAll level c.pruned := by
  match c with
  | .leaf a l => rfl
  | .group a members =>
    have ih := prunedAll_interpretAll members
    rw [interpretClause, Clause.pruned, Clause.pruned, ih]
    cases Clause.prunedAll members with
    | nil => rfl
    | cons c cs => rfl

theorem prunedAll_interpretAll (cs : List (Clause (Draft E κ) κ)) :
    Clause.prunedAll (interpretAll level cs) = interpretAll level (Clause.prunedAll cs) := by
  match cs with
  | [] => rfl
  | c :: cs =>
    rw [interpretAll, Clause.prunedAll, Clause.prunedAll, pruned_interpretClause c,
      prunedAll_interpretAll cs]
    simp only [interpretAll_eq_map, List.map_append]

end

end Interpret

variable [Schema E]

/-- Trees that are pruned alike are written alike. -/
theorem written_eq {cs ds : List (Clause (Draft E String) String)}
    (h : Clause.prunedAll cs = Clause.prunedAll ds) (name : String) (names : Names E) :
    TextClause.written name names (interpretAll Statement.subQuery cs) =
      TextClause.written name names (interpretAll Statement.subQuery ds) := by
  rw [← TextClause.written_prunedAll, prunedAll_interpretAll, h, ← prunedAll_interpretAll,
    TextClause.written_prunedAll]

/-- Trees that are pruned alike come to the same predicates. -/
theorem predicates_eq {cs ds : List (Clause (Draft E (ScopedCondition E)) (ScopedCondition E))}
    (h : Clause.prunedAll cs = Clause.prunedAll ds) (scope : Scope E) :
    GraphClause.predicates scope (interpretAll GraphQuery.subQuery cs) =
      GraphClause.predicates scope (interpretAll GraphQuery.subQuery ds) := by
  rw [← GraphClause.predicates_prunedAll, prunedAll_interpretAll, h, ← prunedAll_interpretAll,
    GraphClause.predicates_prunedAll]

/-- With conditions that are pruned alike an outline is the same text query, and the same text as a
sub query. -/
theorem textQuery_eq {cs ds : List (Clause (Draft E String) String)}
    (h : Clause.prunedAll cs = Clause.prunedAll ds) (o : Outline E) (purpose : Purpose) :
    TextQuery.ofDraft purpose ⟨o, cs⟩ = TextQuery.ofDraft purpose ⟨o, ds⟩ ∧
      interpret Statement.subQuery ⟨o, cs⟩ = interpret Statement.subQuery ⟨o, ds⟩ := by
  have hlevel : ∀ purpose, Statement.ofLevel purpose o (interpretAll Statement.subQuery cs) =
      Statement.ofLevel purpose o (interpretAll Statement.subQuery ds) := by
    intro purpose
    simp only [Statement.ofLevel, TextClause.foldTokens, written_eq h]
  constructor
  · rw [TextQuery.ofDraft, hlevel]
    rfl
  · rw [interpret, interpret, Statement.subQuery, Statement.subQuery, hlevel]

/-- With conditions that are pruned alike an outline is the same graph, and the same graph as a sub
query. -/
theorem graphQuery_eq {cs ds : List (Clause (Draft E (ScopedCondition E)) (ScopedCondition E))}
    (h : Clause.prunedAll cs = Clause.prunedAll ds) (o : Outline E) (purpose : Purpose) :
    GraphQuery.ofDraft purpose ⟨o, cs⟩ = GraphQuery.ofDraft purpose ⟨o, ds⟩ ∧
      interpret GraphQuery.subQuery ⟨o, cs⟩ = interpret GraphQuery.subQuery ⟨o, ds⟩ := by
  have hlevel : ∀ purpose scope,
      GraphQuery.ofLevel purpose scope o (interpretAll GraphQuery.subQuery cs) =
        GraphQuery.ofLevel purpose scope o (interpretAll GraphQuery.subQuery ds) := by
    intro purpose scope
    simp only [GraphQuery.ofLevel, GraphClause.foldPredicate, predicates_eq h]
  constructor
  · exact hlevel purpose _
  · rw [interpret, interpret, GraphQuery.subQuery, GraphQuery.subQuery]
    simp only [hlevel]

end Draft

/-! ## Trimmed programs -/

namespace Call

mutual

/-- The call without what is skipped in it: nothing for a comparison with null, an empty list, a
group in which there is no leaf, and a closure in which nothing is left. -/
def trimmed : Call σ κ → List (Call σ κ)
  | .compare attach? field operator value =>
    if value.isNull then [] else [.compare attach? field operator value]
  | .membership attach? field operator values =>
    if values.isEmpty then [] else [.membership attach? field operator values]
  | .leaf attach? l => [.leaf attach? l]
  | .clause c => [.clause c]
  | .group attach? members => if Clause.anyLeaf members then [.group attach? members] else []
  | .gather attach? inner calls =>
    match trimmedAll calls with
    | [] => []
    | call :: calls => [.gather attach? inner (call :: calls)]

def trimmedAll : List (Call σ κ) → List (Call σ κ)
  | [] => []
  | call :: calls => trimmed call ++ trimmedAll calls

end

theorem collect_append (own : Connective) (calls more : List (Call σ κ)) :
    collect own (calls ++ more) = collect own calls ++ collect own more := by
  induction calls with
  | nil => rfl
  | cons call calls ih => rw [List.cons_append, collect, collect, ih, List.append_assoc]

/-- A closure adds the pruned group of what its calls add. -/
theorem prunedAll_gather (own : Connective) (attach? : Option Connective) (inner : Connective)
    (calls : List (Call σ κ)) :
    Clause.prunedAll (clauses own (.gather attach? inner calls)) =
      Clause.pruned (.group (attach?.getD own) (collect inner calls)) := by
  rw [clauses]
  cases collect inner calls with
  | nil => rfl
  | cons c cs => exact Clause.prunedAll_singleton _

mutual

/-- Calls that are trimmed leave the same tree once it is pruned. -/
theorem prunedAll_trimmed (own : Connective) (call : Call σ κ) :
    Clause.prunedAll (collect own call.trimmed) = Clause.prunedAll (clauses own call) := by
  match call with
  | .compare attach? field operator value =>
    rw [trimmed, clauses]
    split
    · rfl
    · rename_i h
      rw [collect, clauses, if_neg h]
      rfl
  | .membership attach? field operator values =>
    rw [trimmed, clauses]
    split
    · rfl
    · rename_i h
      rw [collect, clauses, if_neg h]
      rfl
  | .leaf attach? l => rfl
  | .clause c => rfl
  | .group attach? members =>
    rw [trimmed]
    split
    · rfl
    · rename_i h
      rw [clauses, Clause.prunedAll_singleton]
      have hleaf : (Clause.group (attach?.getD own) members).hasLeaf = false :=
        Bool.eq_false_iff.2 h
      exact (Clause.pruned_of_hasLeaf_eq_false hleaf).symm
  | .gather attach? inner calls =>
    -- Where all calls of the closure are trimmed, the group that it adds is pruned.
    have ih := prunedAll_trimmedAll inner calls
    rw [prunedAll_gather, Clause.pruned, ← ih, trimmed]
    split
    · rename_i h
      rw [h]
      rfl
    · rename_i call more h
      rw [h, collect, collect, List.append_nil, prunedAll_gather, Clause.pruned]

/-- What is collected is pruned alike, whether or not calls are trimmed. -/
theorem prunedAll_trimmedAll (own : Connective) (calls : List (Call σ κ)) :
    Clause.prunedAll (collect own (trimmedAll calls)) =
      Clause.prunedAll (collect own calls) := by
  match calls with
  | [] => rfl
  | call :: calls =>
    rw [trimmedAll, collect_append, Clause.prunedAll_append, prunedAll_trimmed own call,
      prunedAll_trimmedAll own calls, ← Clause.prunedAll_append]
    rfl

end

/-- Behind other conditions too. -/
theorem prunedAll_trimmed_behind {own : Connective} (cs : List (Clause σ κ))
    (calls : List (Call σ κ)) :
    Clause.prunedAll (cs ++ collect own calls) =
      Clause.prunedAll (cs ++ collect own (trimmedAll calls)) := by
  rw [Clause.prunedAll_append, Clause.prunedAll_append, prunedAll_trimmedAll]

end Call

namespace Draft

variable {E : Type}

/-- The calls of a program add their conditions behind those of the draft that they are made on. -/
theorem foldl_filter (d : Draft E κ) (calls : List (Call (Draft E κ) κ)) :
    calls.foldl filter d = ⟨d.outline, d.conditions ++ Call.collect .and calls⟩ := by
  induction calls generalizing d with
  | nil =>
    obtain ⟨outline, conditions⟩ := d
    rw [List.foldl_nil, Call.collect, List.append_nil]
  | cons call calls ih => rw [List.foldl_cons, ih, filter, List.append_assoc, Call.collect]

end Draft

end EntityQuery
