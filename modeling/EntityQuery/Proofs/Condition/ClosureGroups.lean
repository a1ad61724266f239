import EntityQuery.Proofs.Condition.Grouping
import EntityQuery.Proofs.Condition.Trimming
import EntityQuery.Proofs.Evaluation.Conditions

/-! # What closures come to

A closure collects conditions under one connective.  As long as nothing in it says otherwise how it
is attached, the left fold of what is collected has one connective throughout, and is the
disjunction or the conjunction of all that remains in the closure, whatever was left out between
(`Call.truths_clauses`).  So the text and the predicate of a program say what its closures say
(`programs_mean_closures`). -/

namespace EntityQuery

variable {σ κ : Type}

/-! ## Disjunctions and conjunctions of many -/

namespace Truth

/-- The conjunction of all truths, or their disjunction, in strong Kleene logic. -/
def all : Connective → List Truth → Truth
  | .and, ts => ts.foldr and .holds
  | .or, ts => ts.foldr or .fails

/-- `all`, if there is anything to take it of. -/
def all? (c : Connective) : List Truth → Option Truth
  | [] => none
  | t :: ts => some (all c (t :: ts))

theorem all_cons (c : Connective) (t : Truth) (ts : List Truth) :
    all c (t :: ts) = attach c t (all c ts) := by
  cases c <;> rfl

/-- What is attached by one connective throughout may be grouped from either end. -/
theorem attach_assoc (c : Connective) (a b t : Truth) :
    attach c (attach c a b) t = attach c a (attach c b t) := by
  cases c <;> cases a <;> cases b <;> cases t <;> rfl

theorem attach_all_nil (c : Connective) (a : Truth) : attach c a (all c []) = a := by
  cases c <;> cases a <;> rfl

/-- Folding under one connective is its meaning over any number of conditions. -/
theorem foldl_attach (c : Connective) (a : Truth) (ts : List Truth) :
    (ts.map fun t => (c, t)).foldl (fun t next => attach next.1 t next.2) a =
      attach c a (all c ts) := by
  induction ts generalizing a with
  | nil => exact (attach_all_nil c a).symm
  | cons t ts ih => rw [List.map_cons, List.foldl_cons, ih, all_cons, attach_assoc]

/-- Under one connective throughout, the left fold takes all truths at once. -/
theorem fold_map (c : Connective) (ts : List Truth) :
    fold (ts.map fun t => (c, t)) = all? c ts := by
  cases ts with
  | nil => rfl
  | cons t ts => rw [List.map_cons, fold, foldl_attach, all?, all_cons]

end Truth

/-! ## Programs -/

namespace Call

mutual

/-- The call leaves to the builder it is made on how its condition is attached, and so does every
call inside of it. -/
def Defers : Call σ κ → Prop
  | .compare attach? .. | .membership attach? .. | .leaf attach? _ | .group attach? _ =>
    attach? = none
  | .clause _ => False
  | .gather attach? _ calls => attach? = none ∧ DeferAll calls

def DeferAll : List (Call σ κ) → Prop
  | [] => True
  | call :: calls => Defers call ∧ DeferAll calls

end

/-- What is called in closures is attached by them. -/
def ClosuresDefer : Call σ κ → Prop
  | .gather _ _ calls => DeferAll calls
  | _ => True

/-- How what a call adds is attached by a builder that attaches with `own`. -/
def attach (own : Connective) : Call σ κ → Connective
  | .compare attach? .. | .membership attach? .. | .leaf attach? _ | .group attach? _
  | .gather attach? .. => attach?.getD own
  | .clause c => c.attach

mutual

/-- What a call asks for, given the truths of leaves: a closure the disjunction or the conjunction
of what remains in it, a group the left fold of its clauses, and a call that is skipped nothing. -/
def truth? (v : Leaf σ κ → Truth) : Call σ κ → Option Truth
  | .compare _ field operator value =>
    if value.isNull then none else some (v (.value field operator value))
  | .membership _ field operator values =>
    if values.isEmpty then none else some (v (.value field operator (.list values)))
  | .leaf _ l => some (v l)
  | .clause c => c.truth? v
  | .group _ members => Truth.fold (Clause.truths v members)
  | .gather _ inner calls => Truth.all? inner (remaining v calls)

/-- The truths of the calls that ask for anything. -/
def remaining (v : Leaf σ κ → Truth) : List (Call σ κ) → List Truth
  | [] => []
  | call :: calls => (truth? v call).toList ++ remaining v calls

end

/-- The calls of a program that ask for anything, each with how it is attached. -/
def truths (own : Connective) (v : Leaf σ κ → Truth) : List (Call σ κ) → List (Connective × Truth)
  | [] => []
  | call :: calls =>
    ((truth? v call).map fun t => (call.attach own, t)).toList ++ truths own v calls

end Call

namespace Call

variable {v : Leaf σ κ → Truth}

/-- A call that defers is attached as its closure is. -/
theorem attach_of_defers {own : Connective} {call : Call σ κ} (h : call.Defers) :
    call.attach own = own := by
  cases call with
  | clause c => exact h.elim
  | compare attach? | membership attach? | leaf attach? | group attach? =>
    obtain rfl : attach? = none := h
    rfl
  | gather attach? =>
    obtain rfl : attach? = none := h.1
    rfl

/-- Under calls that defer, only the truths that are left over remain, each under the connective of
the closure. -/
theorem truths_of_deferAll {own : Connective} {calls : List (Call σ κ)} (h : DeferAll calls) :
    truths own v calls = (remaining v calls).map fun t => (own, t) := by
  induction calls with
  | nil => rfl
  | cons call calls ih =>
    rw [truths, remaining, attach_of_defers h.1, ih h.2, List.map_append]
    cases truth? v call <;> rfl

/-- Deferring passes to the closures inside. -/
theorem closuresDefer_of_defers {call : Call σ κ} (h : call.Defers) : call.ClosuresDefer := by
  cases call with
  | gather => exact h.2
  | compare | membership | leaf | clause | group => trivial

theorem closuresDefer_of_deferAll {calls : List (Call σ κ)} (h : DeferAll calls) :
    ∀ call ∈ calls, call.ClosuresDefer := by
  induction calls with
  | nil => exact nofun
  | cons call calls ih =>
    exact List.forall_mem_cons.2 ⟨closuresDefer_of_defers h.1, ih h.2⟩

mutual

/-- The conditions that a call adds have the truth that the call asks for. -/
theorem truths_clauses (own : Connective) {call : Call σ κ} (h : call.ClosuresDefer) :
    Clause.truths v (clauses own call) =
      ((truth? v call).map fun t => (call.attach own, t)).toList := by
  match call with
  | .compare attach? field operator value =>
    rw [clauses, truth?]
    split <;> rfl
  | .membership attach? field operator values =>
    rw [clauses, truth?]
    split <;> rfl
  | .leaf attach? l => rfl
  | .clause c => exact Clause.truths_singleton c
  | .group attach? members => exact Clause.truths_singleton _
  | .gather attach? inner calls =>
    -- What defers is attached with `inner` throughout.
    have hall : Truth.fold (Clause.truths v (collect inner calls)) =
        Truth.all? inner (remaining v calls) := by
      rw [truths_collect inner (closuresDefer_of_deferAll h), truths_of_deferAll h, Truth.fold_map]
    rw [clauses, truth?, ← hall]
    cases collect inner calls with
    | nil => rfl
    | cons c cs => exact Clause.truths_singleton _

/-- The tree that the calls collect has the truths of the calls. -/
theorem truths_collect (own : Connective) {calls : List (Call σ κ)}
    (h : ∀ call ∈ calls, call.ClosuresDefer) :
    Clause.truths v (collect own calls) = truths own v calls := by
  match calls with
  | [] => rfl
  | call :: calls =>
    obtain ⟨hcall, hcalls⟩ := List.forall_mem_cons.1 h
    rw [collect, Clause.truths_append, truths_clauses own hcall, truths_collect own hcalls, truths]

end

end Call

/-! ## Truths of numbered leaves -/

namespace Clause

mutual

theorem leafCount_shape (c : Clause σ κ) : c.shape.leafCount = c.leaves.length := by
  match c with
  | .leaf a l => rfl
  | .group a members => exact leafCounts_shapes members

theorem leafCounts_shapes (cs : List (Clause σ κ)) :
    TreeShape.leafCounts (shapes cs) = (leavesAll cs).length := by
  match cs with
  | [] => rfl
  | c :: cs =>
    rw [shapes, TreeShape.leafCounts, leafCount_shape c, leafCounts_shapes cs, leavesAll,
      List.length_append]

end

variable {v : Leaf σ κ → Truth} {w : Nat → Truth}

mutual

/-- A shape with numbered leaves has the truth of the tree. -/
theorem value?_shape {first : Nat} {c : Clause σ κ}
    (hw : ∀ i l, c.leaves[i]? = some l → w (first + i) = v l) :
    c.shape.value? w first = truth? v c := by
  match c with
  | .leaf a l => exact congrArg some (hw 0 l rfl)
  | .group a members => rw [shape, TreeShape.value?, values_shapes hw, truth?]

/-- Trees have the truths that their shapes have, if the numbers of leaves have the truths of the
leaves. -/
theorem values_shapes {first : Nat} {cs : List (Clause σ κ)}
    (hw : ∀ i l, (leavesAll cs)[i]? = some l → w (first + i) = v l) :
    TreeShape.values w first (shapes cs) = truths v cs := by
  match cs with
  | [] => rfl
  | c :: cs =>
    have hc : ∀ i l, c.leaves[i]? = some l → w (first + i) = v l := by
      intro i l hl
      refine hw i l ?_
      obtain ⟨hi, -⟩ := List.getElem?_eq_some_iff.1 hl
      rwa [leavesAll, List.getElem?_append_left hi]
    have hcs : ∀ i l, (leavesAll cs)[i]? = some l → w (first + c.leaves.length + i) = v l := by
      intro i l hl
      rw [Nat.add_assoc]
      refine hw _ l ?_
      rwa [leavesAll, List.getElem?_append_right (Nat.le_add_right ..), Nat.add_sub_cancel_left]
    rw [shapes, TreeShape.values, value?_shape hc, leafCount_shape, values_shapes hcs, truths]
    cases truth? v c with
    | none => rfl
    | some t => simp only [attach_shape]

end

/-- The truths of the leaves by their numbers. -/
def numbered (v : Leaf σ κ → Truth) (cs : List (Clause σ κ)) (i : Nat) : Truth :=
  ((leavesAll cs)[i]?.map v).getD .unknown

/-- Shapes with numbered leaves fold to what the trees fold to. -/
theorem fold_shapes (v : Leaf σ κ → Truth) (cs : List (Clause σ κ)) :
    TreeShape.fold (numbered v cs) (shapes cs) = Truth.fold (truths v cs) := by
  refine congrArg Truth.fold (values_shapes fun i l hl => ?_)
  rw [Nat.zero_add, numbered, hl]
  rfl

end Clause

namespace Draft

variable {E τ : Type} (level : Outline E → List (Clause τ κ) → τ)

mutual

/-- Reading the sub queries of a tree leaves its shape as it is. -/
theorem shape_interpretClause (c : Clause (Draft E κ) κ) :
    (interpretClause level c).shape = c.shape := by
  match c with
  | .leaf a l => rfl
  | .group a members =>
    rw [interpretClause, Clause.shape, Clause.shape, shapes_interpretAll members]

theorem shapes_interpretAll (cs : List (Clause (Draft E κ) κ)) :
    Clause.shapes (interpretAll level cs) = Clause.shapes cs := by
  match cs with
  | [] => rfl
  | c :: cs =>
    rw [interpretAll, Clause.shapes, Clause.shapes, shape_interpretClause c,
      shapes_interpretAll cs]

end

end Draft

/-! ## Programs in both kinds of queries -/

/-- A text of conditions over leaves says what a program asks for, whatever the truths of the
leaves. -/
structure Call.ReadsAs (own : Connective) (calls : List (Call σ κ)) (leaves : List Phrase)
    (text : String) : Prop where
  eq_empty_iff : text = "" ↔ leaves = []
  exists_reads : leaves ≠ [] → ∃ body f, text = "where " ++ body ∧ Reads leaves body f
  truth_eq : ∀ body f, text = "where " ++ body → Reads leaves body f → ∀ v : Leaf σ κ → Truth,
    Truth.fold (truths own v calls) = some (f.value (Clause.numbered v (collect own calls)) 0)

variable {E : Type} [Schema E]

/-- What is written for the calls of a closure reads as what the calls mean. -/
theorem Call.readsAs_of_foldTokens {own : Connective} {calls : List (Call (Draft E String) String)}
    (hdefer : ∀ call ∈ calls, call.ClosuresDefer) {name : String} {names : Names E}
    {ps ps' : Parameters} {ts : List Token}
    (h : TextClause.foldTokens name names
      (Draft.interpretAll Statement.subQuery (collect own calls)) ps = .ok (ts, ps')) :
    ∃ leaves, ((Clause.leavesAll (collect own calls)).map
        (Leaf.map (Draft.interpret Statement.subQuery))).mapM
        (TextClause.leafPhrase name names) ps = .ok (leaves, ps') ∧
      ReadsAs own calls leaves (Statement.whereText ts) := by
  rw [TextClause.foldTokens, Binding.bind_eq_ok] at h
  obtain ⟨items, ps₁, hitems, h⟩ := h
  obtain ⟨rfl, rfl⟩ := Binding.pure_eq_ok.1 h
  obtain ⟨leaves, fs, hleaves, hfits, hwritten⟩ := TextClause.written_fits hitems
  rw [Draft.leavesAll_interpretAll] at hleaves
  have hreads := Token.WrittenAs.readsAsLeftFold hwritten hfits
  refine ⟨leaves, hleaves, hreads.eq_empty_iff, hreads.exists_reads, fun body f hbody hf v => ?_⟩
  rw [← hreads.fold_eq body f hbody hf, Draft.shapes_interpretAll, Clause.fold_shapes,
    truths_collect own hdefer]

/-- What is compiled for the calls of a closure tests as what the calls mean. -/
theorem Call.test_foldPredicate {own : Connective}
    {calls : List (Call (Draft E (ScopedCondition E)) (ScopedCondition E))}
    (hdefer : ∀ call ∈ calls, call.ClosuresDefer) {data : Dataset} {scope : Scope E}
    {frames : Frames} {t : Tuple}
    {v : Leaf (Draft E (ScopedCondition E)) (ScopedCondition E) → Truth}
    {p? : Option (Predicate (GraphQuery E))}
    (h : GraphClause.foldPredicate scope
      (Draft.interpretAll GraphQuery.subQuery (collect own calls)) = .ok p?)
    (hv : ∀ l ∈ Clause.leavesAll (collect own calls),
      GraphQuery.leafTruth data scope frames t l = .ok (v l)) :
    p?.map (fun p => (p.map (GraphQuery.meaning data)).test frames t) =
      (Truth.fold (truths own v calls)).map .ok := by
  obtain ⟨items, hitems, rfl⟩ := Result.map_eq_ok.1 h
  rw [← truths_collect own hdefer]
  exact Predicate.test_fold (GraphClause.testsAs_predicates hitems hv)

/-- Of a program of calls, those that are skipped and those that add no leaf may be left out without
a trace in either kind of query, which itself may be a sub query.  As long as its closures attach
what is called in them, a text is read as, and a predicate tests as, the left fold of what remains
of the program, each closure in it being the disjunction or the conjunction of what remains in
it. -/
theorem programs_mean_closures :
    (∀ (d : Draft E String) (calls : List (Call (Draft E String) String)) (purpose : Purpose),
      TextQuery.ofDraft purpose (calls.foldl Draft.filter d) =
          TextQuery.ofDraft purpose ((Call.trimmedAll calls).foldl Draft.filter d) ∧
        (calls.foldl Draft.filter d).interpret Statement.subQuery =
          ((Call.trimmedAll calls).foldl Draft.filter d).interpret Statement.subQuery) ∧
    (∀ (d : Draft E (ScopedCondition E))
        (calls : List (Call (Draft E (ScopedCondition E)) (ScopedCondition E))) (purpose : Purpose),
      GraphQuery.ofDraft purpose (calls.foldl Draft.filter d) =
          GraphQuery.ofDraft purpose ((Call.trimmedAll calls).foldl Draft.filter d) ∧
        (calls.foldl Draft.filter d).interpret GraphQuery.subQuery =
          ((Call.trimmedAll calls).foldl Draft.filter d).interpret GraphQuery.subQuery) ∧
    (∀ (own : Connective) (calls : List (Call (Draft E String) String)),
      (∀ call ∈ calls, call.ClosuresDefer) →
      ∀ (name : String) (names : Names E) (ps ps' : Parameters) (ts : List Token),
      TextClause.foldTokens name names
        (Draft.interpretAll Statement.subQuery (Call.collect own calls)) ps = .ok (ts, ps') →
      ∃ leaves, ((Clause.leavesAll (Call.collect own calls)).map
          (Leaf.map (Draft.interpret Statement.subQuery))).mapM
          (TextClause.leafPhrase name names) ps = .ok (leaves, ps') ∧
        Call.ReadsAs own calls leaves (Statement.whereText ts)) ∧
    (∀ (own : Connective) (calls : List (Call (Draft E (ScopedCondition E)) (ScopedCondition E))),
      (∀ call ∈ calls, call.ClosuresDefer) →
      ∀ (data : Dataset) (scope : Scope E) (frames : Frames) (t : Tuple)
        (v : Leaf (Draft E (ScopedCondition E)) (ScopedCondition E) → Truth)
        (p? : Option (Predicate (GraphQuery E))),
      GraphClause.foldPredicate scope
        (Draft.interpretAll GraphQuery.subQuery (Call.collect own calls)) = .ok p? →
      (∀ l ∈ Clause.leavesAll (Call.collect own calls),
        GraphQuery.leafTruth data scope frames t l = .ok (v l)) →
      p?.map (fun p => (p.map (GraphQuery.meaning data)).test frames t) =
        (Truth.fold (Call.truths own v calls)).map .ok) := by
  refine ⟨fun d calls purpose => ?_, fun d calls purpose => ?_, ?_, ?_⟩
  · rw [Draft.foldl_filter, Draft.foldl_filter]
    exact Draft.textQuery_eq (Call.prunedAll_trimmed_behind d.conditions calls) d.outline purpose
  · rw [Draft.foldl_filter, Draft.foldl_filter]
    exact Draft.graphQuery_eq (Call.prunedAll_trimmed_behind d.conditions calls) d.outline purpose
  · intro own calls hdefer name names ps ps' ts h
    exact Call.readsAs_of_foldTokens hdefer h
  · intro own calls hdefer data scope frames t v p? h hv
    exact Call.test_foldPredicate hdefer h hv

namespace Kennel

/-- `a or (b and (c or d))`, with calls between them that add nothing. -/
def letters : List (Call (Draft Kennel String) String) :=
  [.leaf none (.custom "a"),
    .gather (some .or) .and [.compare none "age" .less .null, .leaf none (.custom "b"),
      .gather none .or [.gather none .and [], .leaf none (.custom "c"),
        .membership none "name" .isIn [], .leaf none (.custom "d")]],
    .group none [.group .or []]]

/-- Those called Eve, and the elder ones whose name begins with A. -/
def eveOrElder : List (Call (Draft Kennel (ScopedCondition Kennel)) (ScopedCondition Kennel)) :=
  [.gather none .or [.compare none "name" .equal (.string "Eve"),
    .gather none .and [.compare none "age" .less .null,
      .compare none "age" .greater (.string "30"), .compare none "name" .like (.string "A%")]]]

/-- Ada, whose age is not known. -/
def adaAlone : Tuple := [some ⟨"Owner", [("name", .string "Ada")]⟩]

/-- What is known of a condition on her. -/
def truthOfAda (l : Leaf (Draft Kennel (ScopedCondition Kennel)) (ScopedCondition Kennel)) :
    Truth :=
  ((GraphQuery.leafTruth ⟨[]⟩ (.ofRoot .owner) [] adaAlone l).toOption).getD .unknown

/-- The program of letters is read as it is meant, and it is not known whether Ada is asked for. -/
theorem programs_mean_closures_of_letters :
    (TextQuery.ofDraft .rows (letters.foldl Draft.filter (.ofRoot .owner)) =
      TextQuery.ofDraft .rows (List.foldl Draft.filter (.ofRoot Kennel.owner)
        [.leaf none (.custom "a"), .gather (some .or) .and [.leaf none (.custom "b"),
          .gather none .or [.leaf none (.custom "c"), .leaf none (.custom "d")]]])) ∧
    (∃ ts leaves, Call.ReadsAs .and letters leaves (Statement.whereText ts) ∧
      leaves = [.ofText "a", .ofText "b", .ofText "c", .ofText "d"] ∧
      Statement.whereText ts = "where a or (b and (c or d))" ∧
      ∀ v, Truth.fold (Call.truths .and v letters) = some ((v (.custom "a")).or
        (Truth.all .and [v (.custom "b"), Truth.all .or [v (.custom "c"), v (.custom "d")]]))) ∧
    ∃ p?, GraphClause.foldPredicate (.ofRoot Kennel.owner)
        (Draft.interpretAll GraphQuery.subQuery (Call.collect .and eveOrElder)) = .ok p? ∧
      p?.map (fun p => (p.map (GraphQuery.meaning ⟨[]⟩)).test [] adaAlone) =
        some (Except.ok Truth.unknown) := by
  obtain ⟨htext, -, hread, htest⟩ := programs_mean_closures (E := Kennel)
  refine ⟨(htext (.ofRoot .owner) letters .rows).1, ?_, ?_⟩
  · have hdefer : ∀ call ∈ letters, call.ClosuresDefer := by
      simp [letters, Call.ClosuresDefer, Call.DeferAll, Call.Defers]
    obtain ⟨leaves, hleaves, hreads⟩ := hread .and letters hdefer "owner"
      (.ofRoot .owner "owner") [] [] _ rfl
    obtain ⟨rfl, -⟩ := Prod.mk.inj (Except.ok.inj hleaves)
    exact ⟨_, _, hreads, rfl, by decide +kernel, fun v => rfl⟩
  · have hdefer : ∀ call ∈ eveOrElder, call.ClosuresDefer := by
      simp [eveOrElder, Call.ClosuresDefer, Call.DeferAll, Call.Defers]
    have hanswered : (Clause.leavesAll (Call.collect .and eveOrElder)).all fun l =>
        (GraphQuery.leafTruth ⟨[]⟩ (.ofRoot .owner) [] adaAlone l).isOk := by
      decide +kernel
    have hv : ∀ l ∈ Clause.leavesAll (Call.collect .and eveOrElder),
        GraphQuery.leafTruth ⟨[]⟩ (.ofRoot .owner) [] adaAlone l = .ok (truthOfAda l) := by
      intro l hl
      obtain ⟨a, ha⟩ := Result.exists_of_isOk (List.all_eq_true.1 hanswered l hl)
      rw [truthOfAda, ha]
      rfl
    obtain ⟨p?, hp⟩ : ∃ p?, GraphClause.foldPredicate (.ofRoot Kennel.owner)
        (Draft.interpretAll GraphQuery.subQuery (Call.collect .and eveOrElder)) = .ok p? :=
      Result.exists_of_isOk (by decide +kernel)
    have hunknown : Truth.fold (Call.truths .and truthOfAda eveOrElder) = some .unknown := by
      decide +kernel
    refine ⟨p?, hp, ?_⟩
    rw [htest .and eveOrElder hdefer ⟨[]⟩ (.ofRoot .owner) [] adaAlone truthOfAda p? hp hv,
      hunknown]
    rfl

end Kennel

end EntityQuery
