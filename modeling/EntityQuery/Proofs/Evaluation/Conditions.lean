import EntityQuery.Proofs.Evaluation.Counting
import EntityQuery.Proofs.Evaluation.Semijoin

/-! # Tuples that conditions keep

The conditions of a draft are compiled to one predicate, and the right side of a connective is not
looked at where the left side decides.  What is kept is nevertheless said by the conditions one by
one: each is translated and tested by itself, and the truths are folded from the left in strong
Kleene logic, a group being a fold of its own.  The tuples on which the fold holds are kept, in
their joined order (`GraphQuery.kept_eq_filter_fold`).

A condition that is refused on some tuple is passed over where the left side decides, so that all of
them must be answered for the fold to be known. -/

namespace EntityQuery

variable {σ κ ρ : Type}

/-! ## The fold of truths -/

namespace Clause

mutual

/-- The truth of a tree, given that of its leaves; a group in which nothing is left has none. -/
def truth? (v : Leaf σ κ → Truth) : Clause σ κ → Option Truth
  | .leaf _ l => some (v l)
  | .group _ members => Truth.fold (truths v members)

/-- The truths of the trees that have one, each with how it is attached. -/
def truths (v : Leaf σ κ → Truth) : List (Clause σ κ) → List (Connective × Truth)
  | [] => []
  | c :: cs =>
    match truth? v c with
    | some t => (c.attach, t) :: truths v cs
    | none => truths v cs

end

/-- The left fold of the trees holds.  Where nothing is left there is nothing to ask for. -/
def allHold (v : Leaf σ κ → Truth) (cs : List (Clause σ κ)) : Bool :=
  (Truth.fold (truths v cs)).getD .holds = .holds

variable {v : Leaf σ κ → Truth}

theorem truths_singleton (c : Clause σ κ) :
    truths v [c] = ((truth? v c).map fun t => (c.attach, t)).toList := by
  rw [truths, truths]
  cases truth? v c <;> rfl

/-- Truths come in the order of the clauses. -/
theorem truths_append (cs ds : List (Clause σ κ)) :
    truths v (cs ++ ds) = truths v cs ++ truths v ds := by
  induction cs with
  | nil => rfl
  | cons c cs ih =>
    rw [List.cons_append, truths, truths, ih]
    cases truth? v c <;> rfl

theorem truths_concat (cs : List (Clause σ κ)) (c : Clause σ κ) :
    truths v (cs ++ [c]) = truths v cs ++ ((truth? v c).map fun t => (c.attach, t)).toList := by
  rw [truths_append, truths_singleton]

mutual

/-- A clause has a truth if it has a leaf. -/
theorem isSome_truth? (c : Clause σ κ) : (truth? v c).isSome = c.hasLeaf := by
  match c with
  | .leaf a l => rfl
  | .group a members =>
    rw [truth?, hasLeaf, ← not_isEmpty_truths members]
    cases truths v members <;> rfl

/-- There is something to fold exactly if there is a leaf. -/
theorem not_isEmpty_truths (cs : List (Clause σ κ)) : (!(truths v cs).isEmpty) = anyLeaf cs := by
  match cs with
  | [] => rfl
  | c :: cs =>
    rw [truths, anyLeaf, ← isSome_truth? c, ← not_isEmpty_truths cs]
    cases truth? v c <;> rfl

end

end Clause

namespace Truth

theorem or_eq_holds {a b : Truth} : a.or b = .holds ↔ a = .holds ∨ b = .holds := by
  cases a <;> cases b <;> simp [or]

/-- The last truth is attached to all before it, if there are any. -/
theorem fold_concat (ts : List (Connective × Truth)) (c : Connective) (b : Truth) :
    fold (ts ++ [(c, b)]) = some ((fold ts).elim b fun a => attach c a b) := by
  cases ts with
  | nil => rfl
  | cons first rest =>
    rw [List.cons_append, fold, fold, List.foldl_append]
    rfl

end Truth

namespace Clause

variable {v : Leaf σ κ → Truth} {cs : List (Clause σ κ)} {c : Clause σ κ}

/-- All conditions hold if their fold does; none at all hold. -/
theorem allHold_iff : allHold v cs ↔ (Truth.fold (truths v cs)).getD .holds = .holds :=
  decide_eq_true_iff

theorem allHold_concat_of_and (hattach : c.attach = .and) (hleaf : c.hasLeaf) :
    allHold v (cs ++ [c]) ↔ allHold v cs ∧ truth? v c = some .holds := by
  rw [← isSome_truth? (v := v)] at hleaf
  obtain ⟨b, hb⟩ := Option.isSome_iff_exists.1 hleaf
  rw [allHold_iff, allHold_iff, truths_concat, hb, hattach, Option.map_some, Option.toList_some,
    Truth.fold_concat]
  cases Truth.fold (truths v cs) with
  | none => simp
  | some a => simp [Truth.attach, Truth.and_eq_holds]

theorem allHold_concat_of_or (hattach : c.attach = .or) (hleaf : anyLeaf cs)
    (h : allHold v cs) : allHold v (cs ++ [c]) := by
  rw [← not_isEmpty_truths (v := v)] at hleaf
  rw [allHold_iff] at h
  rw [allHold_iff, truths_concat, hattach]
  cases truth? v c with
  | none => simpa using h
  | some b =>
    rw [Option.map_some, Option.toList_some, Truth.fold_concat]
    -- Without anything before it, the last truth would be the first, and decide alone.
    cases hts : truths v cs with
    | nil => simp [hts] at hleaf
    | cons first rest =>
      rw [hts] at h
      exact Truth.or_eq_holds.2 (.inl h)

theorem leavesAll_concat (cs : List (Clause σ κ)) (c : Clause σ κ) :
    leavesAll (cs ++ [c]) = leavesAll cs ++ c.leaves := by
  induction cs with
  | nil => exact List.append_nil _
  | cons d cs ih => rw [List.cons_append, leavesAll, leavesAll, ih, List.append_assoc]

end Clause

/-! ## Tests of folded predicates -/

namespace Predicate

variable {meaning : ρ → Meaning} {frames : Frames} {t : Tuple}

/-- What is not looked at has no say in strong Kleene logic. -/
theorem test_attach {p q : Predicate ρ} {a b : Truth} (c : Connective)
    (hp : (p.map meaning).test frames t = .ok a) (hq : (q.map meaning).test frames t = .ok b) :
    ((attach c p q).map meaning).test frames t = .ok (Truth.attach c a b) := by
  cases c with
  | and =>
    refine Result.bind_eq_ok.2 ⟨a, hp, ?_⟩
    cases a with
    | fails => rfl
    | holds | unknown => exact Result.bind_eq_ok.2 ⟨b, hq, rfl⟩
  | or =>
    refine Result.bind_eq_ok.2 ⟨a, hp, ?_⟩
    cases a with
    | holds => rfl
    | fails | unknown => exact Result.bind_eq_ok.2 ⟨b, hq, rfl⟩

/-- An attached predicate and its truth on a tuple. -/
def TestsAs (meaning : ρ → Meaning) (frames : Frames) (t : Tuple) (item : Connective × Predicate ρ)
    (truth : Connective × Truth) : Prop :=
  item.1 = truth.1 ∧ (item.2.map meaning).test frames t = .ok truth.2

variable {items : List (Connective × Predicate ρ)} {truths : List (Connective × Truth)}

/-- Testing what is attached one after the other attaches the truths so. -/
theorem test_foldl (h : List.Forall₂ (TestsAs meaning frames t) items truths) {p : Predicate ρ}
    {a : Truth} (hp : (p.map meaning).test frames t = .ok a) :
    ((items.foldl (fun p next => attach next.1 p next.2) p).map meaning).test frames t =
      .ok (truths.foldl (fun a next => Truth.attach next.1 a next.2) a) := by
  induction h generalizing p a with
  | nil => exact hp
  | @cons item truth _ _ h _ ih =>
    obtain ⟨hattach, hq⟩ := h
    rw [List.foldl_cons, List.foldl_cons, ← hattach]
    exact ih (test_attach item.1 hp hq)

/-- Folding predicates and then testing is folding their truths. -/
theorem test_fold (h : List.Forall₂ (TestsAs meaning frames t) items truths) :
    (fold items).map (fun p => (p.map meaning).test frames t) = (Truth.fold truths).map .ok := by
  cases h with
  | nil => rfl
  | cons h hrest => exact congrArg some (test_foldl hrest h.2)

end Predicate

variable {E : Type} [Schema E]

/-! ## Conditions by themselves -/

namespace GraphQuery

/-- What is known of a single condition on a tuple: it is translated and tested by itself. -/
def leafTruth (data : Dataset) (scope : Scope E) (frames : Frames) (t : Tuple)
    (l : Leaf (Draft E (ScopedCondition E)) (ScopedCondition E)) : Result Truth := do
  let p ← GraphClause.leafPredicate scope (l.map (Draft.interpret subQuery))
  (p.map (meaning data)).test frames t

end GraphQuery

/-- The scope that knows the root of a draft and its joins. -/
def Draft.scope (d : Draft E (ScopedCondition E)) : Result (Scope E) :=
  (Join.attachAll ⟨[], .ofRoot d.outline.root⟩ (Scope.ofRoot d.outline.root).rootEntry
    d.outline.joins).map Joining.scope

/-- What is known of a condition of an outermost query on one of its tuples. -/
def Draft.leafTruth (data : Dataset) (d : Draft E (ScopedCondition E)) (t : Tuple)
    (l : Leaf (Draft E (ScopedCondition E)) (ScopedCondition E)) : Result Truth := do
  GraphQuery.leafTruth data (← d.scope) [] t l

namespace GraphClause

variable {data : Dataset} {scope : Scope E} {frames : Frames} {t : Tuple}
  {v : Leaf (Draft E (ScopedCondition E)) (ScopedCondition E) → Truth}

open GraphQuery

mutual

/-- A compiled clause tests as its truth over the leaves. -/
theorem test_predicate? {c : Clause (Draft E (ScopedCondition E)) (ScopedCondition E)}
    {p? : Option (Predicate (GraphQuery E))}
    (h : predicate? scope (Draft.interpretClause subQuery c) = .ok p?)
    (hv : ∀ l ∈ c.leaves, leafTruth data scope frames t l = .ok (v l)) :
    p?.map (fun p => (p.map (meaning data)).test frames t) = (c.truth? v).map .ok := by
  match c with
  | .leaf a l =>
    rw [Draft.interpretClause, Draft.interpretLeaf_eq_map] at h
    obtain ⟨p, hp, rfl⟩ := Result.map_eq_ok.1 h
    obtain ⟨p', hp', htest⟩ := Result.bind_eq_ok.1 (hv l (List.mem_singleton_self l))
    obtain rfl := Except.ok.inj (hp.symm.trans hp')
    exact congrArg some htest
  | .group a members =>
    obtain ⟨items, hitems, rfl⟩ := Result.map_eq_ok.1 h
    exact Predicate.test_fold (testsAs_predicates hitems hv)

/-- The conditions that say anything have the truths that are folded. -/
theorem testsAs_predicates {cs : List (Clause (Draft E (ScopedCondition E)) (ScopedCondition E))}
    {items : List (Connective × Predicate (GraphQuery E))}
    (h : predicates scope (Draft.interpretAll subQuery cs) = .ok items)
    (hv : ∀ l ∈ Clause.leavesAll cs, leafTruth data scope frames t l = .ok (v l)) :
    List.Forall₂ (Predicate.TestsAs (meaning data) frames t) items (Clause.truths v cs) := by
  match cs with
  | [] =>
    obtain rfl := Except.ok.inj h
    exact .nil
  | c :: cs =>
    obtain ⟨hc, hcs⟩ := List.forall_mem_append.1 hv
    obtain ⟨p?, hp, h⟩ := Result.bind_eq_ok.1 h
    obtain ⟨rest, hrest, h⟩ := Result.bind_eq_ok.1 h
    have hattach : (Draft.interpretClause subQuery c).attach = c.attach := by
      cases c <;> rfl
    have htest := test_predicate? hp hc
    have hrest := testsAs_predicates hrest hcs
    rw [Clause.truths]
    cases hb : c.truth? v with
    | none =>
      rw [hb, Option.map_none, Option.map_eq_none_iff] at htest
      subst htest
      obtain rfl := Result.pure_eq_ok.1 h
      exact hrest
    | some b =>
      rw [hb, Option.map_some, Option.map_eq_some_iff] at htest
      obtain ⟨p, rfl, htest⟩ := htest
      obtain rfl := Result.pure_eq_ok.1 h
      exact .cons ⟨hattach, htest⟩ hrest

end

end GraphClause

/-! ## What is kept -/

/-- Where every test has a truth, keeping is filtering by it. -/
theorem keepHolding_eq_filter {α : Type} {test : α → Result Truth} {v : α → Truth} {as : List α}
    (h : ∀ a ∈ as, test a = .ok (v a)) :
    keepHolding test as = .ok (as.filter fun a => v a = .holds) := by
  have hanswered : ∀ a ∈ as, (test a).isOk := fun a ha => by rw [h a ha]; rfl
  rw [keepHolding_of_answered hanswered]
  refine congrArg Except.ok (List.filter_congr fun a ha => ?_)
  simp only [h a ha, Except.ok.injEq]

namespace GraphQuery

variable {data : Dataset} {purpose : Purpose} {d : Draft E (ScopedCondition E)}
  {q q' : GraphQuery E} {ts : List Tuple}
  {v : Tuple → Leaf (Draft E (ScopedCondition E)) (ScopedCondition E) → Truth}

/-- On a level inside any frames, the condition keeps the tuples on which its left fold holds. -/
theorem Compiled.keepHolding_eq_filter {scope known : Scope E} {frames : Frames}
    (h : Compiled purpose scope known d.outline (Draft.interpretAll subQuery d.conditions) q)
    (hv : ∀ t ∈ ts, ∀ l ∈ Clause.leavesAll d.conditions,
      leafTruth data known frames t l = .ok (v t l)) :
    (match q.condition? with
      | some c => keepHolding (fun t => (c.map (meaning data)).test frames t) ts
      | none => .ok ts) = .ok (ts.filter fun t => Clause.allHold (v t) d.conditions) := by
  obtain ⟨items, hitems, hfold⟩ := Result.map_eq_ok.1 h.condition
  have htest : ∀ t ∈ ts, q.condition?.map (fun c => (c.map (meaning data)).test frames t) =
      (Truth.fold (Clause.truths (v t) d.conditions)).map .ok := by
    intro t ht
    rw [← hfold]
    exact Predicate.test_fold (GraphClause.testsAs_predicates hitems (hv t ht))
  cases hc : q.condition? with
  | none =>
    have hall : ∀ t ∈ ts, Clause.allHold (v t) d.conditions := by
      intro t ht
      have hnone := htest t ht
      rw [hc, Option.map_none, eq_comm, Option.map_eq_none_iff] at hnone
      rw [Clause.allHold, hnone]
      rfl
    exact congrArg Except.ok (List.filter_eq_self.2 hall).symm
  | some c =>
    refine EntityQuery.keepHolding_eq_filter fun t ht => ?_
    have hsome := htest t ht
    rw [hc, Option.map_some, eq_comm, Option.map_eq_some_iff] at hsome
    obtain ⟨a, ha, hok⟩ := hsome
    rw [← hok, ha]
    rfl

/-- A query keeps the joined tuples on which its conditions hold by the truths of their leaves. -/
theorem kept_of_leafTruth (hq : ofDraft purpose d = .ok q) (hts : q.plan.joined data [] = .ok ts)
    (hv : ∀ t ∈ ts, ∀ l ∈ Clause.leavesAll d.conditions, d.leafTruth data t l = .ok (v t l)) :
    q.kept data = .ok (ts.filter fun t => Clause.allHold (v t) d.conditions) := by
  obtain ⟨known, h⟩ := ofLevel_eq_ok.1 hq
  have hscope : d.scope = .ok known := Result.map_eq_ok.2 ⟨_, h.joins, rfl⟩
  rw [kept, hts]
  refine h.keepHolding_eq_filter fun t ht l hl => ?_
  rw [← hv t ht l hl, Draft.leafTruth, hscope]
  rfl

/-- The condition of a query keeps, in their order, the joined tuples on which the left fold of its
clauses holds, each translated and tested by itself.  A clause that is added with AND keeps of them
those on which it holds, and one that is added with OR to other clauses keeps them all. -/
theorem kept_eq_filter_fold (hq : ofDraft purpose d = .ok q)
    (hts : q.plan.joined data [] = .ok ts)
    (hv : ∀ t ∈ ts, ∀ l ∈ Clause.leavesAll d.conditions, d.leafTruth data t l = .ok (v t l)) :
    ∃ kept, kept = ts.filter (fun t => Clause.allHold (v t) d.conditions) ∧
      q.kept data = .ok kept ∧
      q.filtered data [] = .ok (kept.filter q.plan.fetchesPresent) ∧
      ∀ c q', ofDraft purpose (d.filter (.clause c)) = .ok q' →
        (∀ t ∈ ts, ∀ l ∈ c.leaves, d.leafTruth data t l = .ok (v t l)) →
        ∃ kept', q'.kept data = .ok kept' ∧
          (c.attach = .and → c.hasLeaf →
            kept' = kept.filter fun t => c.truth? (v t) = some .holds) ∧
          (c.attach = .or → Clause.anyLeaf d.conditions → kept.Sublist kept') := by
  have hkept := kept_of_leafTruth hq hts hv
  refine ⟨_, rfl, hkept, by rw [filtered_eq_kept, hkept]; rfl, fun c q' hq' hc => ?_⟩
  have hjoined : q'.plan.joined data [] = .ok ts := by
    obtain ⟨known, h⟩ := ofLevel_eq_ok.1 hq
    obtain ⟨known', h'⟩ := ofLevel_eq_ok.1 hq'
    rw [(h.plan_eq h').2, hts]
  have hleaves : ∀ t ∈ ts, ∀ l ∈ Clause.leavesAll (d.conditions ++ [c]),
      (d.filter (.clause c)).leafTruth data t l = .ok (v t l) := by
    intro t ht
    rw [Clause.leavesAll_concat]
    exact List.forall_mem_append.2 ⟨hv t ht, hc t ht⟩
  refine ⟨_, kept_of_leafTruth hq' hjoined hleaves, fun hattach hleaf => ?_,
    fun hattach hleaf => ?_⟩
  · rw [List.filter_filter]
    refine List.filter_congr fun t _ => ?_
    rw [Bool.eq_iff_iff, Bool.and_eq_true, decide_eq_true_iff, and_comm]
    exact Clause.allHold_concat_of_and hattach hleaf
  · exact List.monotone_filter_right ts fun t h => Clause.allHold_concat_of_or hattach hleaf h

end GraphQuery

/-! ## Owners of whom not everything is known -/

namespace Kennel

def dogNamed (name : String) : Record := ⟨"Dog", [("name", .string name)]⟩

/-- Nothing is known of the age of Ada. -/
def neighbours : Dataset := ⟨[("Owner",
  [⟨"Owner", [("dogs", .list [(dogNamed "Rex").toValue, (dogNamed "Bo").toValue]),
      ("name", .string "Ada")]⟩,
    ⟨"Owner", [("age", .scalar (.integer .int ⟨40, by decide⟩)),
      ("dogs", .list [(dogNamed "Max").toValue]), ("name", .string "Eve")]⟩])]⟩

/-- Owners over thirty with their dogs, or else the dog Rex of somebody whose name begins with A. -/
def seniorsOrRex : Draft Kennel (ScopedCondition Kennel) where
  outline := { root := .owner, joins := [Join.ofTable "dogs"] }
  conditions := [.leaf .and (.value "age" .greater (.string "30")),
    .group .or [.leaf .and (.value "name" .like (.string "A%")),
      .leaf .and (.value "dogs.name" .equal (.string "Rex"))]]

def notEve : Clause (Draft Kennel (ScopedCondition Kennel)) (ScopedCondition Kennel) :=
  .leaf .and (.value "name" .diff (.string "Eve"))

/-- What is known of a condition where it can be translated and tested. -/
def knownTruth (t : Tuple)
    (l : Leaf (Draft Kennel (ScopedCondition Kennel)) (ScopedCondition Kennel)) : Truth :=
  ((seniorsOrRex.leafTruth neighbours t l).toOption).getD .unknown

/-- Of three tuples Rex and Max are kept, and without Eve only Rex. -/
theorem kept_eq_filter_fold_of_seniorsOrRex : ∃ q q' ts,
    GraphQuery.ofDraft .rows seniorsOrRex = .ok q ∧
    GraphQuery.ofDraft .rows (seniorsOrRex.filter (.clause notEve)) = .ok q' ∧
    q.plan.joined neighbours [] = .ok ts ∧ ts.length = 3 ∧
    (∀ t ∈ ts, ∀ l ∈ Clause.leavesAll seniorsOrRex.conditions ++ notEve.leaves,
      seniorsOrRex.leafTruth neighbours t l = .ok (knownTruth t l)) ∧
    ∃ kept kept', q.kept neighbours = .ok kept ∧ q'.kept neighbours = .ok kept' ∧
      kept.length = 2 ∧ kept'.length = 1 ∧
      kept = ts.filter (fun t => Clause.allHold (knownTruth t) seniorsOrRex.conditions) ∧
      kept' = kept.filter fun t => notEve.truth? (knownTruth t) = some .holds := by
  have hrun : (GraphQuery.ofDraft .rows seniorsOrRex).bind (fun q =>
      (GraphQuery.ofDraft .rows (seniorsOrRex.filter (.clause notEve))).bind fun q' =>
        (q.plan.joined neighbours []).bind fun ts => (q.kept neighbours).bind fun kept =>
          (q'.kept neighbours).map fun kept' =>
            (ts.length, kept.length, kept'.length,
              ts.all fun t => (Clause.leavesAll seniorsOrRex.conditions ++ notEve.leaves).all
                fun l => (seniorsOrRex.leafTruth neighbours t l).isOk)) =
      .ok (3, 2, 1, true) := by
    decide +kernel
  obtain ⟨q, hq, hrun⟩ := Result.bind_eq_ok.1 hrun
  obtain ⟨q', hq', hrun⟩ := Result.bind_eq_ok.1 hrun
  obtain ⟨ts, hts, hrun⟩ := Result.bind_eq_ok.1 hrun
  obtain ⟨kept, hkept, hrun⟩ := Result.bind_eq_ok.1 hrun
  obtain ⟨kept', hkept', hrun⟩ := Result.map_eq_ok.1 hrun
  simp only [Prod.mk.injEq, List.all_eq_true] at hrun
  obtain ⟨hthree, htwo, hone, hok⟩ := hrun
  have hknown : ∀ t ∈ ts, ∀ l ∈ Clause.leavesAll seniorsOrRex.conditions ++ notEve.leaves,
      seniorsOrRex.leafTruth neighbours t l = .ok (knownTruth t l) := by
    intro t ht l hl
    obtain ⟨a, ha⟩ := Result.exists_of_isOk (hok t ht l hl)
    rw [knownTruth, ha]
    rfl
  obtain ⟨kept₁, hfilter, hkept₁, -, hadded⟩ := GraphQuery.kept_eq_filter_fold hq hts
    fun t ht l hl => hknown t ht l (List.mem_append_left _ hl)
  obtain ⟨kept₂, hkept₂, hand, -⟩ := hadded notEve q' hq'
    fun t ht l hl => hknown t ht l (List.mem_append_right _ hl)
  obtain rfl := Except.ok.inj (hkept.symm.trans hkept₁)
  obtain rfl := Except.ok.inj (hkept'.symm.trans hkept₂)
  exact ⟨q, q', ts, hq, hq', hts, hthree, hknown, kept, kept', hkept, hkept', htwo, hone, hfilter,
    hand rfl rfl⟩

end Kennel

end EntityQuery
