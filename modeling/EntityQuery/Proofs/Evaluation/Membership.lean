import EntityQuery.Proofs.Evaluation.Conditions

/-! # Membership as a disjunction

Whether a value is among candidates is looked up in two passes, one for the candidates that equal it
and one for those that are null.  What comes out is the disjunction of the equalities, in strong
Kleene logic, with one exception: of null nothing is known even where there are no candidates, and
the disjunction would fail there. -/

namespace EntityQuery

/-! ## Disjunctions -/

namespace Truth

variable {a b : Truth} {ts : List Truth}

theorem or_eq_fails : a.or b = .fails ↔ a = .fails ∧ b = .fails := by
  cases a <;> cases b <;> simp [or]

theorem ofBool_ne_unknown (b : Bool) : ofBool b ≠ .unknown := by
  cases b <;> simp [ofBool]

/-- A truth is what it is known to be. -/
theorem eq_of_iff (hholds : a = .holds ↔ b = .holds) (hfails : a = .fails ↔ b = .fails) :
    a = b := by
  cases a <;> cases b <;> simp_all

/-- A disjunction holds if one of its parts does. -/
theorem foldl_or_eq_holds : ts.foldl or a = .holds ↔ a = .holds ∨ .holds ∈ ts := by
  induction ts generalizing a with
  | nil => simp
  | cons t ts ih =>
    rw [List.foldl_cons, ih, or_eq_holds, List.mem_cons, eq_comm (b := t), or_assoc]

/-- A disjunction fails if all of its parts do. -/
theorem foldl_or_eq_fails : ts.foldl or a = .fails ↔ a = .fails ∧ ∀ t ∈ ts, t = .fails := by
  induction ts generalizing a with
  | nil => simp
  | cons t ts ih => rw [List.foldl_cons, ih, or_eq_fails, List.forall_mem_cons, and_assoc]

end Truth

namespace Value

variable {v c : Value} {cs : List Value}

/-- The disjunction of the equalities of a value with candidates. -/
def equalsAny (v : Value) (cs : List Value) : Truth :=
  (cs.map (v.compareTruth .equal)).foldl Truth.or .fails

/-- What is known of the membership of a value: of null nothing, even without candidates. -/
def among (v : Value) (cs : List Value) : Truth :=
  if v.isNull && cs.isEmpty then .unknown else v.equalsAny cs

/-- Equality with one of the candidates holds if it holds of one. -/
theorem equalsAny_eq_holds :
    v.equalsAny cs = .holds ↔ ∃ c ∈ cs, v.compareTruth .equal c = .holds := by
  rw [equalsAny, Truth.foldl_or_eq_holds, List.mem_map]
  simp

theorem equalsAny_eq_fails :
    v.equalsAny cs = .fails ↔ ∀ c ∈ cs, v.compareTruth .equal c = .fails := by
  rw [equalsAny, Truth.foldl_or_eq_fails, List.forall_mem_map]
  simp

/-- Nothing but null makes an equality unknown. -/
theorem compareTruth_equal_eq_unknown :
    v.compareTruth .equal c = .unknown ↔ v.isNull ∨ c.isNull := by
  rw [compareTruth, ← Bool.or_eq_true]
  by_cases hnull : v.isNull || c.isNull
  · simp only [hnull, if_true]
  · rw [if_neg hnull]
    refine iff_of_false ?_ hnull
    cases v.compare? c with
    | none => exact Truth.ofBool_ne_unknown _
    | some o => exact Truth.ofBool_ne_unknown _

/-- An equality fails if it neither holds nor has null on a side. -/
theorem compareTruth_equal_eq_fails :
    v.compareTruth .equal c = .fails ↔
      v.isNull = false ∧ v.compareTruth .equal c ≠ .holds ∧ c.isNull = false := by
  have hunknown := compareTruth_equal_eq_unknown (v := v) (c := c)
  rw [← Bool.not_eq_true, ← Bool.not_eq_true]
  cases htruth : v.compareTruth .equal c with
  | holds => simp
  | fails | unknown =>
    rw [htruth] at hunknown
    simp only [reduceCtorEq, true_iff, false_iff, not_or] at hunknown
    tauto

/-- A candidate that equals the value and one that is null are both in the way. -/
theorem memberTruth_eq_fails :
    v.memberTruth cs = .fails ↔
      v.isNull = false ∧ ∀ c ∈ cs, v.compareTruth .equal c = .fails := by
  by_cases hholds : ∃ c ∈ cs, v.compareTruth .equal c = .holds
  · rw [memberTruth_eq_holds.2 hholds]
    obtain ⟨c, hc, hequal⟩ := hholds
    refine iff_of_false nofun fun h => ?_
    exact absurd (hequal.symm.trans (h.2 c hc)) nofun
  · have hnone : ∀ c ∈ cs, v.compareTruth .equal c ≠ .holds := by
      simpa using hholds
    have hany : (cs.any fun c => v.compareTruth .equal c = .holds) = false := by
      simpa using hnone
    by_cases hnull : v.isNull
    · simp [memberTruth, hnull]
    · have hfails : (∀ c ∈ cs, v.compareTruth .equal c = .fails) ↔ ∀ c ∈ cs, c.isNull = false := by
        refine forall₂_congr fun c hc => ?_
        simp [compareTruth_equal_eq_fails, hnull, hnone c hc]
      rw [hfails, memberTruth, hany]
      simp [hnull]

/-- Where there are candidates, null on the left makes every equality unknown. -/
theorem among_eq_fails :
    v.among cs = .fails ↔ v.isNull = false ∧ ∀ c ∈ cs, v.compareTruth .equal c = .fails := by
  rw [among]
  by_cases hnull : v.isNull
  · cases cs with
    | nil => simp [hnull]
    | cons c cs =>
      have hunknown : v.compareTruth .equal c = .unknown :=
        compareTruth_equal_eq_unknown.2 (.inl hnull)
      simp [hnull, equalsAny_eq_fails, hunknown]
  · simp [hnull, equalsAny_eq_fails]

theorem among_eq_holds :
    v.among cs = .holds ↔ ∃ c ∈ cs, v.compareTruth .equal c = .holds := by
  rw [among, ← equalsAny_eq_holds]
  split
  · rename_i hnone
    simp_all [equalsAny]
  · rfl

/-- The evaluation finds a member as the disjunction of equalities does. -/
theorem memberTruth_eq_among (v : Value) (cs : List Value) : v.memberTruth cs = v.among cs := by
  apply Truth.eq_of_iff
  · rw [memberTruth_eq_holds, among_eq_holds]
  · rw [memberTruth_eq_fails, among_eq_fails]

end Value

/-! ## Conditions of membership -/

/-- The truth itself or its negation. -/
def Truth.signed (positive : Bool) (a : Truth) : Truth := if positive then a else a.not

/-- The operator that looks a value up, or its negation. -/
def Operator.lookup (positive : Bool) : Operator := if positive then .isIn else .notIn

/-- The operator of a membership says its sign. -/
theorem Operator.lookup_eq_isIn (positive : Bool) :
    decide (lookup positive = .isIn) = positive := by
  cases positive <;> rfl

namespace Predicate

variable {ρ : Type} {meaning : ρ → Meaning} {frames : Frames} {t : Tuple}

/-- A negated predicate has the opposite truth. -/
theorem test_signed (p : Predicate ρ) (positive : Bool) :
    ((signed positive p).map meaning).test frames t =
      ((p.map meaning).test frames t).map (Truth.signed positive) := by
  cases positive with
  | true =>
    change (p.map meaning).test frames t = _
    cases (p.map meaning).test frames t <;> rfl
  | false => rfl

/-- A membership tests as the value of its path among the candidates. -/
theorem test_membership (path : Path) (cs : List Value) (positive : Bool) :
    ((membership path cs positive : Predicate ρ).map meaning).test frames t =
      .ok (((path.value frames t).among cs).signed positive) := by
  rw [membership, test_signed, ← Value.memberTruth_eq_among]
  rfl

end Predicate

variable {E : Type} [Schema E]

/-- What is known of a condition of a join on a tuple: it is translated and tested by itself. -/
def JoinCondition.truth (c : JoinCondition) (rows : Entry E) (frames : Frames) (t : Tuple) :
    Result Truth := do
  let p ← c.predicate rows
  (p.map Empty.elim).test frames t

/-- A single value stands for a list of one. -/
theorem JoinCondition.truth_lookup {rows : Entry E} {field : String} {path : Path}
    (hpath : rows.resolve field = .ok path) (positive : Bool) (v : Value) (attach : Connective)
    (frames : Frames) (t : Tuple) :
    truth ⟨field, .lookup positive, v, attach⟩ rows frames t =
      .ok (((path.value frames t).among (v.toList?.getD [v])).signed positive) := by
  have hp : predicate ⟨field, .lookup positive, v, attach⟩ rows =
      .ok (Predicate.membership path (v.toList?.getD [v]) positive) := by
    rw [predicate, hpath]
    cases positive <;> rfl
  rw [truth, hp]
  exact Predicate.test_membership path _ positive

namespace GraphQuery

/-- The rows of a sub query on a tuple of the query around it. -/
def rowsOn (data : Dataset) (scope : Scope E) (frames : Frames) (t : Tuple)
    (sub : Draft E (ScopedCondition E)) : Result (List Row) := do
  let q ← (Draft.interpret subQuery sub).query scope
  q.meaning data (frames ++ [t])

variable (data : Dataset) {scope : Scope E} {field : String} {path : Path}
  (frames : Frames) (t : Tuple) {sub : Draft E (ScopedCondition E)}

/-- A condition with a list is such a membership. -/
theorem leafTruth_list (hpath : scope.resolve field = .ok path) (positive : Bool)
    (cs : List Value) :
    leafTruth data scope frames t (.value field (.lookup positive) (.list cs)) =
      .ok (((path.value frames t).among cs).signed positive) := by
  have hp : GraphClause.leafPredicate scope
      (Leaf.map (Draft.interpret subQuery) (.value field (.lookup positive) (.list cs))) =
        .ok (Predicate.membership path cs positive) := by
    change scope.resolve field >>= _ = _
    rw [hpath]
    cases positive <;> rfl
  rw [leafTruth, hp]
  exact Predicate.test_membership path cs positive

/-- The rows are only asked for once, for the condition as for its negation. -/
theorem leafTruth_subQuery (hpath : scope.resolve field = .ok path) (positive : Bool)
    (hone : sub.outline.selects.length = 1) (htype : sub.outline.resultType?.isSome) :
    leafTruth data scope frames t (.subQuery field (.lookup positive) sub) =
      (rowsOn data scope frames t sub).map fun rows =>
        ((path.value frames t).among (Predicate.firstColumn rows)).signed positive := by
  have hp : GraphClause.leafPredicate scope
      (Leaf.map (Draft.interpret subQuery) (.subQuery field (.lookup positive) sub)) =
        ((Draft.interpret subQuery sub).query scope).map fun query =>
          Predicate.signed positive (.inSubQuery (.path path) query) := by
    change scope.resolve field >>= _ = _
    rw [hpath]
    change GraphClause.inSubQuery scope path (.lookup positive) _ = _
    rw [GraphClause.inSubQuery, outline_subQuery, Operator.lookup_eq_isIn, if_neg, if_neg, if_neg]
    · cases (Draft.interpret subQuery sub).query scope <;> rfl
    · simpa [Option.isSome_iff_ne_none] using htype
    · simpa using hone
    · cases positive <;> simp [Operator.lookup]
  rw [leafTruth, hp, rowsOn]
  cases (Draft.interpret subQuery sub).query scope with
  | error e => rfl
  | ok query =>
    change ((Predicate.signed positive (.inSubQuery (.path path) query)).map _).test _ _ =
      (query.meaning data (frames ++ [t])).map _
    rw [Predicate.test_signed]
    change (query.meaning data (frames ++ [t]) >>= _).map _ = _
    cases query.meaning data (frames ++ [t]) with
    | error e => rfl
    | ok rows =>
      change Except.ok (Truth.signed positive (Value.memberTruth _ _)) = _
      rw [Value.memberTruth_eq_among]
      rfl

end GraphQuery

open GraphQuery

/-- IN is the disjunction of the equalities with the candidates, in strong Kleene logic and from
false on, but unknown for null if there are no candidates; NOT_IN is its negation.  The candidates
are those of a list, in a condition of a query at any depth of nesting or of a join, or the first
column of a sub query, which is refused or fails under one operator as under the other.  Without
rows, NOT_IN holds of every value that is not null. -/
theorem membership_is_disjunction (data : Dataset) {field : String} {path : Path}
    (frames : Frames) (t : Tuple) :
    (∀ scope : Scope E, scope.resolve field = .ok path →
      (∀ cs, leafTruth data scope frames t (.value field .isIn (.list cs)) =
          .ok ((path.value frames t).among cs) ∧
        leafTruth data scope frames t (.value field .notIn (.list cs)) =
          .ok ((path.value frames t).among cs).not) ∧
      ∀ sub, sub.outline.selects.length = 1 → sub.outline.resultType?.isSome →
        leafTruth data scope frames t (.subQuery field .isIn sub) =
          (rowsOn data scope frames t sub).map (fun rows =>
            (path.value frames t).among (Predicate.firstColumn rows)) ∧
        leafTruth data scope frames t (.subQuery field .notIn sub) =
          (rowsOn data scope frames t sub).map (fun rows =>
            ((path.value frames t).among (Predicate.firstColumn rows)).not) ∧
        (rowsOn data scope frames t sub = .ok [] → (path.value frames t).isNull = false →
          leafTruth data scope frames t (.subQuery field .notIn sub) = .ok .holds)) ∧
    ∀ rows : Entry E, rows.resolve field = .ok path → ∀ v attach,
      JoinCondition.truth ⟨field, .isIn, v, attach⟩ rows frames t =
          .ok ((path.value frames t).among (v.toList?.getD [v])) ∧
        JoinCondition.truth ⟨field, .notIn, v, attach⟩ rows frames t =
          .ok ((path.value frames t).among (v.toList?.getD [v])).not := by
  refine ⟨fun scope hpath => ⟨fun cs => ?_, fun sub hone htype => ?_⟩,
    fun rows hpath v attach => ?_⟩
  · exact ⟨leafTruth_list data frames t hpath true cs, leafTruth_list data frames t hpath false cs⟩
  · have hnotIn := leafTruth_subQuery data frames t hpath false hone htype
    refine ⟨leafTruth_subQuery data frames t hpath true hone htype, hnotIn, fun hnone hx => ?_⟩
    refine hnotIn.trans ?_
    rw [hnone]
    change Except.ok (Truth.not (Value.among _ [])) = _
    rw [Value.among, hx]
    rfl
  · exact ⟨JoinCondition.truth_lookup hpath true v attach frames t,
      JoinCondition.truth_lookup hpath false v attach frames t⟩

/-! ## Ages among no numbers -/

namespace Kennel

/-- The numbers of dogs, of which there are none among the neighbours. -/
def dogNumbers : Draft Kennel (ScopedCondition Kennel) where
  outline := {
    root := .dog, selects := [.ofField "id"], resultType? := some (.integer .long) }

/-- Owners whose age is not the number of a dog. -/
def ownersUnnumbered : Draft Kennel (ScopedCondition Kennel) where
  outline := { root := .owner }
  conditions := [.leaf .and (.subQuery "age" .notIn dogNumbers)]

def ageOfOwner : Path := ⟨⟨0, .root⟩, ["age"], some (.integer .int)⟩

def fifty : Value := .scalar (.integer .int ⟨50, by decide⟩)

def aged : Tuple := [some ⟨"Owner", [("age", fifty)]⟩]

/-- An owner of fifty years is not without an age in a list with null and fifty, and has none of the
numbers of no dogs. -/
theorem membership_is_disjunction_of_fifty :
    (Scope.ofRoot Kennel.owner).resolve "age" = .ok ageOfOwner ∧
    dogNumbers.outline.selects.length = 1 ∧ dogNumbers.outline.resultType?.isSome ∧
    rowsOn neighbours (.ofRoot .owner) [] aged dogNumbers = .ok [] ∧
    leafTruth neighbours (Scope.ofRoot Kennel.owner) [] aged
        (.value "age" .notIn (.list [.null, fifty])) = .ok .fails ∧
    leafTruth neighbours (Scope.ofRoot Kennel.owner) [] aged
        (.subQuery "age" .notIn dogNumbers) = .ok .holds := by
  have hpath : (Scope.ofRoot Kennel.owner).resolve "age" = .ok ageOfOwner := by decide +kernel
  have hnone : rowsOn neighbours (.ofRoot .owner) [] aged dogNumbers = .ok [] := by
    have h : (rowsOn neighbours (.ofRoot .owner) [] aged dogNumbers).map List.length = .ok 0 := by
      decide +kernel
    obtain ⟨rows, hrows, hlength⟩ := Result.map_eq_ok.1 h
    rw [hrows, List.length_eq_zero_iff.1 hlength]
  obtain ⟨hlist, hsub⟩ := (membership_is_disjunction neighbours [] aged).1 _ hpath
  refine ⟨hpath, rfl, rfl, hnone, ?_, (hsub dogNumbers rfl rfl).2.2 hnone rfl⟩
  refine (hlist [.null, fifty]).2.trans ?_
  decide +kernel

/-- An owner of whom no age is known. -/
def ageless : Tuple := [some ⟨"Owner", []⟩]

/-- Of null nothing is known even without candidates, so that one of two neighbours is dropped for
no number at all. -/
theorem not_membership_is_disjunction :
    leafTruth neighbours (Scope.ofRoot Kennel.owner) [] ageless (.value "age" .notIn (.list [])) =
      .ok .unknown ∧
    (Value.null.equalsAny []).not = .holds ∧
    (∃ rows, rowsOn neighbours (.ofRoot .owner) [] ageless dogNumbers = .ok rows ∧
      rows.length = 0) ∧
    leafTruth neighbours (Scope.ofRoot Kennel.owner) [] ageless
        (.subQuery "age" .notIn dogNumbers) = .ok .unknown ∧
    ∃ q rows, GraphQuery.ofDraft .rows ownersUnnumbered = .ok q ∧ q.run neighbours = .ok rows ∧
      rows.length = 1 := by
  have hrows : (rowsOn neighbours (.ofRoot .owner) [] ageless dogNumbers).map List.length =
      .ok 0 := by
    decide +kernel
  refine ⟨?_, rfl, Result.map_eq_ok.1 hrows, ?_, exists_rows_of_length ?_⟩
  · decide +kernel
  · decide +kernel
  · decide +kernel

end Kennel

end EntityQuery
