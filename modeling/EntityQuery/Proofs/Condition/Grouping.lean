import EntityQuery.Proofs.GraphQuery.Translations
import EntityQuery.Proofs.Kennel
import EntityQuery.Proofs.TextQuery.Grammar
import EntityQuery.TextQuery.Statement

/-! # Both kinds of queries group conditions alike

The parentheses in a text and the nesting of a predicate both say what the left fold says.  The
invariant of writing is that a piece of text with a last connective parses as a conjunction or a
disjunction of that connective, so that only another connective needs parentheses around it. -/

namespace EntityQuery

/-! ## Conditions in text -/

namespace Token

/-- How a text parses that was attached with a connective last. -/
def strengthAfter : Option Connective → Strength
  | none => .operand
  | some .and => .conjunction
  | some .or => .disjunction

/-- Items as they are written, beside the formulas that they parse as. -/
abbrev WrittenAs (items : List (Connective × List Token))
    (fs : List (Connective × Formula Phrase)) : Prop :=
  List.Forall₂ (fun item f => item.1 = f.1 ∧ Parses .operand item.2 f.2) items fs

/-- A tree as it is written: nothing if it is no formula. -/
def WrittenBy (s : Strength) (ts : List Token) : Option (Formula Phrase) → Prop
  | none => ts = []
  | some f => Parses s ts f

variable {s : Strength} {ts us : List Token} {f g : Formula Phrase}

theorem Parses.toDisjunction {last : Option Connective} (h : Parses (strengthAfter last) ts f) :
    Parses .disjunction ts f :=
  match last, h with
  | none, h => .conjunction (.operand h)
  | some .and, h => .conjunction h
  | some .or, h => h

/-- Between parentheses anything is an operand. -/
theorem Parses.wrap {last : Option Connective} (h : Parses (strengthAfter last) ts f) :
    Parses .operand (wrap ts) f := by
  rw [Token.wrap, if_neg (mt List.isEmpty_iff.1 h.ne_nil)]
  exact .group h.toDisjunction

/-- One more condition is attached to all that was written before it. -/
theorem Parses.attach {written : List Token × Option Connective}
    (h : Parses (strengthAfter written.2) written.1 f) (c : Connective)
    (h' : Parses .operand us g) :
    Parses (strengthAfter (attach written (c, us)).2) (attach written (c, us)).1
      (Formula.attach c f g) := by
  obtain ⟨ts, last⟩ := written
  match last, c with
  | none, .and => exact .and (.operand h) h'
  | none, .or => exact .or (.conjunction (.operand h)) (.operand h')
  | some .and, .and => exact .and h h'
  | some .or, .or => exact .or h (.operand h')
  | some .or, .and => exact .and (.operand h.wrap) h'
  | some .and, .or => exact .or (.conjunction (.operand h.wrap)) (.operand h')

/-- Whatever was written before, the rest of a fold is attached to it as a whole. -/
theorem WrittenAs.foldl {items : List (Connective × List Token)}
    {fs : List (Connective × Formula Phrase)} (h : WrittenAs items fs)
    {written : List Token × Option Connective}
    (hw : Parses (strengthAfter written.2) written.1 f) :
    Parses .disjunction (items.foldl attach written).1
      (fs.foldl (fun f next => Formula.attach next.1 f next.2) f) := by
  induction h generalizing written f with
  | nil => exact hw.toDisjunction
  | @cons item p _ _ h hs ih =>
    obtain ⟨c, us⟩ := item
    obtain ⟨rfl, h⟩ := h
    exact ih (hw.attach _ h)

/-- Folded tokens parse to the folded formula. -/
theorem WrittenAs.fold {items : List (Connective × List Token)}
    {fs : List (Connective × Formula Phrase)} (h : WrittenAs items fs) :
    WrittenBy .disjunction (fold items) (Formula.fold fs) := by
  cases h with
  | nil => rfl
  | @cons item p _ _ h hs =>
    let first : List Token × Option Connective := (item.2, none)
    have hfirst : Parses (strengthAfter first.2) first.1 p.2 := h.2
    exact WrittenAs.foldl hs hfirst

theorem WrittenBy.wrap {f? : Option (Formula Phrase)} (h : WrittenBy .disjunction ts f?) :
    WrittenBy .operand (wrap ts) f? := by
  cases f? with
  | none => rw [show ts = [] from h]; rfl
  | some f =>
    have hlast : Parses (strengthAfter (some .or)) ts f := h
    exact hlast.wrap

end Token

namespace TextClause

variable {E : Type} [Schema E] {name : String} {names : Names E}

mutual

/-- The tokens of a clause write a formula of its shape over its leaves, which are written from left
to right. -/
theorem tokens_fits {c : TextClause} {ps ps' : Parameters} {ts : List Token}
    (h : tokens name names c ps = .ok (ts, ps')) :
    ∃ leaves f?, c.leaves.mapM (leafPhrase name names) ps = .ok (leaves, ps') ∧
      c.shape.Fits leaves f? ∧ Token.WrittenBy .operand ts f? := by
  match c with
  | .leaf a l =>
    rw [tokens, Binding.bind_eq_ok] at h
    obtain ⟨p, ps₁, hp, h⟩ := h
    obtain ⟨rfl, rfl⟩ := Binding.pure_eq_ok.1 h
    refine ⟨[p], some (.atom p), ?_, .leaf a p, .atom p⟩
    rw [Clause.leaves, List.mapM_cons, Binding.bind_eq_ok]
    exact ⟨p, ps₁, hp, rfl⟩
  | .group a members =>
    rw [tokens, Binding.bind_eq_ok] at h
    obtain ⟨items, ps₁, hi, h⟩ := h
    obtain ⟨rfl, rfl⟩ := Binding.pure_eq_ok.1 h
    obtain ⟨leaves, fs, hl, hf, hw⟩ := written_fits hi
    exact ⟨leaves, Formula.fold fs, hl, hf.group a, hw.fold.wrap⟩

theorem written_fits {cs : List TextClause} {ps ps' : Parameters}
    {items : List (Connective × List Token)}
    (h : written name names cs ps = .ok (items, ps')) :
    ∃ leaves fs, (Clause.leavesAll cs).mapM (leafPhrase name names) ps = .ok (leaves, ps') ∧
      TreeShape.FitsAll (Clause.shapes cs) leaves fs ∧ Token.WrittenAs items fs := by
  match cs with
  | [] =>
    obtain ⟨rfl, rfl⟩ := Binding.pure_eq_ok.1 h
    exact ⟨[], [], rfl, .nil, .nil⟩
  | c :: cs =>
    rw [written, Binding.bind_eq_ok] at h
    obtain ⟨ts, ps₁, ht, h⟩ := h
    rw [Binding.bind_eq_ok] at h
    obtain ⟨more, ps₂, hm, h⟩ := h
    obtain ⟨rfl, rfl⟩ := Binding.pure_eq_ok.1 h
    obtain ⟨leaves, f?, hl, hf, hw⟩ := tokens_fits ht
    obtain ⟨rest, fs, hl', hf', hw'⟩ := written_fits hm
    have hfits := hf.cons hf'
    rw [Clause.attach_shape] at hfits
    refine ⟨leaves ++ rest, Formula.consFound c.attach f? fs, ?_, hfits, ?_⟩
    · rw [Clause.leavesAll, List.mapM_append, Binding.bind_eq_ok]
      refine ⟨leaves, ps₁, hl, ?_⟩
      rw [Binding.bind_eq_ok]
      exact ⟨rest, ps₂, hl', rfl⟩
    · cases f? with
      | none => rw [show ts = [] from hw]; exact hw'
      | some f =>
        rw [if_neg (mt List.isEmpty_iff.1 (Token.Parses.ne_nil hw))]
        exact .cons ⟨rfl, hw⟩ hw'

end

end TextClause

/-! ## Conditions in a graph -/

namespace GraphClause

variable {E : Type} [Schema E] {scope : Scope E}

mutual

/-- The predicate of a clause is a formula of its shape over its leaves. -/
theorem predicate?_fits {c : GraphClause E} {p? : Option (Predicate (GraphQuery E))}
    (h : predicate? scope c = .ok p?) :
    ∃ leaves f?, c.leaves.mapM (leafPredicate scope) = .ok leaves ∧ c.shape.Fits leaves f? ∧
      f?.map Formula.predicate = p? := by
  match c with
  | .leaf a l =>
    rw [predicate?, Result.map_eq_ok] at h
    obtain ⟨p, hp, rfl⟩ := h
    refine ⟨[p], some (.atom p), ?_, .leaf a p, rfl⟩
    rw [Clause.leaves, Result.mapM_eq_ok]
    exact .cons hp .nil
  | .group a members =>
    rw [predicate?, Result.map_eq_ok] at h
    obtain ⟨items, hi, rfl⟩ := h
    obtain ⟨leaves, fs, hl, hf, rfl⟩ := predicates_fits hi
    exact ⟨leaves, Formula.fold fs, hl, hf.group a, Formula.predicate_fold fs⟩

theorem predicates_fits {cs : List (GraphClause E)}
    {items : List (Connective × Predicate (GraphQuery E))}
    (h : predicates scope cs = .ok items) :
    ∃ leaves fs, (Clause.leavesAll cs).mapM (leafPredicate scope) = .ok leaves ∧
      TreeShape.FitsAll (Clause.shapes cs) leaves fs ∧
      (fs.map fun p => (p.1, p.2.predicate)) = items := by
  match cs with
  | [] =>
    obtain rfl := Except.ok.inj h
    exact ⟨[], [], rfl, .nil, rfl⟩
  | c :: cs =>
    rw [predicates, Result.bind_eq_ok] at h
    obtain ⟨p?, hp, h⟩ := h
    rw [Result.bind_eq_ok] at h
    obtain ⟨ps, hps, h⟩ := h
    obtain ⟨leaves, f?, hl, hf, rfl⟩ := predicate?_fits hp
    obtain ⟨rest, fs, hl', hf', rfl⟩ := predicates_fits hps
    have hfits := hf.cons hf'
    rw [Clause.attach_shape] at hfits
    refine ⟨leaves ++ rest, Formula.consFound c.attach f? fs, ?_, hfits, ?_⟩
    · rw [Clause.leavesAll, List.mapM_append, hl, hl']
      rfl
    · cases f? with
      | none => exact Except.ok.inj h
      | some f => exact Except.ok.inj h

end

end GraphClause

/-! ## Single conditions -/

namespace Predicate

variable {ρ : Type}

theorem isSingle_signed {p : Predicate ρ} (h : p.IsSingle) (positive : Bool) :
    (signed positive p).IsSingle := by
  cases positive with
  | false => rfl
  | true => exact h

/-- A comparison with a value is one test, and so it stays one leaf. -/
theorem isSingle_compareValue {p : Path} {operator : Operator} {v : Value} {q : Predicate ρ}
    (h : compareValue p operator v = .ok q) : q.IsSingle := by
  cases operator with
  | equal | diff =>
    obtain rfl := Except.ok.inj h
    split <;> rfl
  | less | lessOrEqual | greater | greaterOrEqual =>
    obtain ⟨w, -, rfl⟩ := Result.map_eq_ok.1 h
    rfl
  | isIn | notIn =>
    rw [compareValue] at h
    split at h
    · obtain rfl := Except.ok.inj h
      refine isSingle_signed ?_ _
      rfl
    · exact absurd h nofun
  | like | notLike | isNull | isNotNull | findInSet | notFindInSet =>
    obtain rfl := Except.ok.inj h
    rfl

theorem isSingle_between? {operator : Operator} {build : Expression → Expression → Predicate ρ}
    (h : between? operator = some build) (a b : Expression) : (build a b).IsSingle := by
  cases operator with
  | isIn | notIn | isNull | isNotNull | findInSet | notFindInSet => exact absurd h nofun
  | equal | diff | less | lessOrEqual | greater | greaterOrEqual | like | notLike =>
    obtain rfl := Option.some.inj h
    rfl

end Predicate

/-- Only a custom condition can be more than a single one. -/
theorem GraphClause.isSingle_leafPredicate {E : Type} [Schema E] {scope : Scope E}
    {l : GraphLeaf E} {p : Predicate (GraphQuery E)} (h : leafPredicate scope l = .ok p)
    (hl : ∀ build, l = .custom build → p.IsSingle) : p.IsSingle := by
  cases l with
  | value field operator v =>
    obtain ⟨path, -, h⟩ := Result.bind_eq_ok.1 h
    exact Predicate.isSingle_compareValue h
  | subQuery field operator sub =>
    obtain ⟨path, -, h⟩ := Result.bind_eq_ok.1 h
    obtain ⟨-, -, -, query, -, rfl⟩ := inSubQuery_eq_ok.1 h
    refine Predicate.isSingle_signed ?_ _
    rfl
  | fields field operator second =>
    obtain ⟨build, hb, left, -, right, -, rfl⟩ := betweenFields_eq_ok.1 h
    exact Predicate.isSingle_between? hb _ _
  | exist sub positive =>
    obtain ⟨query, -, h⟩ := Result.bind_eq_ok.1 h
    obtain rfl := Result.pure_eq_ok.1 h
    refine Predicate.isSingle_signed ?_ _
    rfl
  | custom build => exact hl build rfl

/-! ## Texts and predicates beside the left fold -/

/-- The text of conditions with its keyword. -/
def Statement.whereText (conditions : List Token) : String :=
  (Phrase.joined " " (conditionClause conditions)).text

theorem Statement.whereText_of_ne_nil {ts : List Token} (h : ts ≠ []) :
    whereText ts = "where " ++ (Token.phrases ts).text := by
  rw [whereText, conditionClause, if_neg (mt List.isEmpty_iff.1 h)]
  rfl

theorem Statement.where_append_ne (body : String) : "where " ++ body ≠ "" := by
  intro h
  have := congrArg String.toList h
  rw [String.toList_append] at this
  exact absurd this nofun

/-- A text of conditions over leaves says what the left fold of their tree says. -/
structure ReadsAsLeftFold (shapes : List TreeShape) (leaves : List Phrase) (text : String) :
    Prop where
  eq_empty_iff : text = "" ↔ leaves = []
  exists_reads : leaves ≠ [] → ∃ body f, text = "where " ++ body ∧ Reads leaves body f
  fold_eq : ∀ body f, text = "where " ++ body → Reads leaves body f →
    ∀ v, TreeShape.fold v shapes = some (f.value v 0)

/-- A predicate is made of leaves, as conjunctions and disjunctions that say what the left fold
says; they are its skeleton if no leaf is one itself. -/
structure BuiltAsLeftFold {ρ : Type} (shapes : List TreeShape) (leaves : List (Predicate ρ))
    (p? : Option (Predicate ρ)) : Prop where
  eq_none_iff : p? = none ↔ leaves = []
  exists_formula : ∀ p, p? = some p → ∃ f : Formula (Predicate ρ), f.leaves = leaves ∧
    f.predicate = p ∧ ∀ v, TreeShape.fold v shapes = some (f.value v 0)
  skeleton : (∀ q ∈ leaves, q.IsSingle) → ∀ p, p? = some p →
    p.skeleton.leaves = leaves ∧ ∀ v, TreeShape.fold v shapes = some (p.skeleton.value v 0)

theorem Formula.leaves_ne_nil {α : Type} (f : Formula α) : f.leaves ≠ [] := by
  induction f with
  | atom a => exact List.cons_ne_nil _ _
  | and f g ihf ihg => exact List.append_ne_nil_of_left_ne_nil ihf _
  | or f g ihf ihg => exact List.append_ne_nil_of_left_ne_nil ihf _

/-- A formula that fits a shape has its truth. -/
theorem TreeShape.FitsAll.fold_eq {α : Type} {ss : List TreeShape} {as : List α}
    {items : List (Connective × Formula α)} (h : FitsAll ss as items) (v : Nat → Truth) :
    TreeShape.fold v ss = (Formula.fold items).map (Formula.value v 0) := by
  rw [TreeShape.fold, h.values, Formula.value_fold]

theorem TreeShape.FitsAll.fold_leaves {α : Type} {ss : List TreeShape} {as : List α}
    {items : List (Connective × Formula α)} (h : FitsAll ss as items) :
    (Formula.fold items).elim [] Formula.leaves = as :=
  (Formula.leaves_fold items).trans h.leaves

/-- Text that is written as a fold is read as one. -/
theorem Token.WrittenAs.readsAsLeftFold {ss : List TreeShape} {leaves : List Phrase}
    {items : List (Connective × List Token)} {fs : List (Connective × Formula Phrase)}
    (h : WrittenAs items fs) (hf : TreeShape.FitsAll ss leaves fs) :
    ReadsAsLeftFold ss leaves (Statement.whereText (Token.fold items)) := by
  have hw := WrittenAs.fold h
  have hfold := hf.fold_eq
  have hleaves := hf.fold_leaves
  cases hform : Formula.fold fs with
  | none =>
    rw [hform] at hw hleaves
    rw [show Token.fold items = [] from hw]
    obtain rfl : [] = leaves := hleaves
    exact ⟨⟨fun _ => rfl, fun _ => rfl⟩, fun h => absurd rfl h,
      fun body f ht => absurd ht.symm (Statement.where_append_ne body)⟩
  | some f =>
    rw [hform] at hw hleaves
    simp only [hform] at hfold
    obtain rfl : f.leaves = leaves := hleaves
    have hp : Token.Parses .disjunction (Token.fold items) f := hw
    have htext := Statement.whereText_of_ne_nil hp.ne_nil
    have hreads : Reads f.leaves (Token.phrases (Token.fold items)).text f :=
      ⟨_, rfl, hp.atoms_eq, hp⟩
    refine ⟨⟨fun ht => ?_, fun hl => absurd hl f.leaves_ne_nil⟩, fun _ => ⟨_, f, htext, hreads⟩,
      fun body g hb hg v => ?_⟩
    · rw [htext] at ht
      exact absurd ht (Statement.where_append_ne _)
    · rw [htext] at hb
      obtain rfl := String.append_right_inj "where " |>.1 hb
      rw [hfold, hreads.unique hg]
      rfl

theorem TreeShape.FitsAll.builtAsLeftFold {ρ : Type} {ss : List TreeShape}
    {leaves : List (Predicate ρ)} {fs : List (Connective × Formula (Predicate ρ))}
    (h : FitsAll ss leaves fs) :
    BuiltAsLeftFold ss leaves ((Formula.fold fs).map Formula.predicate) := by
  have hfold := h.fold_eq
  have hleaves := h.fold_leaves
  cases hform : Formula.fold fs with
  | none =>
    rw [hform] at hleaves
    obtain rfl : [] = leaves := hleaves
    exact ⟨⟨fun _ => rfl, fun _ => rfl⟩, nofun, fun _ => nofun⟩
  | some f =>
    rw [hform] at hleaves
    simp only [hform] at hfold
    obtain rfl : f.leaves = leaves := hleaves
    refine ⟨⟨nofun, fun hl => absurd hl f.leaves_ne_nil⟩, fun p hp => ⟨f, rfl, ?_, hfold⟩,
      fun hs p hp => ?_⟩
    · exact Option.some.inj hp
    · obtain rfl := Option.some.inj hp
      rw [f.skeleton_predicate hs]
      exact ⟨rfl, hfold⟩

/-- Both kinds of queries group a tree of conditions like the left fold: the text, read with AND
before OR, and the predicate that a tree of the same shape becomes.  The leaves of the text are the
conditions of the tree as they are written, in their order. -/
theorem conditions_group_as_leftFold {E F : Type} [Schema E] [Schema F] {name : String}
    {names : Names E} {cs : List TextClause} {ps ps' : Parameters} {ts : List Token}
    (h : TextClause.foldTokens name names cs ps = .ok (ts, ps')) :
    (∃ leaves,
      (Clause.leavesAll cs).mapM (TextClause.leafPhrase name names) ps = .ok (leaves, ps') ∧
      ReadsAsLeftFold (Clause.shapes cs) leaves (Statement.whereText ts)) ∧
    ∀ (scope : Scope F) (gs : List (GraphClause F)) (p? : Option (Predicate (GraphQuery F))),
      Clause.shapes gs = Clause.shapes cs → GraphClause.foldPredicate scope gs = .ok p? →
      ∃ leaves, (Clause.leavesAll gs).mapM (GraphClause.leafPredicate scope) = .ok leaves ∧
        BuiltAsLeftFold (Clause.shapes cs) leaves p? ∧
        ((∀ build, .custom build ∈ Clause.leavesAll gs → ∀ q, build scope = .ok q → q.IsSingle) →
          ∀ q ∈ leaves, q.IsSingle) := by
  constructor
  · rw [TextClause.foldTokens, Binding.bind_eq_ok] at h
    obtain ⟨items, ps₁, hi, h⟩ := h
    obtain ⟨rfl, rfl⟩ := Binding.pure_eq_ok.1 h
    obtain ⟨leaves, fs, hl, hf, hw⟩ := TextClause.written_fits hi
    exact ⟨leaves, hl, Token.WrittenAs.readsAsLeftFold hw hf⟩
  · intro scope gs p? hs hg
    rw [GraphClause.foldPredicate, Result.map_eq_ok] at hg
    obtain ⟨items, hi, rfl⟩ := hg
    obtain ⟨leaves, fs, hl, hf, rfl⟩ := GraphClause.predicates_fits hi
    rw [← Formula.predicate_fold, ← hs]
    refine ⟨leaves, hl, hf.builtAsLeftFold, fun hcustom q hq => ?_⟩
    obtain ⟨l, hmem, hq⟩ := Result.exists_of_mem_mapM hl hq
    exact GraphClause.isSingle_leafPredicate hq fun build hb =>
      hcustom build (hb ▸ hmem) q (by rw [hb] at hq; exact hq)

/-- `a or b and (c or d)`, with a group of nothing at its end. -/
theorem conditions_group_as_leftFold_of_change :
    let cs : List TextClause := [.leaf .and (.custom "a"), .leaf .or (.custom "b"),
      .group .and [.leaf .and (.custom "c"), .leaf .or (.custom "d")], .group .or []]
    let names : Names Kennel := .ofRoot .owner "owner"
    let ts : List Token := [.opening, .atom (.ofText "a"), .connective .or, .atom (.ofText "b"),
      .closing, .connective .and, .opening, .atom (.ofText "c"), .connective .or,
      .atom (.ofText "d"), .closing]
    TextClause.foldTokens "owner" names cs [] = .ok (ts, []) ∧
      (∃ leaves, (Clause.leavesAll cs).mapM (TextClause.leafPhrase "owner" names) [] =
          .ok (leaves, []) ∧
        ReadsAsLeftFold (Clause.shapes cs) leaves (Statement.whereText ts)) ∧
      ∀ (scope : Scope Kennel) (gs : List (GraphClause Kennel))
        (p? : Option (Predicate (GraphQuery Kennel))),
        Clause.shapes gs = Clause.shapes cs → GraphClause.foldPredicate scope gs = .ok p? →
        ∃ leaves, (Clause.leavesAll gs).mapM (GraphClause.leafPredicate scope) = .ok leaves ∧
          BuiltAsLeftFold (Clause.shapes cs) leaves p? ∧
          ((∀ build, .custom build ∈ Clause.leavesAll gs → ∀ q, build scope = .ok q → q.IsSingle) →
            ∀ q ∈ leaves, q.IsSingle) := by
  intro cs names ts
  have h : TextClause.foldTokens "owner" names cs [] = .ok (ts, []) := rfl
  exact ⟨h, conditions_group_as_leftFold h⟩

end EntityQuery
