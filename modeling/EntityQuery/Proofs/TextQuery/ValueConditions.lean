import EntityQuery.Proofs.TextQuery.Atoms
import EntityQuery.TextQuery

/-! # The conditions that bind values

A condition that compares with a value binds it as a parameter, unless it comes down to a test for
null.  `Draft.valueConditions` lists these conditions as they come in the text: those of the joins
first, each level before the levels inside it, and then those of the conditions, with those of a
sub query in its place.  Writing binds their operands in this order and nothing else
(`valueConditions_of_subQuery`). -/

namespace EntityQuery

variable {E : Type}

/-- A field that is compared with a value. -/
structure ValueCondition where
  field : String
  operator : Operator
  value : Value
  /-- The type of the field, if it is known. -/
  type? : Option ScalarType

namespace ValueCondition

/-- The value of the parameter: an ordering casts what it compares with to the type of the field. -/
def operand (c : ValueCondition) : Result Value :=
  match c.operator.isOrdering, c.type? with
  | true, some type => (c.value.cast type).map .scalar
  | _, _ => .ok c.value

/-- Binds the operand under the next name for the field. -/
def bind (c : ValueCondition) : Binding String := do
  let operand ← c.operand
  fun parameters =>
    let name := Binding.parameterName c.field (parameters.length + 1)
    .ok (name, parameters ++ [(name, operand)])

/-- Values are bound from left to right. -/
def bindAll (cs : List ValueCondition) : Binding (List String) := cs.mapM bind

theorem bindAll_append {cs ds : List ValueCondition} {ps ps₁ ps' : Parameters}
    {names more : List String} (h : bindAll cs ps = .ok (names, ps₁))
    (h' : bindAll ds ps₁ = .ok (more, ps')) :
    bindAll (cs ++ ds) ps = .ok (names ++ more, ps') := by
  rw [bindAll, List.mapM_append, Binding.bind_eq_ok]
  refine ⟨names, ps₁, h, ?_⟩
  rw [Binding.bind_eq_ok]
  exact ⟨more, ps', h', rfl⟩

/-- The names that are left to bind `cs` after `n` parameters. -/
def names (n : Nat) : List ValueCondition → List String
  | [] => []
  | c :: cs => Binding.parameterName c.field (n + 1) :: names (n + 1) cs

/-- What was bound stands behind what was there, under the names of its places. -/
theorem bindAll_eq_ok {cs : List ValueCondition} {ps ps' : Parameters} {ns : List String}
    (h : bindAll cs ps = .ok (ns, ps')) :
    ∃ added : Parameters, ps' = ps ++ added ∧ added.map Prod.fst = ns ∧ ns = names ps.length cs ∧
      List.Forall₂ (fun c p => c.operand = .ok p.2) cs added := by
  induction cs generalizing ps ns with
  | nil =>
    obtain ⟨rfl, rfl⟩ := Binding.pure_eq_ok.1 h
    exact ⟨[], (List.append_nil ps).symm, rfl, rfl, .nil⟩
  | cons c cs ih =>
    rw [bindAll, List.mapM_cons, Binding.bind_eq_ok] at h
    obtain ⟨name, ps₁, hc, h⟩ := h
    rw [Binding.bind_eq_ok] at h
    obtain ⟨ns₁, ps₂, hcs, h⟩ := h
    obtain ⟨rfl, rfl⟩ := Binding.pure_eq_ok.1 h
    rw [bind, Binding.bind_eq_ok] at hc
    obtain ⟨v, ps₃, hlift, hc⟩ := hc
    obtain ⟨hv, rfl⟩ := Binding.lift_eq_ok.1 hlift
    obtain ⟨rfl, rfl⟩ := Prod.mk.inj (Except.ok.inj hc)
    obtain ⟨added, rfl, rfl, hnames, hoperands⟩ := ih hcs
    refine ⟨_ :: added, List.append_assoc _ _ _, rfl, ?_, .cons hv hoperands⟩
    rw [hnames, List.length_append]
    rfl

end ValueCondition

/-! ## The conditions of a draft -/

/-- The condition, if its value is bound. -/
def Comparison.valueConditions (field : String) (type? : Option ScalarType) (operator : Operator)
    (value : Value) : List ValueCondition :=
  if operator.takesValue ∧ ¬((operator = .equal ∨ operator = .diff) ∧ value.isNull) then
    [⟨field, operator, value, type?⟩]
  else []

/-- Rows that are joined, and the conditions on them. -/
structure JoinedRows (E : Type) where
  source : Source E
  conditions : List JoinCondition

variable [Schema E]

/-- The conditions on joined rows, each with the type of its field. -/
def JoinedRows.valueConditions (rows : JoinedRows E) : List ValueCondition :=
  rows.conditions.flatMap fun c =>
    let type? := (rows.source.entity?.bind fun e => Schema.resolvePath? e c.field).bind
      Attribute.type?
    Comparison.valueConditions c.field type? c.operator c.value

namespace Names

def introduce (names : Names E) (rows : JoinedRows E) : Names E :=
  names.register rows.source.name rows.source.entity?

def introduceAll (names : Names E) (rows : List (JoinedRows E)) : Names E :=
  rows.foldl introduce names

end Names

namespace Join

/-- The rows that a segment leads to, under a name. -/
def reached (source : Source E) (segment name : String) : Source E :=
  ⟨name, (source.entity?.bind fun e => Schema.attribute? e segment).bind Attribute.target?⟩

/-- The rows of every segment; the conditions are on those of the last one. -/
def rowsAlong (j : Join E) (source : Source E) : List String → List (JoinedRows E)
  | [] => []
  | [segment] =>
    [⟨reached source segment (j.alias?.getD (Text.lowercase segment)), j.conditions⟩]
  | segment :: rest =>
    let rows := reached source segment (source.name ++ "_" ++ segment)
    ⟨rows, []⟩ :: rowsAlong j rows rest

/-- The rows that the level of a join leads to, one after the other. -/
def rowsOfLevel (j : Join E) (source : Source E) : List (JoinedRows E) :=
  match j.fieldJoin?, j.fieldReference? with
  | some _, some _ => [⟨⟨j.acronym, j.entity?⟩, j.conditions⟩]
  | _, _ => rowsAlong j source (Text.split '.' j.table)

/-- Where the joins inside a level start from. -/
def landing (source : Source E) : List (JoinedRows E) → Source E
  | [] => source
  | rows :: rest => landing rows.source rest

mutual

/-- The rows of a join, each level before those inside it. -/
def rows (source : Source E) : Join E → List (JoinedRows E)
  | ⟨table, alias?, operator, fieldJoin?, fieldReference?, entity?, conditions, nested⟩ =>
    let level : Join E :=
      ⟨table, alias?, operator, fieldJoin?, fieldReference?, entity?, conditions, []⟩
    let here := level.rowsOfLevel source
    here ++ rowsAll (landing source here) nested

def rowsAll (source : Source E) : List (Join E) → List (JoinedRows E)
  | [] => []
  | j :: js => rows source j ++ rowsAll source js

end

end Join

namespace Outline

/-- What the rows of the root are called. -/
def name (o : Outline E) : String := o.acronym?.getD (Schema.acronym o.root)

/-- All rows that the joins of an outline lead to. -/
def rows (o : Outline E) : List (JoinedRows E) := Join.rowsAll ⟨o.name, some o.root⟩ o.joins

/-- The names that the conditions are written with. -/
def names (o : Outline E) : Names E := (Names.ofRoot o.root o.name).introduceAll o.rows

end Outline

/-- In a condition its value conditions stand for a sub query. -/
def Leaf.valueConditions (names : Names E) :
    Leaf (List ValueCondition) String → List ValueCondition
  | .value field operator v => Comparison.valueConditions field (names.type? field) operator v
  | .subQuery _ _ query | .exist query _ => query
  | .fields .. | .custom _ => []

/-- The conditions of one level that bind values. -/
def Outline.valueConditions (o : Outline E) (cs : List (Clause (List ValueCondition) String)) :
    List ValueCondition :=
  o.rows.flatMap JoinedRows.valueConditions ++
    (Clause.leavesAll cs).flatMap (Leaf.valueConditions o.names)

/-- The conditions of a draft that bind values, as they come in its text. -/
def Draft.valueConditions : Draft E String → List ValueCondition :=
  Draft.interpret Outline.valueConditions

/-! ## Writing binds them -/

variable {ps ps' : Parameters}

/-- A value is bound behind all others, and its number says so. -/
theorem Binding.bindValue_eq_ok {field : String} {v : Value} {p : Phrase}
    (h : bindValue field v ps = .ok (p, ps')) :
    p.parameters = [parameterName field (ps.length + 1)] ∧
      ps' = ps ++ [(parameterName field (ps.length + 1), v)] := by
  obtain ⟨rfl, rfl⟩ := Prod.mk.inj (Except.ok.inj h)
  exact ⟨rfl, rfl⟩

namespace Comparison

variable {written field : String} {type? : Option ScalarType} {operator : Operator} {v w : Value}
  {p q : Phrase}

/-- One value is bound, and it is the operand. -/
theorem bindAll_of_bindValue (hw : ValueCondition.operand ⟨field, operator, v, type?⟩ = .ok w)
    (h : Binding.bindValue field w ps = .ok (p, ps')) (hq : q.parameters = p.parameters) :
    ValueCondition.bindAll [⟨field, operator, v, type?⟩] ps = .ok (q.parameters, ps') := by
  obtain ⟨hp, rfl⟩ := Binding.bindValue_eq_ok h
  rw [hq, hp, ValueCondition.bindAll, List.mapM_cons, Binding.bind_eq_ok]
  refine ⟨_, _, ?_, rfl⟩
  rw [ValueCondition.bind, Binding.bind_eq_ok]
  exact ⟨w, ps, Binding.lift_eq_ok.2 ⟨hw, rfl⟩, rfl⟩

/-- A comparison binds its operand. -/
theorem bound_binds (hw : ValueCondition.operand ⟨field, operator, v, type?⟩ = .ok w)
    {spelled : Operator} (h : bound written field spelled w ps = .ok (p, ps')) :
    ValueCondition.bindAll [⟨field, operator, v, type?⟩] ps = .ok (p.parameters, ps') := by
  rw [bound, Binding.bind_eq_ok] at h
  obtain ⟨q, ps₁, hq, h⟩ := h
  obtain ⟨rfl, rfl⟩ := Binding.pure_eq_ok.1 h
  exact bindAll_of_bindValue hw hq rfl

theorem membership_binds (hw : ValueCondition.operand ⟨field, operator, v, type?⟩ = .ok v)
    (h : membership written field operator v ps = .ok (p, ps')) :
    ValueCondition.bindAll [⟨field, operator, v, type?⟩] ps = .ok (p.parameters, ps') := by
  rw [membership] at h
  cases hl : v.toList? with
  | none =>
    rw [hl] at h
    exact absurd h Binding.throw_ne_ok
  | some items =>
    simp only [hl, Binding.bind_eq_ok] at h
    obtain ⟨q, ps₁, hq, h⟩ := h
    obtain ⟨rfl, rfl⟩ := Binding.pure_eq_ok.1 h
    exact bindAll_of_bindValue hw hq (Phrase.parameters_parenthesized q)

theorem findInSet_binds (hw : ValueCondition.operand ⟨field, operator, v, type?⟩ = .ok v)
    {comparison : String} (h : findInSet written field comparison v ps = .ok (p, ps')) :
    ValueCondition.bindAll [⟨field, operator, v, type?⟩] ps = .ok (p.parameters, ps') := by
  rw [findInSet, Binding.bind_eq_ok] at h
  obtain ⟨q, ps₁, hq, h⟩ := h
  obtain ⟨rfl, rfl⟩ := Binding.pure_eq_ok.1 h
  refine bindAll_of_bindValue hw hq ?_
  rw [List.cons_append, Phrase.parameters, Phrase.parameters_append]
  exact List.append_nil _

/-- The operand of an ordering is cast to the type of the field. -/
theorem orderingOperand_eq_ok (ho : operator.isOrdering)
    (h : orderingOperand written operator type? v = .ok w) :
    ValueCondition.operand ⟨field, operator, v, type?⟩ = .ok w := by
  rw [ValueCondition.operand, ho]
  unfold orderingOperand at h
  split at h
  · exact absurd h nofun
  · cases type? with
    | none => exact h
    | some type => exact h

/-- A comparison binds its value, unless it is a test for null. -/
theorem phrase_binds (h : phrase written field type? operator v ps = .ok (p, ps')) :
    ValueCondition.bindAll (valueConditions field type? operator v) ps =
      .ok (p.parameters, ps') := by
  cases operator with
  | isNull | isNotNull =>
    obtain ⟨rfl, rfl⟩ := Binding.pure_eq_ok.1 h
    rfl
  | equal | diff =>
    rw [phrase] at h
    split at h
    · rename_i hnull
      obtain ⟨rfl, rfl⟩ := Binding.pure_eq_ok.1 h
      rw [valueConditions, if_neg fun hv => hv.2 ⟨by decide, hnull⟩]
      rfl
    · rename_i hnull
      rw [valueConditions, if_pos ⟨rfl, fun hv => hnull hv.2⟩]
      exact bound_binds rfl h
  | like | notLike => exact bound_binds rfl h
  | isIn | notIn => exact membership_binds rfl h
  | findInSet | notFindInSet => exact findInSet_binds rfl h
  | less | lessOrEqual | greater | greaterOrEqual =>
    rw [phrase, Binding.bind_eq_ok] at h
    obtain ⟨w, ps₁, hlift, h⟩ := h
    obtain ⟨hw, rfl⟩ := Binding.lift_eq_ok.1 hlift
    exact bound_binds (orderingOperand_eq_ok rfl hw) h

end Comparison

/-- Phrases bind what each of them binds. -/
theorem ValueCondition.bindAll_flatMap {α : Type} {write : α → Binding Phrase}
    {conditions : α → List ValueCondition} {xs : List α} {phrases : List Phrase}
    (hw : ∀ x ∈ xs, ∀ ps p ps', write x ps = .ok (p, ps') →
      bindAll (conditions x) ps = .ok (p.parameters, ps'))
    (h : xs.mapM write ps = .ok (phrases, ps')) :
    bindAll (xs.flatMap conditions) ps = .ok (phrases.flatMap Phrase.parameters, ps') := by
  induction xs generalizing ps phrases with
  | nil =>
    obtain ⟨rfl, rfl⟩ := Binding.pure_eq_ok.1 h
    rfl
  | cons x xs ih =>
    rw [List.mapM_cons, Binding.bind_eq_ok] at h
    obtain ⟨p, ps₁, hp, h⟩ := h
    rw [Binding.bind_eq_ok] at h
    obtain ⟨more, ps₂, hm, h⟩ := h
    obtain ⟨rfl, rfl⟩ := Binding.pure_eq_ok.1 h
    have here := hw x List.mem_cons_self ps p ps₁ hp
    exact bindAll_append here (ih (fun y hy => hw y (List.mem_cons_of_mem x hy)) hm)

/-! ### Joins -/

theorem JoinCondition.phrase_binds {c : JoinCondition} {rows : Source E} {p : Phrase}
    (h : c.phrase rows ps = .ok (p, ps')) :
    ValueCondition.bindAll (JoinedRows.valueConditions ⟨rows, [c]⟩) ps =
      .ok (p.parameters, ps') := by
  rw [JoinedRows.valueConditions, List.flatMap_singleton]
  obtain ⟨field, operator, value, attach⟩ := c
  cases operator with
  | findInSet | notFindInSet => exact absurd h Binding.throw_ne_ok
  | _ =>
    dsimp only [phrase] at h
    split at h
    · exact absurd h Binding.throw_ne_ok
    · exact Comparison.phrase_binds h

/-- The conditions of a join bind their operands in the order of the text. -/
theorem JoinCondition.tokens_binds {cs : List JoinCondition} {rows : Source E} {ts : List Token}
    (h : tokens rows cs ps = .ok (ts, ps')) :
    ∃ leaves, Token.Spells ts leaves ∧
      ValueCondition.bindAll (JoinedRows.valueConditions ⟨rows, cs⟩) ps =
        .ok (leaves.flatMap Phrase.parameters, ps') := by
  obtain ⟨leaves, hl, hs⟩ := tokens_spells h
  refine ⟨leaves, hs, ValueCondition.bindAll_flatMap (fun c _ ps p ps' hp => ?_) hl⟩
  have hc := phrase_binds hp
  rw [JoinedRows.valueConditions, List.flatMap_singleton] at hc
  exact hc

/-- The parameters of the conditions of a line. -/
def JoinLine.parameters (line : JoinLine) : List String := (Token.phrases line.on).parameters

theorem JoinLine.parameters_phrase (line : JoinLine) :
    line.phrase.parameters = line.parameters := by
  rw [phrase, Phrase.parameters, parameters]
  split
  · rename_i hempty
    rw [List.isEmpty_iff.1 hempty]
    rfl
  · rfl

namespace Join

/-- Lines introduce the names of their rows and bind the conditions on them. -/
structure Writes (rows : List (JoinedRows E)) (names : Names E) (ps : Parameters)
    (lines : List JoinLine) (names' : Names E) (ps' : Parameters) : Prop where
  names_eq : names' = names.introduceAll rows
  binds : ValueCondition.bindAll (rows.flatMap JoinedRows.valueConditions) ps =
    .ok (lines.flatMap JoinLine.parameters, ps')

variable {j : Join E} {rootName : String} {source : Source E} {names names₁ names' : Names E}
  {joined : Joined E} {lines more : List JoinLine} {first rest : List (JoinedRows E)}
  {ps₁ : Parameters}

theorem Writes.nil : Writes [] names ps [] names ps := ⟨rfl, rfl⟩

theorem Writes.append (h : Writes first names ps lines names₁ ps₁)
    (h' : Writes rest names₁ ps₁ more names' ps') :
    Writes (first ++ rest) names ps (lines ++ more) names' ps' where
  names_eq := by
    rw [h'.names_eq, h.names_eq, Names.introduceAll, Names.introduceAll, Names.introduceAll,
      List.foldl_append]
  binds := by
    rw [List.flatMap_append, List.flatMap_append]
    exact ValueCondition.bindAll_append h.binds h'.binds

/-- One line with conditions, and whatever else comes first in them. -/
theorem Writes.line {rows : Source E} {cs : List JoinCondition} {ts : List Token}
    {line : JoinLine} (h : JoinCondition.tokens rows cs ps = .ok (ts, ps'))
    (hline : ∀ leaves, Token.Spells ts leaves →
      line.parameters = leaves.flatMap Phrase.parameters) :
    Writes [⟨rows, cs⟩] names ps [line] (names.register rows.name rows.entity?) ps' where
  names_eq := rfl
  binds := by
    obtain ⟨leaves, hs, hb⟩ := JoinCondition.tokens_binds h
    rw [List.flatMap_singleton, List.flatMap_singleton, hline leaves hs]
    exact hb

theorem writeEquality_writes {fieldJoin fieldReference : String}
    (h : j.writeEquality rootName fieldJoin fieldReference names ps = .ok (joined, ps')) :
    Writes [⟨⟨j.acronym, j.entity?⟩, j.conditions⟩] names ps joined.lines joined.names ps' ∧
      joined.source = ⟨j.acronym, j.entity?⟩ := by
  rw [writeEquality, Binding.bind_eq_ok] at h
  obtain ⟨ts, ps₁, ht, h⟩ := h
  obtain ⟨rfl, rfl⟩ := Binding.pure_eq_ok.1 h
  refine ⟨Writes.line ht fun leaves hs => ?_, rfl⟩
  exact (equalityTokens_spells _ _ hs).parameters

/-- Along a path each segment is one line, and the last one has the conditions. -/
theorem writeSegments_writes {source : Source E} {names : Names E} {segments : List String}
    {joined : Joined E} {ps ps' : Parameters}
    (h : j.writeSegments source names segments ps = .ok (joined, ps')) :
    Writes (j.rowsAlong source segments) names ps joined.lines joined.names ps' ∧
      joined.source = landing source (j.rowsAlong source segments) := by
  match segments with
  | [] =>
    obtain ⟨rfl, rfl⟩ := Binding.pure_eq_ok.1 h
    exact ⟨.nil, rfl⟩
  | [segment] =>
    rw [writeSegments, Binding.bind_eq_ok] at h
    obtain ⟨ts, ps₁, ht, h⟩ := h
    obtain ⟨rfl, rfl⟩ := Binding.pure_eq_ok.1 h
    exact ⟨Writes.line ht fun leaves hs => hs.parameters, rfl⟩
  | segment :: next :: rest =>
    simp only [writeSegments, Binding.bind_eq_ok] at h
    obtain ⟨tail, ps₁, ht, h⟩ := h
    obtain ⟨rfl, rfl⟩ := Binding.pure_eq_ok.1 h
    obtain ⟨hw, hs⟩ := writeSegments_writes ht
    have here : Writes [⟨reached source segment (source.name ++ "_" ++ segment), []⟩] names ps
        [⟨j.operator, .relationship source.name segment, source.name ++ "_" ++ segment, []⟩]
        _ ps := ⟨rfl, rfl⟩
    exact ⟨here.append hw, hs⟩

theorem writeLevel_writes (h : j.writeLevel rootName source names ps = .ok (joined, ps')) :
    Writes (j.rowsOfLevel source) names ps joined.lines joined.names ps' ∧
      joined.source = landing source (j.rowsOfLevel source) := by
  rw [writeLevel] at h
  split at h
  · rw [rowsOfLevel]
    cases hj : j.fieldJoin? with
    | none =>
      simp only [hj] at h
      exact writeSegments_writes h
    | some fieldJoin =>
      cases hr : j.fieldReference? with
      | none =>
        simp only [hj, hr] at h
        exact writeSegments_writes h
      | some fieldReference =>
        simp only [hj, hr] at h
        exact writeEquality_writes h
  · exact absurd h Binding.throw_ne_ok

mutual

/-- A join writes lines for its rows, in their order. -/
theorem write_writes {j : Join E} {source : Source E} {names names' : Names E}
    {lines : List JoinLine} {ps ps' : Parameters}
    (h : write rootName source names j ps = .ok ((lines, names'), ps')) :
    Writes (rows source j) names ps lines names' ps' := by
  match j with
  | ⟨table, alias?, operator, fieldJoin?, fieldReference?, entity?, conditions, nested⟩ =>
    rw [write, Binding.bind_eq_ok] at h
    obtain ⟨here, ps₁, hl, h⟩ := h
    rw [Binding.bind_eq_ok] at h
    obtain ⟨⟨below, names₁⟩, ps₂, hb, h⟩ := h
    obtain ⟨hpair, rfl⟩ := Binding.pure_eq_ok.1 h
    obtain ⟨rfl, rfl⟩ := Prod.mk.inj hpair
    obtain ⟨hw, hs⟩ := writeLevel_writes hl
    rw [hs] at hb
    exact hw.append (writeAll_writes hb)

/-- Joins bind the conditions on their rows, and the names of the rows are known afterwards. -/
theorem writeAll_writes {js : List (Join E)} {source : Source E} {names names' : Names E}
    {lines : List JoinLine} {ps ps' : Parameters}
    (h : writeAll rootName source names js ps = .ok ((lines, names'), ps')) :
    Writes (rowsAll source js) names ps lines names' ps' := by
  match js with
  | [] =>
    obtain ⟨hpair, rfl⟩ := Binding.pure_eq_ok.1 h
    obtain ⟨rfl, rfl⟩ := Prod.mk.inj hpair
    exact .nil
  | j :: js =>
    rw [writeAll, Binding.bind_eq_ok] at h
    obtain ⟨⟨here, names₁⟩, ps₁, hj, h⟩ := h
    rw [Binding.bind_eq_ok] at h
    obtain ⟨⟨more, names₂⟩, ps₂, hjs, h⟩ := h
    obtain ⟨hpair, rfl⟩ := Binding.pure_eq_ok.1 h
    obtain ⟨rfl, rfl⟩ := Prod.mk.inj hpair
    exact (write_writes hj).append (writeAll_writes hjs)

end

end Join

/-! ### Statements -/

/-- A leaf binds its operand, or those of its sub query. -/
theorem TextClause.leafPhrase_binds {name : String} {names : Names E}
    {l : Leaf (Draft E String) String} {p : Phrase}
    (hq : ∀ q ∈ l.query?, ∀ ps p ps', Draft.interpret Statement.subQuery q ps = .ok (p, ps') →
      ValueCondition.bindAll q.valueConditions ps = .ok (p.parameters, ps'))
    (h : leafPhrase name names (l.map (Draft.interpret Statement.subQuery)) ps = .ok (p, ps')) :
    ValueCondition.bindAll (Leaf.valueConditions names (l.map Draft.valueConditions)) ps =
      .ok (p.parameters, ps') := by
  cases l with
  | value field operator v => exact Comparison.phrase_binds h
  | subQuery field operator q =>
    dsimp only [Leaf.map, leafPhrase] at h
    split at h
    · rw [Binding.bind_eq_ok] at h
      obtain ⟨sub, ps₁, hs, h⟩ := h
      obtain ⟨rfl, rfl⟩ := Binding.pure_eq_ok.1 h
      rw [Comparison.withParameter, Phrase.parameters, Phrase.parameters_parenthesized]
      exact hq q rfl _ _ _ hs
    · exact absurd h Binding.throw_ne_ok
  | fields field operator second =>
    dsimp only [Leaf.map, leafPhrase] at h
    split at h
    · obtain ⟨rfl, rfl⟩ := Binding.pure_eq_ok.1 h
      rfl
    · exact absurd h Binding.throw_ne_ok
  | exist q positive =>
    dsimp only [Leaf.map, leafPhrase] at h
    rw [Binding.bind_eq_ok] at h
    obtain ⟨sub, ps₁, hs, h⟩ := h
    obtain ⟨rfl, rfl⟩ := Binding.pure_eq_ok.1 h
    rw [Phrase.parameters, Phrase.parameters_parenthesized]
    exact hq q rfl _ _ _ hs
  | custom text =>
    obtain ⟨rfl, rfl⟩ := Binding.pure_eq_ok.1 h
    rfl

namespace Statement

theorem flatMap_parameters_ofText (texts : List String) :
    (texts.map Phrase.ofText).flatMap Phrase.parameters = [] := by
  induction texts with
  | nil => rfl
  | cons s texts ih => exact ih

theorem flatMap_parameters_listed (keyword : String) (items : List String) :
    (listed keyword items).flatMap Phrase.parameters = [] := by
  rw [listed]
  split <;> rfl

/-- Only joins and conditions have parameters. -/
theorem parameters_phrase (s : Statement) :
    s.phrase.parameters =
      s.joins.flatMap JoinLine.parameters ++ (Token.phrases s.conditions).parameters := by
  have hconditions : (conditionClause s.conditions).flatMap Phrase.parameters =
      (Token.phrases s.conditions).parameters := by
    rw [conditionClause]
    split
    · rename_i hempty
      rw [List.isEmpty_iff.1 hempty]
      rfl
    · exact List.append_nil _
  have hjoins : (s.joins.map JoinLine.phrase).flatMap Phrase.parameters =
      s.joins.flatMap JoinLine.parameters := by
    rw [List.flatMap_map]
    exact List.flatMap_congr fun line _ => line.parameters_phrase
  rw [phrase, Phrase.parameters_joined, clauses]
  simp only [List.flatMap_append, hjoins, hconditions, flatMap_parameters_listed,
    flatMap_parameters_ofText, List.append_nil]
  rfl

/-- A statement binds the operands of its joins and then those of its conditions. -/
theorem ofLevel_binds {purpose : Purpose} {d : Draft E String} {s : Statement}
    (hq : ∀ l ∈ Clause.leavesAll d.conditions, ∀ q ∈ l.query?, ∀ ps p ps',
      Draft.interpret subQuery q ps = .ok (p, ps') →
      ValueCondition.bindAll q.valueConditions ps = .ok (p.parameters, ps'))
    (h : ofLevel purpose d.outline (Draft.interpretAll subQuery d.conditions) ps =
      .ok (s, ps')) :
    ValueCondition.bindAll d.valueConditions ps = .ok (s.phrase.parameters, ps') := by
  rw [ofLevel, Binding.bind_eq_ok] at h
  obtain ⟨select?, ps₁, hlift, h⟩ := h
  obtain ⟨-, rfl⟩ := Binding.lift_eq_ok.1 hlift
  rw [Binding.bind_eq_ok] at h
  obtain ⟨⟨joins, names⟩, ps₂, hj, h⟩ := h
  rw [Binding.bind_eq_ok] at h
  obtain ⟨ts, ps₃, hc, h⟩ := h
  obtain ⟨rfl, rfl⟩ := Binding.pure_eq_ok.1 h
  have hw := Join.writeAll_writes hj
  obtain ⟨leaves, hl, hs⟩ := TextClause.foldTokens_spells hc
  rw [parameters_phrase, hs.parameters]
  obtain ⟨outline, conditions⟩ := d
  refine ValueCondition.bindAll_append hw.binds ?_
  rw [Draft.leavesAll_interpretAll, List.mapM_map] at hl
  have hb := ValueCondition.bindAll_flatMap (fun l hm ps p ps' hp =>
    TextClause.leafPhrase_binds (hq l hm) hp) hl
  rw [Draft.leavesAll_interpretAll, List.flatMap_map]
  rw [hw.names_eq] at hb
  exact hb

/-- A sub query binds its value conditions, in the order of its text. -/
theorem subQuery_binds (d : Draft E String) : ∀ ps p ps',
    Draft.interpret subQuery d ps = .ok (p, ps') →
    ValueCondition.bindAll d.valueConditions ps = .ok (p.parameters, ps') := by
  induction d using Draft.induction with
  | level d ih =>
    intro ps p ps' h
    obtain ⟨outline, conditions⟩ := d
    rw [Draft.interpret, subQuery, Binding.bind_eq_ok] at h
    obtain ⟨s, ps₁, hs, h⟩ := h
    obtain ⟨rfl, rfl⟩ := Binding.pure_eq_ok.1 h
    exact ofLevel_binds ih hs

end Statement

/-- A query binds the value conditions of its draft, in the order of its text. -/
theorem TextQuery.ofDraft_binds {purpose : Purpose} {d : Draft E String} {q : TextQuery}
    (h : ofDraft purpose d = .ok q) :
    ValueCondition.bindAll d.valueConditions [] =
      .ok (q.statement.phrase.parameters, q.parameters) := by
  rw [ofDraft, Result.bind_eq_ok] at h
  obtain ⟨⟨s, ps⟩, hs, h⟩ := h
  have hb := Statement.ofLevel_binds (fun l _ q _ => Statement.subQuery_binds q) hs
  dsimp only at h
  split at h
  · obtain rfl := Result.pure_eq_ok.1 h
    exact hb
  · obtain rfl := Result.pure_eq_ok.1 h
    exact hb

end EntityQuery
