import EntityQuery.Proofs.TextQuery.Atoms
import EntityQuery.Proofs.TextQuery.Colonless
import EntityQuery.TextQuery

/-! # Spelling

If the fields of the conditions of a draft are made of names and nothing else in it has a colon,
then the phrase of its query is delimited: only its parameters look like parameters. -/

namespace EntityQuery

variable {E : Type} {a : Alphabet}

/-! ## Well-spelled drafts -/

variable (a) in
/-- The texts of a join and of the joins inside it have no colons, and the fields of its conditions
are made of names. -/
inductive Join.WellSpelled : Join E → Prop
  | intro {j : Join E} (table : Colonless j.table) (acronym : ∀ s ∈ j.alias?, Colonless s)
      (fieldJoin : ∀ s ∈ j.fieldJoin?, Colonless s)
      (fieldReference : ∀ s ∈ j.fieldReference?, Colonless s)
      (conditions : ∀ c ∈ j.conditions, a.IsField c.field)
      (nested : ∀ k ∈ j.nested, WellSpelled k) : WellSpelled j

variable (a) in
/-- Nothing that is written into a statement as it is has a colon. -/
structure Outline.WellSpelled [Schema E] (o : Outline E) : Prop where
  entity : Colonless (Schema.name o.root)
  acronym : ∀ s ∈ o.acronym?, Colonless s
  joins : ∀ j ∈ o.joins, j.WellSpelled a
  fetches : ∀ f ∈ o.fetches, Colonless f.relationship ∧ ∀ s ∈ f.alias?, Colonless s
  selects : ∀ s ∈ o.selects, Colonless s.field ∧ ∀ t ∈ s.alias?, Colonless t
  groups : ∀ g ∈ o.groups, Colonless g
  orders : ∀ r ∈ o.orders, Colonless r.field

variable (a) in
/-- A sub query stands for its own spelling. -/
def Leaf.WellSpelled : Leaf Prop String → Prop
  | .value field _ _ => a.IsField field
  | .subQuery field _ query => a.IsField field ∧ query
  | .fields field _ second => a.IsField field ∧ a.IsField second
  | .exist query _ => query
  | .custom text => Colonless text

variable (a) in
/-- No text has a colon, and the fields of conditions are made of names, at every level. -/
def Draft.WellSpelled [Schema E] : Draft E String → Prop :=
  Draft.interpret fun outline conditions =>
    outline.WellSpelled a ∧ ∀ l ∈ Clause.leavesAll conditions, l.WellSpelled a

variable [Schema E]

/-- A draft is well spelled if its outline, its leaves and its sub queries are. -/
theorem Draft.wellSpelled_iff {d : Draft E String} :
    d.WellSpelled a ↔ d.outline.WellSpelled a ∧
      ∀ l ∈ Clause.leavesAll d.conditions, (l.map (Draft.WellSpelled a)).WellSpelled a := by
  obtain ⟨outline, conditions⟩ := d
  rw [WellSpelled, interpret, leavesAll_interpretAll]
  exact and_congr_right fun _ => List.forall_mem_map

/-! ## Comparisons -/

variable {ps ps' : Parameters} {p : Phrase}

namespace Comparison

variable {written field : String} {type? : Option ScalarType} {operator : Operator} {v : Value}

theorem colonless_unary (hw : Colonless written) :
    Colonless (written ++ " " ++ operator.spelling) :=
  (hw.append (by decide)).append (Colonless.operator operator)

theorem delimited_withParameter (hw : Colonless written) (hp : Phrase.Delimited a p) :
    Phrase.Delimited a (withParameter written operator p) :=
  ⟨(colonless_unary hw).append (by decide), hp⟩

/-- A bound value is one parameter, which is delimited. -/
theorem delimited_bindValue (hf : a.IsField field)
    (h : Binding.bindValue field v ps = .ok (p, ps')) : Phrase.Delimited a p := by
  obtain ⟨rfl, -⟩ := Prod.mk.inj (Except.ok.inj h)
  exact ⟨Binding.isName_parameterName hf _, Alphabet.stops_empty, trivial⟩

/-- A comparison delimits its parameter. -/
theorem delimited_bound (hw : Colonless written) (hf : a.IsField field)
    (h : bound written field operator v ps = .ok (p, ps')) : Phrase.Delimited a p := by
  rw [bound, Binding.bind_eq_ok] at h
  obtain ⟨q, ps₁, hq, h⟩ := h
  obtain ⟨rfl, -⟩ := Binding.pure_eq_ok.1 h
  exact delimited_withParameter hw (delimited_bindValue hf hq)

theorem delimited_membership (hw : Colonless written) (hf : a.IsField field)
    (h : membership written field operator v ps = .ok (p, ps')) : Phrase.Delimited a p := by
  rw [membership] at h
  cases hl : v.toList? with
  | none =>
    rw [hl] at h
    exact absurd h Binding.throw_ne_ok
  | some items =>
    simp only [hl, Binding.bind_eq_ok] at h
    obtain ⟨q, ps₁, hq, h⟩ := h
    obtain ⟨rfl, -⟩ := Binding.pure_eq_ok.1 h
    exact delimited_withParameter hw (delimited_bindValue hf hq).parenthesized

theorem delimited_findInSet {comparison : String} (hw : Colonless written)
    (hf : a.IsField field) (hc : Colonless comparison)
    (h : findInSet written field comparison v ps = .ok (p, ps')) : Phrase.Delimited a p := by
  rw [findInSet, Binding.bind_eq_ok] at h
  obtain ⟨q, ps₁, hq, h⟩ := h
  obtain ⟨rfl, -⟩ := Binding.pure_eq_ok.1 h
  have hrest : Colonless ("," ++ written ++ ") " ++ comparison) :=
    (((by decide : Colonless ",").append hw).append (by decide)).append hc
  refine ⟨by decide, (delimited_bindValue hf hq).append (.ofText hrest) ?_⟩
  rw [Phrase.text, Fragment.text, String.append_assoc, String.append_assoc, String.append_assoc]
  exact Alphabet.stops_of_head? (c := ',') rfl (by decide) _

theorem delimited_phrase (hw : Colonless written) (hf : a.IsField field)
    (h : phrase written field type? operator v ps = .ok (p, ps')) : Phrase.Delimited a p := by
  cases operator with
  | isNull | isNotNull =>
    obtain ⟨rfl, -⟩ := Binding.pure_eq_ok.1 h
    exact .ofText (colonless_unary hw)
  | equal | diff =>
    rw [phrase] at h
    split at h
    · obtain ⟨rfl, -⟩ := Binding.pure_eq_ok.1 h
      exact .ofText (colonless_unary hw)
    · exact delimited_bound hw hf h
  | like | notLike => exact delimited_bound hw hf h
  | isIn | notIn => exact delimited_membership hw hf h
  | findInSet | notFindInSet => exact delimited_findInSet hw hf (by decide) h
  | less | lessOrEqual | greater | greaterOrEqual =>
    rw [phrase, Binding.bind_eq_ok] at h
    obtain ⟨w, ps₁, -, h⟩ := h
    exact delimited_bound hw hf h

end Comparison

/-- Phrases that are written one after the other are delimited if each of them is. -/
theorem Phrase.delimited_of_mapM {α : Type} {write : α → Binding Phrase} {xs : List α}
    {phrases : List Phrase}
    (hw : ∀ x ∈ xs, ∀ ps p ps', write x ps = .ok (p, ps') → Delimited a p)
    (h : xs.mapM write ps = .ok (phrases, ps')) : ∀ p ∈ phrases, Delimited a p := by
  induction xs generalizing ps ps' phrases with
  | nil =>
    obtain ⟨rfl, -⟩ := Binding.pure_eq_ok.1 h
    exact nofun
  | cons x xs ih =>
    rw [List.mapM_cons, Binding.bind_eq_ok] at h
    obtain ⟨p, ps₁, hp, h⟩ := h
    rw [Binding.bind_eq_ok] at h
    obtain ⟨more, ps₂, hm, h⟩ := h
    obtain ⟨rfl, -⟩ := Binding.pure_eq_ok.1 h
    intro q hq
    rcases List.mem_cons.1 hq with rfl | hq
    · exact hw x List.mem_cons_self ps _ ps₁ hp
    · exact ih (fun y hy => hw y (List.mem_cons_of_mem x hy)) hm q hq

/-! ## Joins -/

namespace JoinCondition

variable {rows : Source E}

theorem delimited_phrase {c : JoinCondition} (hn : Colonless rows.name) (hf : a.IsField c.field)
    (h : c.phrase rows ps = .ok (p, ps')) : Phrase.Delimited a p := by
  obtain ⟨field, operator, value, attach⟩ := c
  cases operator with
  | findInSet | notFindInSet => exact absurd h Binding.throw_ne_ok
  | _ =>
    dsimp only [phrase] at h
    split at h
    · exact absurd h Binding.throw_ne_ok
    · exact Comparison.delimited_phrase (hn.qualified hf.colonless) hf h

theorem delimited_tokens {cs : List JoinCondition} {ts : List Token} (hn : Colonless rows.name)
    (hf : ∀ c ∈ cs, a.IsField c.field) (h : tokens rows cs ps = .ok (ts, ps')) :
    ∃ leaves, Token.Spells ts leaves ∧ ∀ p ∈ leaves, Phrase.Delimited a p := by
  obtain ⟨leaves, hl, hs⟩ := tokens_spells h
  exact ⟨leaves, hs, Phrase.delimited_of_mapM
    (fun c hc _ _ _ hp => delimited_phrase hn (hf c hc) hp) hl⟩

end JoinCondition

theorem JoinLine.delimited_phrase {line : JoinLine} (ht : Colonless line.target.text)
    (hn : Colonless line.name) (ho : Phrase.Delimited a (Token.phrases line.on)) :
    Phrase.Delimited a line.phrase := by
  have htext : Colonless
      (line.operator.spelling ++ " join " ++ line.target.text ++ " " ++ line.name) :=
    ((((Colonless.joinOperator line.operator).append (by decide)).append ht).append
      (by decide)).append hn
  refine ⟨htext, ?_⟩
  split
  · exact trivial
  · exact ⟨by decide, ho⟩

/-- Every line is delimited, and the name that the next level starts from has no colon. -/
structure Joined.WellSpelled (a : Alphabet) (joined : Joined E) : Prop where
  lines : ∀ line ∈ joined.lines, Phrase.Delimited a line.phrase
  source : Colonless joined.source.name

namespace Join

variable {rootName : String} {names : Names E} {joined : Joined E}

theorem writeEquality_wellSpelled {j : Join E} (hj : j.WellSpelled a)
    {fieldJoin fieldReference : String} (hroot : Colonless rootName)
    (hf : Colonless fieldJoin) (hr : Colonless fieldReference)
    (h : j.writeEquality rootName fieldJoin fieldReference names ps = .ok (joined, ps')) :
    Joined.WellSpelled a joined := by
  cases hj with
  | intro table halias _ _ conditions _ =>
    have hname : Colonless j.acronym := by
      rw [acronym]
      cases ha : j.alias? with
      | none => exact table.lowercase
      | some s => exact halias s ha
    rw [writeEquality, Binding.bind_eq_ok] at h
    obtain ⟨ts, ps₁, ht, h⟩ := h
    obtain ⟨rfl, -⟩ := Binding.pure_eq_ok.1 h
    obtain ⟨leaves, hs, hl⟩ := JoinCondition.delimited_tokens hname conditions ht
    have hequality : Colonless
        (j.acronym ++ "." ++ fieldJoin ++ " = " ++ qualified rootName fieldReference) :=
      (((hname.append (by decide)).append hf).append (by decide)).append (hroot.qualified hr)
    have hon := (equalityTokens_spells (Phrase.ofText _) j.conditions.length hs).delimited
      (List.forall_mem_cons.2 ⟨Phrase.Delimited.ofText hequality, hl⟩)
    exact ⟨List.forall_mem_singleton.2 (JoinLine.delimited_phrase table hname hon), hname⟩

theorem writeSegments_wellSpelled {j : Join E} (hj : j.WellSpelled a) {source : Source E}
    {names : Names E} {segments : List String} {joined : Joined E} {ps ps' : Parameters}
    (hsource : Colonless source.name) (hsegments : ∀ s ∈ segments, Colonless s)
    (h : j.writeSegments source names segments ps = .ok (joined, ps')) :
    Joined.WellSpelled a joined := by
  match segments with
  | [] =>
    obtain ⟨rfl, -⟩ := Binding.pure_eq_ok.1 h
    exact ⟨nofun, hsource⟩
  | [segment] =>
    have hsegment := hsegments segment List.mem_cons_self
    have htarget := (hsource.append (by decide : Colonless ".")).append hsegment
    cases hj with
    | intro table halias _ _ conditions _ =>
      have hname : Colonless (j.alias?.getD (Text.lowercase segment)) := by
        cases ha : j.alias? with
        | none => exact hsegment.lowercase
        | some s => exact halias s ha
      rw [writeSegments, Binding.bind_eq_ok] at h
      obtain ⟨ts, ps₁, ht, h⟩ := h
      obtain ⟨rfl, -⟩ := Binding.pure_eq_ok.1 h
      obtain ⟨leaves, hs, hl⟩ := JoinCondition.delimited_tokens hname conditions ht
      exact ⟨List.forall_mem_singleton.2 (JoinLine.delimited_phrase htarget hname
        (hs.delimited hl)), hname⟩
  | segment :: next :: rest =>
    have hsegment := hsegments segment List.mem_cons_self
    have htarget := (hsource.append (by decide : Colonless ".")).append hsegment
    have hname := (hsource.append (by decide : Colonless "_")).append hsegment
    simp only [writeSegments, Binding.bind_eq_ok] at h
    obtain ⟨tail, ps₁, ht, h⟩ := h
    obtain ⟨rfl, -⟩ := Binding.pure_eq_ok.1 h
    have hrest := writeSegments_wellSpelled hj hname
      (fun s hs => hsegments s (List.mem_cons_of_mem segment hs)) ht
    exact ⟨List.forall_mem_cons.2 ⟨JoinLine.delimited_phrase htarget hname trivial,
      hrest.lines⟩, hrest.source⟩

theorem writeLevel_wellSpelled {j : Join E} (hj : j.WellSpelled a) {source : Source E}
    (hroot : Colonless rootName) (hsource : Colonless source.name)
    (h : j.writeLevel rootName source names ps = .ok (joined, ps')) :
    Joined.WellSpelled a joined := by
  have hsegments : ∀ s ∈ Text.split '.' j.table, Colonless s := by
    cases hj with
    | intro table => exact fun s hs => table.of_mem_split hs
  rw [writeLevel] at h
  split at h
  · cases hf : j.fieldJoin? with
    | none =>
      simp only [hf] at h
      exact writeSegments_wellSpelled hj hsource hsegments h
    | some fieldJoin =>
      cases hr : j.fieldReference? with
      | none =>
        simp only [hf, hr] at h
        exact writeSegments_wellSpelled hj hsource hsegments h
      | some fieldReference =>
        simp only [hf, hr] at h
        have hfields : Colonless fieldJoin ∧ Colonless fieldReference := by
          cases hj with
          | intro _ _ hj hr' => exact ⟨hj _ hf, hr' _ hr⟩
        exact writeEquality_wellSpelled hj hroot hfields.1 hfields.2 h
  · exact absurd h Binding.throw_ne_ok

mutual

theorem write_delimited {j : Join E} (hj : j.WellSpelled a) {source : Source E}
    {names names' : Names E} {lines : List JoinLine} {ps ps' : Parameters}
    (hroot : Colonless rootName) (hsource : Colonless source.name)
    (h : write rootName source names j ps = .ok ((lines, names'), ps')) :
    ∀ line ∈ lines, Phrase.Delimited a line.phrase := by
  match j with
  | ⟨table, alias?, operator, fieldJoin?, fieldReference?, entity?, conditions, nested⟩ =>
    rw [write, Binding.bind_eq_ok] at h
    obtain ⟨here, ps₁, hl, h⟩ := h
    rw [Binding.bind_eq_ok] at h
    obtain ⟨⟨below, names₁⟩, ps₂, hb, h⟩ := h
    obtain ⟨hpair, -⟩ := Binding.pure_eq_ok.1 h
    obtain ⟨rfl, -⟩ := Prod.mk.inj hpair
    cases hj with
    | intro htable halias hfield hreference hconditions hnested =>
      have hj : WellSpelled a (⟨table, alias?, operator, fieldJoin?, fieldReference?, entity?,
          conditions, []⟩ : Join E) :=
        .intro htable halias hfield hreference hconditions nofun
      have hlevel := writeLevel_wellSpelled hj hroot hsource hl
      exact List.forall_mem_append.2
        ⟨hlevel.lines, writeAll_delimited hnested hroot hlevel.source hb⟩

theorem writeAll_delimited {js : List (Join E)} (hjs : ∀ j ∈ js, j.WellSpelled a)
    {source : Source E} {names names' : Names E} {lines : List JoinLine} {ps ps' : Parameters}
    (hroot : Colonless rootName) (hsource : Colonless source.name)
    (h : writeAll rootName source names js ps = .ok ((lines, names'), ps')) :
    ∀ line ∈ lines, Phrase.Delimited a line.phrase := by
  match js with
  | [] =>
    obtain ⟨hpair, -⟩ := Binding.pure_eq_ok.1 h
    obtain ⟨rfl, -⟩ := Prod.mk.inj hpair
    exact nofun
  | j :: js =>
    rw [writeAll, Binding.bind_eq_ok] at h
    obtain ⟨⟨here, names₁⟩, ps₁, hj, h⟩ := h
    rw [Binding.bind_eq_ok] at h
    obtain ⟨⟨more, names₂⟩, ps₂, hm, h⟩ := h
    obtain ⟨hpair, -⟩ := Binding.pure_eq_ok.1 h
    obtain ⟨rfl, -⟩ := Prod.mk.inj hpair
    obtain ⟨hfirst, hrest⟩ := List.forall_mem_cons.1 hjs
    exact List.forall_mem_append.2 ⟨write_delimited hfirst hroot hsource hj,
      writeAll_delimited hrest hroot hsource hm⟩

end

end Join

/-! ## Statements -/

/-- A leaf delimits its parameters if its sub query does. -/
theorem TextClause.delimited_leafPhrase {name : String} {names : Names E}
    {l : Leaf (Draft E String) String} (hn : Colonless name)
    (hl : (l.map (Draft.WellSpelled a)).WellSpelled a)
    (hq : ∀ q ∈ l.query?, q.WellSpelled a → ∀ ps p ps',
      Draft.interpret Statement.subQuery q ps = .ok (p, ps') → Phrase.Delimited a p)
    (h : leafPhrase name names (l.map (Draft.interpret Statement.subQuery)) ps = .ok (p, ps')) :
    Phrase.Delimited a p := by
  cases l with
  | value field operator v =>
    exact Comparison.delimited_phrase (hn.qualified hl.colonless) hl h
  | subQuery field operator q =>
    obtain ⟨hf, hspelled⟩ := hl
    dsimp only [Leaf.map, leafPhrase] at h
    split at h
    · rw [Binding.bind_eq_ok] at h
      obtain ⟨sub, ps₁, hs, h⟩ := h
      obtain ⟨rfl, -⟩ := Binding.pure_eq_ok.1 h
      exact Comparison.delimited_withParameter (hn.qualified hf.colonless)
        (hq q rfl hspelled _ _ _ hs).parenthesized
    · exact absurd h Binding.throw_ne_ok
  | fields field operator second =>
    obtain ⟨hf, hs⟩ := hl
    dsimp only [Leaf.map, leafPhrase] at h
    split at h
    · obtain ⟨rfl, -⟩ := Binding.pure_eq_ok.1 h
      exact .ofText ((((hn.qualified hf.colonless).append (by decide)).append
        (Colonless.operator operator)).append (by decide) |>.append (hn.qualified hs.colonless))
    · exact absurd h Binding.throw_ne_ok
  | exist q positive =>
    dsimp only [Leaf.map, leafPhrase] at h
    rw [Binding.bind_eq_ok] at h
    obtain ⟨sub, ps₁, hs, h⟩ := h
    obtain ⟨rfl, -⟩ := Binding.pure_eq_ok.1 h
    refine ⟨?_, (hq q rfl hl _ _ _ hs).parenthesized⟩
    cases positive <;> decide
  | custom text =>
    obtain ⟨rfl, -⟩ := Binding.pure_eq_ok.1 h
    exact .ofText hl

namespace Statement

variable {name : String}

theorem colonless_column {s : Select} (hn : Colonless name) (hs : Colonless s.field) :
    Colonless (column name s) := by
  have hstar : ∀ before, beforeStar? s.field = some before → Colonless before := by
    intro before h hc
    unfold beforeStar? at h
    split at h
    · rename_i rest hrest
      obtain rfl := Option.some.inj h
      rw [String.toList_ofList, List.mem_reverse] at hc
      refine hs (List.mem_reverse.1 ?_)
      rw [hrest]
      exact List.mem_cons_of_mem _ (List.mem_cons_of_mem _ hc)
    · exact absurd h nofun
  have hfield : Colonless ((beforeStar? s.field).getD (qualified name s.field)) := by
    cases h : beforeStar? s.field with
    | none => exact hn.qualified hs
    | some before => exact hstar before h
  rw [column]
  split
  · exact hfield.aggregate _
  · exact hfield

theorem colonless_aliasedColumn {s : Select} (hn : Colonless name) (hs : Colonless s.field)
    (ha : ∀ t ∈ s.alias?, Colonless t) : Colonless (aliasedColumn name s) := by
  have hcolumn := colonless_column hn hs
  have halias : Colonless s.resultAlias := by
    rw [Select.resultAlias]
    split
    · rename_i t ht
      exact (ha t ht).replace (by decide)
    · split
      · split
        · rename_i f _
          cases f <;> decide
        · decide
      · exact hs.replace (by decide)
  rw [aliasedColumn]
  split
  · exact hcolumn
  · exact (hcolumn.append (by decide)).append halias

theorem colonless_fetchText {f : JoinFetch} (hn : Colonless name)
    (hr : Colonless f.relationship) (ha : ∀ s ∈ f.alias?, Colonless s) :
    Colonless (fetchText name f) := by
  have hrelationship : Colonless
      (if f.nested then f.relationship else name ++ "." ++ f.relationship) := by
    split
    · exact hr
    · exact (hn.append (by decide)).append hr
  rw [fetchText]
  refine (((Colonless.joinOperator f.operator).append (by decide)).append hrelationship).append ?_
  split
  · rename_i s hs
    exact (by decide : Colonless " as ").append (ha s hs)
  · decide

theorem colonless_selectText {purpose : Purpose} {selects : List Select} (hn : Colonless name)
    (hs : ∀ s ∈ selects, Colonless s.field ∧ ∀ t ∈ s.alias?, Colonless t) {select? : Option String}
    (h : selectText purpose name selects = .ok select?) : ∀ s ∈ select?, Colonless s := by
  have hselect : Colonless "select " := by decide
  match purpose, selects, h with
  | .rows, [], h =>
    obtain rfl := Except.ok.inj h
    exact nofun
  | .rows, s :: ss, h =>
    obtain rfl := Except.ok.inj h
    rintro _ ⟨⟩
    refine hselect.append (Colonless.intercalate (by decide) ?_)
    exact List.forall_mem_map.2 fun t ht => colonless_aliasedColumn hn (hs t ht).1 (hs t ht).2
  | .count, _, h =>
    obtain rfl := Except.ok.inj h
    rintro _ ⟨⟩
    exact hselect.append (hn.aggregate .count)
  | .column, [], h =>
    obtain rfl := Except.ok.inj h
    rintro _ ⟨⟩
    exact hselect.append hn
  | .column, [s], h =>
    obtain rfl := Except.ok.inj h
    rintro _ ⟨⟩
    exact hselect.append (colonless_column hn (hs s List.mem_cons_self).1)
  | .column, _ :: _ :: _, h => exact absurd h nofun

theorem delimited_listed {keyword : String} {items : List String} (hk : Colonless keyword)
    (hi : ∀ s ∈ items, Colonless s) : ∀ p ∈ listed keyword items, Phrase.Delimited a p := by
  rw [listed]
  split
  · exact nofun
  · exact List.forall_mem_singleton.2 (Phrase.Delimited.ofText
      ((hk.append (by decide)).append (Colonless.intercalate (by decide) hi)))

/-- The pieces of a statement, none of which has a colon of its own. -/
structure WellSpelled (a : Alphabet) (s : Statement) : Prop where
  select : ∀ t ∈ s.select?, Colonless t
  entity : Colonless s.entity
  name : Colonless s.name
  joins : ∀ line ∈ s.joins, Phrase.Delimited a line.phrase
  fetches : ∀ t ∈ s.fetches, Colonless t
  conditions : Phrase.Delimited a (Token.phrases s.conditions)
  groups : ∀ t ∈ s.groups, Colonless t
  orders : ∀ t ∈ s.orders, Colonless t

/-- A well-spelled statement delimits its parameters. -/
theorem WellSpelled.delimited {s : Statement} (h : s.WellSpelled a) :
    Phrase.Delimited a s.phrase := by
  have hfrom : Colonless ("from " ++ s.entity ++ " " ++ s.name) :=
    (((by decide : Colonless "from ").append h.entity).append (by decide)).append h.name
  have hconditions : ∀ p ∈ conditionClause s.conditions, Phrase.Delimited a p := by
    rw [conditionClause]
    split
    · exact List.forall_mem_nil _
    · exact List.forall_mem_singleton.2 ⟨by decide, h.conditions⟩
  refine Phrase.Delimited.joined ?_
  simp only [clauses, List.forall_mem_append, List.forall_mem_map, List.forall_mem_singleton]
  refine ⟨⟨⟨⟨⟨⟨?_, .ofText hfrom⟩, h.joins⟩, ?_⟩, hconditions⟩, ?_⟩, ?_⟩
  · exact fun t ht => .ofText (h.select t (Option.mem_toList.1 ht))
  · exact fun t ht => .ofText (h.fetches t ht)
  · exact delimited_listed (by decide) h.groups
  · exact delimited_listed (by decide) h.orders

/-- A well-spelled draft makes a well-spelled statement. -/
theorem ofLevel_wellSpelled {purpose : Purpose} {d : Draft E String} {s : Statement}
    (hd : d.WellSpelled a)
    (hq : ∀ l ∈ Clause.leavesAll d.conditions, ∀ q ∈ l.query?, q.WellSpelled a → ∀ ps p ps',
      Draft.interpret subQuery q ps = .ok (p, ps') → Phrase.Delimited a p)
    (h : ofLevel purpose d.outline (Draft.interpretAll subQuery d.conditions) ps =
      .ok (s, ps')) : s.WellSpelled a := by
  obtain ⟨ho, hleaves⟩ := Draft.wellSpelled_iff.1 hd
  have hname : Colonless (d.outline.acronym?.getD (Schema.acronym d.outline.root)) := by
    cases hc : d.outline.acronym? with
    | none => exact ho.entity.lowercase
    | some s => exact ho.acronym s hc
  rw [ofLevel, Binding.bind_eq_ok] at h
  obtain ⟨select?, ps₁, hlift, h⟩ := h
  obtain ⟨hselect, -⟩ := Binding.lift_eq_ok.1 hlift
  rw [Binding.bind_eq_ok] at h
  obtain ⟨⟨joins, names⟩, ps₂, hj, h⟩ := h
  rw [Binding.bind_eq_ok] at h
  obtain ⟨ts, ps₃, hc, h⟩ := h
  obtain ⟨rfl, -⟩ := Binding.pure_eq_ok.1 h
  obtain ⟨leaves, hl, hs⟩ := TextClause.foldTokens_spells hc
  rw [Draft.leavesAll_interpretAll, List.mapM_map] at hl
  have hdelimited := Phrase.delimited_of_mapM (fun l hm _ _ _ hp =>
    TextClause.delimited_leafPhrase hname (hleaves l hm) (hq l hm) hp) hl
  exact {
    select := colonless_selectText hname ho.selects hselect
    entity := ho.entity
    name := hname
    joins := Join.writeAll_delimited ho.joins hname hname hj
    fetches := by
      dsimp only
      split
      · exact List.forall_mem_map.2 fun f hf =>
          colonless_fetchText hname (ho.fetches f hf).1 (ho.fetches f hf).2
      · exact nofun
    conditions := hs.delimited hdelimited
    groups := List.forall_mem_map.2 fun g hg => hname.qualified (ho.groups g hg)
    orders := by
      dsimp only
      split
      · exact nofun
      · refine List.forall_mem_map.2 fun r hr => ?_
        have hsort : Colonless r.sort.spelling := by cases r.sort <;> decide
        exact ((hname.qualified (ho.orders r hr)).append (by decide)).append hsort }

/-- A sub query delimits its parameters wherever it stands. -/
theorem subQuery_delimited (d : Draft E String) : d.WellSpelled a → ∀ ps p ps',
    Draft.interpret subQuery d ps = .ok (p, ps') → Phrase.Delimited a p := by
  induction d using Draft.induction with
  | level d ih =>
    intro hd ps p ps' h
    obtain ⟨outline, conditions⟩ := d
    rw [Draft.interpret, subQuery, Binding.bind_eq_ok] at h
    obtain ⟨s, ps₁, hs, h⟩ := h
    obtain ⟨rfl, -⟩ := Binding.pure_eq_ok.1 h
    exact (ofLevel_wellSpelled hd ih hs).delimited

end Statement

/-- In the query of a well-spelled draft nothing but its parameters looks like a parameter. -/
theorem TextQuery.ofDraft_delimited {purpose : Purpose} {d : Draft E String} {q : TextQuery}
    (hd : d.WellSpelled a) (h : ofDraft purpose d = .ok q) :
    Phrase.Delimited a q.statement.phrase := by
  rw [ofDraft, Result.bind_eq_ok] at h
  obtain ⟨⟨s, ps⟩, hs, h⟩ := h
  have hw := Statement.ofLevel_wellSpelled hd (fun l _ q _ => Statement.subQuery_delimited q) hs
  dsimp only at h
  split at h
  · obtain rfl := Result.pure_eq_ok.1 h
    exact hw.delimited
  · obtain rfl := Result.pure_eq_ok.1 h
    exact hw.delimited

end EntityQuery
