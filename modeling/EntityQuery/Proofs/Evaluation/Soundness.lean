import EntityQuery.Proofs.Evaluation.Progress
import EntityQuery.Proofs.Evaluation.Tuples
import EntityQuery.Proofs.GraphQuery.Compilation

/-! # Type soundness

A query that is well formed inside some levels runs inside frames that fit these levels.  Its own
tuples then fit its level, and so the frames of the queries it runs fit theirs: this is what a run
preserves from one query to the next, and everything else follows from it for each of them. -/

namespace EntityQuery

variable {E : Type} [Schema E]

/-- What is right about the run of a query inside frames. -/
structure GraphQuery.TypeSound (data : Dataset) (q : GraphQuery E) (frames : Frames) : Prop where
  /-- There is a frame for every query around this one. -/
  frames_length : frames.length = q.plan.depth
  tuples : ∀ ts, q.plan.joined data frames = .ok ts → ∀ t ∈ ts, Tuple.Fits q.plan.level t
  paths : ∀ e t, q.Evaluates data frames e t → ∀ p, e.Mentions p → ∀ type, p.type? = some type →
    (p.value frames t).HasType type
  /-- An attribute that is ordered against a value is null if nothing is known of the order. -/
  orderings : ∀ p t, q.Tests data frames p t → ∀ path comparator v,
    (.path path, comparator, .literal v) ∈ p.comparisons → comparator.isOrdering →
    ∀ type, path.type? = some type → type.isFloating = false →
    Predicate.test frames t (.compare (.path path) comparator (.literal v)) = .ok .unknown →
    path.value frames t = .null
  /-- Of two attributes of one type, one is null if nothing is known of how they compare. -/
  fields : ∀ p t, q.Tests data frames p t → ∀ left comparator right,
    (.path left, comparator, .path right) ∈ p.comparisons →
    ∀ type, left.type? = some type → right.type? = some type → type.isFloating = false →
    Predicate.test frames t (.compare (.path left) comparator (.path right)) = .ok .unknown →
    left.value frames t = .null ∨ right.value frames t = .null
  progress : (q.meaning data frames).Progresses

namespace GraphQuery

variable {data : Dataset} {q q' : GraphQuery E} {outer : List (Level E)} {frames frames' : Frames}

/-- Joined tuples have a record of the right entity, or none, in each place. -/
theorem WellFormed.joined_fits (hdata : data.WellTyped E) (hq : q.WellFormed outer)
    {ts : List Tuple} (h : q.plan.joined data frames = .ok ts) :
    ∀ t ∈ ts, Tuple.Fits q.plan.level t :=
  Plan.joined_fits hdata (wellFormed_iff.1 hq).1 h

/-! ## From a query to those that it runs -/

/-- A query inside the condition is called where it is well formed, on tuples that fit the levels
around it. -/
theorem WellFormed.callee (hdata : data.WellTyped E) (hq : q.WellFormed outer)
    (hf : List.Forall₂ Tuple.Fits outer frames) (h : (q', frames') ∈ q.callees data frames) :
    q'.WellFormed (outer ++ [q.plan.level]) ∧
      List.Forall₂ Tuple.Fits (outer ++ [q.plan.level]) frames' := by
  obtain ⟨ts, hts, t, ht, p, hp, hsub, rfl⟩ := mem_callees.1 h
  have hwf := (wellFormed_iff.1 hq).2 p hp
  have hfits := hq.joined_fits hdata hts t ht
  exact ⟨hwf.query q' hsub, List.rel_append hf (.cons hfits .nil)⟩

/-- Every query in a run is well formed inside levels that its frames fit. -/
theorem Reaches.wellFormed (hdata : data.WellTyped E) (h : Reaches data q frames q' frames') :
    ∀ outer : List (Level E), q.WellFormed outer → List.Forall₂ Tuple.Fits outer frames →
    ∃ outer', q'.WellFormed outer' ∧ List.Forall₂ Tuple.Fits outer' frames' := by
  induction h with
  | refl q frames => exact fun outer hq hf => ⟨outer, hq, hf⟩
  | step hc hr ih =>
    intro outer hq hf
    obtain ⟨hq', hf'⟩ := hq.callee hdata hf hc
    exact ih _ hq' hf'

/-! ## Inside one query -/

/-- A predicate is tested on tuples that fit the level it is well formed at. -/
theorem Tests.fits (hdata : data.WellTyped E) (hq : q.WellFormed outer)
    {p : Predicate (GraphQuery E)} {t : Tuple} (h : q.Tests data frames p t) :
    ∃ l : Level E, Tuple.Fits l t ∧ (p.map WellFormed).WellFormed (outer ++ [l]) := by
  obtain ⟨hplan, hcondition⟩ := wellFormed_iff.1 hq
  cases h with
  | condition hts ht hp => exact ⟨q.plan.level, hq.joined_fits hdata hts t ht, hcondition p hp⟩
  | @on before after n ts t r p hn hts ht hr hp =>
    have hnode := hplan.joins before n after hn
    have hfits := Plan.joinAll_fits hdata hplan hn hts t ht
    refine ⟨⟨q.plan.root, before ++ [n]⟩, hfits.push fun s hs => ?_, ?_⟩
    · rw [← Option.some.inj hs]
      exact JoinNode.candidates_of hdata hnode hfits r hr
    · rw [Predicate.map_map, show WellFormed ∘ Empty.elim = Empty.elim from funext nofun]
      exact hnode.on p hp

/-- What is kept fits like all that is joined. -/
theorem filtered_fits (hdata : data.WellTyped E) (hq : q.WellFormed outer) {ts : List Tuple}
    (h : q.filtered data frames = .ok ts) : ∀ t ∈ ts, Tuple.Fits q.plan.level t := by
  obtain ⟨joined, hjoined, hmem⟩ := Plan.mem_joined_of_filtered h
  exact fun t ht => hq.joined_fits hdata hjoined t (hmem t ht)

theorem grouped_fits (hdata : data.WellTyped E) (hq : q.WellFormed outer) {ts : List Tuple}
    {gs : List (List Tuple)} (hts : q.filtered data frames = .ok ts)
    (hgs : q.plan.grouped frames ts = .ok gs) :
    ∀ g ∈ gs, ∀ t ∈ g, Tuple.Fits q.plan.level t := by
  intro g hg t ht
  exact filtered_fits hdata hq hts t (Plan.mem_of_grouped hgs g hg t ht)

/-- The paths of an expression start in the tuples that it is evaluated on. -/
theorem Evaluates.fits (hdata : data.WellTyped E) (hq : q.WellFormed outer) {e : Expression}
    {t : Tuple} (h : q.Evaluates data frames e t) :
    ∃ l : Level E, Tuple.Fits l t ∧ ∀ p, e.Mentions p → p.WellFormed (outer ++ [l]) := by
  obtain ⟨hplan, -⟩ := wellFormed_iff.1 hq
  cases h with
  | tested hp he =>
    obtain ⟨l, hfits, hwf⟩ := hp.fits hdata hq
    exact ⟨l, hfits, fun path => (hwf.expression e he).path_of_mentions⟩
  | key hts ht he =>
    refine ⟨q.plan.level, filtered_fits hdata hq hts t ht, fun path => ?_⟩
    exact (hplan.groups e he).path_of_mentions
  | order hts hgs hg hs =>
    have hgroup := grouped_fits hdata hq hts hgs _ hg
    refine ⟨q.plan.level, Plan.representative_fits hgroup, fun path => ?_⟩
    exact (hplan.orders _ hs).path_of_mentions
  | selection hts hgs hg hs =>
    have hgroup := grouped_fits hdata hq hts hgs _ hg
    refine ⟨q.plan.level, Plan.representative_fits hgroup, fun path => ?_⟩
    exact (hplan.selections _ hs).path_of_mentions
  | @aggregated ts gs g t s f e hts hgs hg ht hs he =>
    refine ⟨q.plan.level, grouped_fits hdata hq hts hgs g hg t ht, fun path hpath => ?_⟩
    refine (hplan.selections s hs).path_of_mentions ?_
    rw [he]
    exact .aggregate hpath

/-- The compared paths of a tested predicate have values of their types. -/
theorem Tests.hasType (hdata : data.WellTyped E) (hq : q.WellFormed outer)
    (hf : List.Forall₂ Tuple.Fits outer frames) {p : Predicate (GraphQuery E)} {t : Tuple}
    (h : q.Tests data frames p t) {path : Path} (hp : .path path ∈ p.expressions)
    {type : ScalarType} (htype : path.type? = some type) :
    (path.value frames t).HasType type := by
  obtain ⟨l, hfits, hpath⟩ := (Evaluates.tested h hp).fits hdata hq
  exact (hpath path .path).hasType hf hfits htype

/-- The run of a well-formed query inside fitting frames is type sound. -/
theorem WellFormed.typeSound (hdata : data.WellTyped E) (hq : q.WellFormed outer)
    (hf : List.Forall₂ Tuple.Fits outer frames) : q.TypeSound data frames where
  frames_length := hf.length_eq.symm.trans (wellFormed_iff.1 hq).1.depth.symm
  tuples _ hts := hq.joined_fits hdata hts
  paths e t he p hp type htype := by
    obtain ⟨l, hfits, hpath⟩ := he.fits hdata hq
    exact (hpath p hp).hasType hf hfits htype
  orderings p t h path comparator v hc ho type htype hfloat hunknown := by
    obtain ⟨l, -, hwf⟩ := h.fits hdata hq
    have hpath := h.hasType hdata hq hf (Predicate.expressions_of_comparison hc).1 htype
    have hv := hwf.ordersInType _ hc path v type rfl rfl ho htype
    have hunknown : (path.value frames t).compareTruth comparator v = .unknown :=
      Except.ok.inj hunknown
    -- The other side cannot be null: it was cast to the type when the query was compiled.
    rcases Value.eq_null_of_compareTruth_eq_unknown hpath (.inr hv) hfloat hunknown with h | rfl
    · exact h
    · exact absurd hv nofun
  fields p t h left comparator right hc type hleft hright hfloat hunknown := by
    obtain ⟨hl, hr⟩ := Predicate.expressions_of_comparison hc
    exact Value.eq_null_of_compareTruth_eq_unknown (h.hasType hdata hq hf hl hleft)
      (h.hasType hdata hq hf hr hright) hfloat (Except.ok.inj hunknown)
  progress := meaning_progresses q outer frames hq

/-- A window changes nothing about what is well formed. -/
theorem WellFormed.withWindow (hq : q.WellFormed outer) (first? max? : Option Nat) :
    (q.withWindow first? max?).WellFormed outer := by
  obtain ⟨hplan, hcondition⟩ := wellFormed_iff.1 hq
  refine wellFormed_iff.2 ⟨?_, hcondition⟩
  exact { hplan with }

/-- However a compiled query is windowed, the run of every query that its run leads to is type
sound on typed records. -/
theorem typeSound_of_reaches {purpose : Purpose} {d : Draft E (ScopedCondition E)}
    (hdata : data.WellTyped E) (hfree : d.CustomFree) (h : ofDraft purpose d = .ok q)
    {first? max? : Option Nat} (hr : Reaches data (q.withWindow first? max?) [] q' frames) :
    q'.TypeSound data frames := by
  have hq : q.WellFormed [] := wellFormed_ofLevel (Scope.valid_ofRoot d.outline.root) hfree
    (fun _ _ sub _ => wellFormed_subQuery sub) h
  obtain ⟨outer, hq', hf⟩ := hr.wellFormed hdata [] (hq.withWindow first? max?) .nil
  exact hq'.typeSound hdata hf

end GraphQuery

/-- An owner and a dog of one name. -/
def Kennel.household : Dataset where
  tables :=
    let rex : Record := ⟨"Dog", [("id", .long 1), ("name", .string "Rex")]⟩
    [("Owner", [⟨"Owner", [("name", .string "Rex"), ("dogs", .list [rex.toValue])]⟩]),
      ("Dog", [rex])]

theorem Kennel.wellTyped_household : household.WellTyped Kennel := by
  have hrex : Record.Of dog ⟨"Dog", [("id", .long 1), ("name", .string "Rex")]⟩ := by
    refine .of_attributes rfl ?_
    refine List.forall_mem_cons.2 ⟨.basic rfl, List.forall_mem_cons.2 ⟨.basic rfl, ?_⟩⟩
    exact List.forall_mem_singleton.2 (.null _)
  intro e
  cases e with
  | dog => exact List.forall_mem_singleton.2 hrex
  | owner =>
    refine List.forall_mem_singleton.2 (.of_attributes rfl ?_)
    refine List.forall_mem_cons.2 ⟨.null _, List.forall_mem_cons.2 ⟨.basic rfl, ?_⟩⟩
    refine List.forall_mem_cons.2 ⟨.null _, List.forall_mem_singleton.2 ?_⟩
    exact .many (List.forall_mem_singleton.2 hrex)

/-- The first of the owners with namesakes, and the sub query for the dog of that owner. -/
theorem GraphQuery.typeSound_of_reaches_namesakes :
    Kennel.household.WellTyped Kennel ∧ Kennel.ownersOfNamesakes.CustomFree ∧
      ∃ q sub frames, ofDraft .rows Kennel.ownersOfNamesakes = .ok q ∧ frames.length = 1 ∧
        Reaches Kennel.household (q.withWindow none (some 1)) [] sub frames ∧
        sub.TypeSound Kennel.household frames := by
  have hcalled : ((ofDraft .rows Kennel.ownersOfNamesakes).map fun q =>
      ((q.withWindow none (some 1)).callees Kennel.household []).map (·.2.length)) =
        .ok [1] := by
    decide +kernel
  obtain ⟨q, hq, hcallees⟩ := Result.map_eq_ok.1 hcalled
  obtain ⟨⟨sub, frames⟩, hmem, hlength⟩ := List.mem_map.1
    (hcallees.symm ▸ List.mem_singleton_self 1)
  have hr := Reaches.step hmem (.refl sub frames)
  exact ⟨Kennel.wellTyped_household, Kennel.customFree_ownersOfNamesakes, q, sub, frames, hq,
    hlength, hr, typeSound_of_reaches Kennel.wellTyped_household
      Kennel.customFree_ownersOfNamesakes hq hr⟩

end EntityQuery
