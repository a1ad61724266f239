import EntityQuery.Proofs.Evaluation.Counting
import EntityQuery.Proofs.Value.Equality
import Mathlib.Data.List.Induction

/-! # Outer joins

Where the conditions of joins are answered, a left join replaces every tuple by what it is joined
with, or else by itself with an empty slot, so that the records of the root stay where they were.  A
right join adds every record of its entity that equals none that was joined, so that all of them are
there (`Plan.outer_joins_complete`). -/

namespace EntityQuery

theorem Tuple.getElem?_concat {t : Tuple} {width : Nat} (h : t.length = width)
    {slot? : Option Record} : (t ++ [slot?])[width]? = some slot? := by
  rw [← h, List.getElem?_concat_length]

variable {E : Type} [Schema E]

namespace JoinNode

variable {data : Dataset} {n : JoinNode E} {frames : Frames} {t u : Tuple} {ts us : List Tuple}

/-- The candidates of a tuple on which the condition holds. -/
def taken (data : Dataset) (n : JoinNode E) (frames : Frames) (t : Tuple) : List Record :=
  (n.candidates data t).filter fun r => n.testOn frames t r = .ok .holds

/-- A tuple with each of the candidates that are taken. -/
def extended (data : Dataset) (n : JoinNode E) (frames : Frames) (t : Tuple) : List Tuple :=
  n.extensions t (n.taken data frames t)

/-- The condition is answered on every candidate of every tuple. -/
def Answered (data : Dataset) (n : JoinNode E) (frames : Frames) (ts : List Tuple) : Prop :=
  ∀ t ∈ ts, ∀ r ∈ n.candidates data t, (n.testOn frames t r).isOk

/-! ## One join -/

/-- The candidates that the condition of the join holds of. -/
theorem mem_taken {r : Record} : r ∈ n.taken data frames t ↔
    r ∈ n.candidates data t ∧ n.testOn frames t r = .ok .holds := by
  rw [taken, List.mem_filter, decide_eq_true_iff]

theorem accepted_eq_taken (h : ∀ r ∈ n.candidates data t, (n.testOn frames t r).isOk) :
    n.accepted data frames t = .ok (n.taken data frames t) :=
  keepHolding_of_answered h

/-- Where all conditions have an answer, each tuple is paired with what it takes. -/
theorem pairings_eq_map (h : n.Answered data frames ts) : n.pairings data frames ts =
    .ok (ts.map fun t => (t, n.taken data frames t)) := by
  induction ts with
  | nil => rfl
  | cons t ts ih =>
    obtain ⟨ht, hts⟩ := List.forall_mem_cons.1 h
    rw [pairings, accepted_eq_taken ht, ih hts]
    rfl

/-- What tuples of `width` slots are joined to. -/
def outcome (data : Dataset) (n : JoinNode E) (frames : Frames) (width : Nat) (ts : List Tuple) :
    List Tuple :=
  ts.flatMap (n.extended data frames) ++
    if n.operator = .right then
      (n.unmatched data (ts.flatMap (n.taken data frames))).map fun r =>
        List.replicate width none ++ [some r]
    else []

/-- Where all conditions have an answer, the join has its outcome. -/
theorem join_of_answered (h : n.Answered data frames ts) (width : Nat) :
    n.join data frames width ts = .ok (n.outcome data frames width ts) := by
  rw [join, pairings_eq_map h, outcome]
  change (if n.operator = .right then _ else _ : Result (List Tuple)) = _
  rw [List.flatMap_map, List.flatMap_map]
  split
  · rfl
  · exact congrArg Except.ok (List.append_nil _).symm

/-- Without a right join the outcome is tuple by tuple. -/
theorem outcome_of_ne_right (h : n.operator ≠ .right) (width : Nat) (ts : List Tuple) :
    n.outcome data frames width ts = ts.flatMap (n.extended data frames) := by
  rw [outcome, if_neg h, List.append_nil]

/-- A right join adds the rows that no tuple took. -/
theorem mem_outcome_of_right (h : n.operator = .right) {width : Nat} :
    u ∈ n.outcome data frames width ts ↔ (∃ t ∈ ts, u ∈ n.extended data frames t) ∨
      ∃ r ∈ n.unmatched data (ts.flatMap (n.taken data frames)),
        List.replicate width none ++ [some r] = u := by
  rw [outcome, if_pos h, List.mem_append, List.mem_flatMap, List.mem_map]

/-- Records are left over if they equal nothing that is taken for any tuple. -/
theorem mem_unmatched_iff {r : Record} : r ∈ n.unmatched data (ts.flatMap (n.taken data frames)) ↔
    r ∈ data.records (Schema.name n.entity) ∧ ∀ t ∈ ts, ∀ m ∈ n.taken data frames t,
      m.toValue.equals r.toValue = false := by
  simp only [unmatched, List.mem_filter, Bool.not_eq_true', List.any_eq_false, List.mem_flatMap,
    Bool.not_eq_true]
  refine and_congr_right fun _ => ⟨fun h t ht m hm => h m ⟨t, ht, hm⟩, ?_⟩
  rintro h m ⟨t, ht, hm⟩
  exact h t ht m hm

/-- A tuple is extended by each of the records it takes, or by none under a left join. -/
theorem mem_extended_iff : u ∈ n.extended data frames t ↔
    (n.taken data frames t = [] ∧ n.operator = .left ∧ u = t ++ [none]) ∨
      ∃ r ∈ n.taken data frames t, u = t ++ [some r] := by
  rw [extended, extensions]
  split
  · rename_i h
    rw [Bool.and_eq_true, List.isEmpty_iff, decide_eq_true_iff] at h
    simp [h.1, h.2]
  · rename_i h
    rw [Bool.and_eq_true, List.isEmpty_iff, decide_eq_true_iff] at h
    rw [List.mem_map]
    constructor
    · rintro ⟨r, hr, rfl⟩
      exact .inr ⟨r, hr, rfl⟩
    · rintro (⟨hnone, hleft, -⟩ | ⟨r, hr, rfl⟩)
      · exact absurd ⟨hnone, hleft⟩ h
      · exact ⟨r, hr, rfl⟩

theorem exists_of_mem_extended (h : u ∈ n.extended data frames t) : ∃ slot?, u = t ++ [slot?] := by
  rcases mem_extended_iff.1 h with ⟨-, -, rfl⟩ | ⟨r, -, rfl⟩
  · exact ⟨none, rfl⟩
  · exact ⟨some r, rfl⟩

theorem some_mem_extended_iff {r : Record} :
    t ++ [some r] ∈ n.extended data frames t ↔ r ∈ n.taken data frames t := by
  simp [mem_extended_iff]

/-- A tuple gets an empty slot exactly if nothing is taken for it, in a left join. -/
theorem none_mem_extended_iff : t ++ [none] ∈ n.extended data frames t ↔
    n.taken data frames t = [] ∧ n.operator = .left := by
  simp [mem_extended_iff]

/-- Under a left join no tuple gets lost. -/
theorem extended_ne_nil (hleft : n.operator = .left) : n.extended data frames t ≠ [] := by
  cases h : n.taken data frames t with
  | nil => exact List.ne_nil_of_mem (none_mem_extended_iff.2 ⟨h, hleft⟩)
  | cons r rs =>
    exact List.ne_nil_of_mem (some_mem_extended_iff.2 (h ▸ List.mem_cons_self))

/-- What a left join makes of a tuple: it is there with every candidate that is accepted, and with
an empty slot if there is none. -/
structure Extends (data : Dataset) (n : JoinNode E) (frames : Frames) (t : Tuple)
    (run : List Tuple) : Prop where
  slot : ∀ u ∈ run, ∃ slot?, u = t ++ [slot?]
  present : ∀ r, t ++ [some r] ∈ run ↔
    r ∈ n.candidates data t ∧ n.testOn frames t r = .ok .holds
  absent : t ++ [none] ∈ run ↔ ∀ r ∈ n.candidates data t, n.testOn frames t r ≠ .ok .holds

theorem extends_extended (hleft : n.operator = .left) (t : Tuple) :
    n.Extends data frames t (n.extended data frames t) where
  slot _ := exists_of_mem_extended
  present r := some_mem_extended_iff.trans mem_taken
  absent := by
    rw [none_mem_extended_iff, taken, List.filter_eq_nil_iff]
    simp [hleft]

/-- What a right join makes of tuples of `width` slots: every record of the entity is there, up to
equality, and it is behind empty slots if it equals no candidate that is accepted. -/
structure Completes (data : Dataset) (n : JoinNode E) (frames : Frames) (width : Nat)
    (ts us : List Tuple) : Prop where
  present : ∀ r ∈ data.records (Schema.name n.entity), r.toValue.hasNaN = false →
    ∃ u ∈ us, ∃ m, u[width]? = some (some m) ∧ m.toValue.equals r.toValue
  behind : ∀ r ∈ data.records (Schema.name n.entity),
    (List.replicate width none ++ [some r] ∈ us ↔
      ∀ t ∈ ts, ∀ m ∈ n.candidates data t, n.testOn frames t m = .ok .holds →
        m.toValue.equals r.toValue = false)

/-- A right join adds each of the rows that nothing was joined to once, behind all tuples. -/
theorem completes_outcome (hright : n.operator = .right) {width : Nat}
    (hts : ∀ t ∈ ts, t.length = width ∧ ∃ r, some r ∈ t) :
    n.Completes data frames width ts (n.outcome data frames width ts) where
  present r hr hnan := by
    by_cases hmatched : ∃ t ∈ ts, ∃ m ∈ n.taken data frames t, m.toValue.equals r.toValue
    · obtain ⟨t, ht, m, hm, hequals⟩ := hmatched
      exact ⟨t ++ [some m],
        (mem_outcome_of_right hright).2 (.inl ⟨t, ht, some_mem_extended_iff.2 hm⟩), m,
        Tuple.getElem?_concat (hts t ht).1, hequals⟩
    · have hleftover : r ∈ n.unmatched data (ts.flatMap (n.taken data frames)) :=
        mem_unmatched_iff.2 ⟨hr, fun t ht m hm =>
          Bool.eq_false_iff.2 fun hequals => hmatched ⟨t, ht, m, hm, hequals⟩⟩
      exact ⟨_, (mem_outcome_of_right hright).2 (.inr ⟨r, hleftover, rfl⟩), r,
        Tuple.getElem?_concat List.length_replicate, (Value.equals_self_iff _).2 hnan⟩
  behind r hr := by
    constructor
    · intro hmem t ht m hm htest
      rcases (mem_outcome_of_right hright).1 hmem with ⟨t', ht', hu⟩ | ⟨r', hr', hu⟩
      · -- a tuple that was joined has a record before its last slot
        obtain ⟨slot?, hu⟩ := exists_of_mem_extended hu
        obtain ⟨hlength, s, hs⟩ := hts t' ht'
        have hempty : List.replicate width none = t' :=
          (List.append_inj hu (by rw [List.length_replicate, hlength])).1
        rw [← hempty] at hs
        exact absurd (List.eq_of_mem_replicate hs) nofun
      · obtain rfl : r' = r := by simpa using List.append_cancel_left hu
        exact (mem_unmatched_iff.1 hr').2 t ht m (mem_taken.2 ⟨hm, htest⟩)
    · intro hnone
      have hleftover : r ∈ n.unmatched data (ts.flatMap (n.taken data frames)) := by
        refine mem_unmatched_iff.2 ⟨hr, fun t ht m hm => ?_⟩
        obtain ⟨hcandidate, htest⟩ := mem_taken.1 hm
        exact hnone t ht m hcandidate htest
      exact (mem_outcome_of_right hright).2 (.inr ⟨r, hleftover, rfl⟩)

/-! ## Joins one after the other -/

/-- The last join is made on what the joins before it come to. -/
theorem joinAll_concat (width : Nat) (ns : List (JoinNode E)) (n : JoinNode E) :
    joinAll data frames width ts (ns ++ [n]) =
      joinAll data frames width ts ns >>= n.join data frames (width + ns.length) := by
  induction ns generalizing width ts with
  | nil =>
    change (n.join data frames width ts >>= fun us => .ok us) = n.join data frames width ts
    cases n.join data frames width ts <;> rfl
  | cons m ns ih =>
    rw [List.cons_append, joinAll, joinAll]
    cases m.join data frames width ts with
    | error e => rfl
    | ok us =>
      have hwidth : width + (m :: ns).length = width + 1 + ns.length := by
        rw [List.length_cons]
        omega
      rw [hwidth]
      exact ih (width + 1)

end JoinNode

namespace Plan

variable {p : Plan E} {data : Dataset} {frames : Frames}

/-- The tuples after some of the joins. -/
def joinedBy (data : Dataset) (p : Plan E) (frames : Frames) (before : List (JoinNode E)) :
    Result (List Tuple) :=
  JoinNode.joinAll data frames 1 (p.rootTuples data) before

/-- The last join comes last. -/
theorem joinedBy_concat (before : List (JoinNode E)) (n : JoinNode E) :
    p.joinedBy data frames (before ++ [n]) =
      p.joinedBy data frames before >>= n.join data frames (before.length + 1) := by
  rw [joinedBy, JoinNode.joinAll_concat, Nat.add_comm]
  rfl

/-- The condition of every join is answered on the tuples that the joins before it come to. -/
def JoinsAnswered (data : Dataset) (p : Plan E) (frames : Frames) : Prop :=
  ∀ before n after, p.joins = before ++ n :: after →
    ∀ ts, p.joinedBy data frames before = .ok ts → n.Answered data frames ts

/-- What holds of the root tuples and goes on from join to join holds after some of the joins. -/
theorem joinedBy_induction {motive : List (JoinNode E) → List Tuple → Prop}
    (h : p.JoinsAnswered data frames) (hroot : motive [] (p.rootTuples data))
    (hstep : ∀ before n after ts, p.joins = before ++ n :: after → motive before ts →
      motive (before ++ [n]) (n.outcome data frames (before.length + 1) ts))
    {before after : List (JoinNode E)} (hjoins : p.joins = before ++ after) :
    ∃ ts, p.joinedBy data frames before = .ok ts ∧ motive before ts := by
  induction before using List.reverseRecOn generalizing after with
  | nil => exact ⟨_, rfl, hroot⟩
  | append_singleton before n ih =>
    rw [List.append_assoc] at hjoins
    obtain ⟨ts, hts, hmotive⟩ := ih hjoins
    refine ⟨_, ?_, hstep before n after ts hjoins hmotive⟩
    rw [joinedBy_concat, hts]
    exact JoinNode.join_of_answered (h before n after hjoins ts hts) _

/-- After each join there is one more slot, and there are no tuples without a record. -/
theorem slots_of_joinedBy (h : p.JoinsAnswered data frames) {before after : List (JoinNode E)}
    (hjoins : p.joins = before ++ after) : ∃ ts, p.joinedBy data frames before = .ok ts ∧
      ∀ t ∈ ts, t.length = before.length + 1 ∧ ∃ r, some r ∈ t := by
  refine joinedBy_induction (motive := fun before ts =>
    ∀ t ∈ ts, t.length = before.length + 1 ∧ ∃ r, some r ∈ t) h ?_ ?_ hjoins
  · exact List.forall_mem_map.2 fun r _ => ⟨rfl, r, List.mem_singleton_self _⟩
  · intro before n after ts _ hts u hu
    rw [List.length_append, List.length_singleton]
    rcases List.mem_append.1 hu with hu | hu
    · obtain ⟨t, ht, hu⟩ := List.mem_flatMap.1 hu
      obtain ⟨slot?, rfl⟩ := JoinNode.exists_of_mem_extended hu
      obtain ⟨hlength, r, hr⟩ := hts t ht
      exact ⟨by rw [List.length_append, hlength, List.length_singleton],
        r, List.mem_append_left _ hr⟩
    · split at hu
      · obtain ⟨r, -, rfl⟩ := List.mem_map.1 hu
        exact ⟨by rw [List.length_append, List.length_replicate, List.length_singleton],
          r, List.mem_append_right _ (List.mem_singleton_self _)⟩
      · exact absurd hu List.not_mem_nil

/-- The tuples fall into runs, one for each record in their first slot. -/
def Runs (rs : List Record) (ts : List Tuple) : Prop :=
  ∃ runs : List (List Tuple), ts = runs.flatten ∧
    List.Forall₂ (fun r run => run ≠ [] ∧ ∀ t ∈ run, t.record? .root = some r) rs runs

/-- At first there is one tuple for each record of the root. -/
theorem runs_rootTuples : Runs (data.records (Schema.name p.root)) (p.rootTuples data) := by
  refine ⟨(data.records (Schema.name p.root)).map fun r => [[some r]], ?_, ?_⟩
  · rw [rootTuples, ← List.flatMap_def, List.map_eq_flatMap]
  · rw [List.forall₂_map_right_iff]
    exact List.forall₂_same.2 fun r _ =>
      ⟨List.cons_ne_nil _ _, List.forall_mem_singleton.2 rfl⟩

/-- A left join makes a run longer, but never empty or out of place. -/
theorem Runs.extended {rs : List Record} {ts : List Tuple} (h : Runs rs ts) {n : JoinNode E}
    (hleft : n.operator = .left) : Runs rs (ts.flatMap (n.extended data frames)) := by
  obtain ⟨runs, rfl, hruns⟩ := h
  refine ⟨runs.map fun run => run.flatMap (n.extended data frames), ?_, ?_⟩
  · rw [← List.flatMap_def, ← List.flatMap_id, List.flatMap_assoc]
    rfl
  · rw [List.forall₂_map_right_iff]
    refine hruns.imp ?_
    rintro r run ⟨hne, hroot⟩
    obtain ⟨t, run, rfl⟩ := List.exists_cons_of_ne_nil hne
    refine ⟨fun hnil => ?_, fun u hu => ?_⟩
    · exact JoinNode.extended_ne_nil hleft (List.flatMap_eq_nil_iff.1 hnil t List.mem_cons_self)
    · obtain ⟨t, ht, hu⟩ := List.mem_flatMap.1 hu
      obtain ⟨slot?, rfl⟩ := JoinNode.exists_of_mem_extended hu
      have hroot := hroot t ht
      cases t with
      | nil => exact absurd hroot nofun
      | cons first t => exact hroot

/-- Left joins keep the records of the root apart, each in a run of tuples. -/
theorem runs_of_left (h : p.JoinsAnswered data frames)
    (hleft : ∀ n ∈ p.joins, n.operator = .left) : ∃ ts, p.joined data frames = .ok ts ∧
      Runs (data.records (Schema.name p.root)) ts := by
  refine joinedBy_induction (motive := fun _ ts => Runs (data.records (Schema.name p.root)) ts) h
    runs_rootTuples ?_ (List.append_nil p.joins).symm
  intro before n after ts hjoins hruns
  have hn : n.operator = .left := hleft n (hjoins ▸ by simp)
  rw [JoinNode.outcome_of_ne_right (by rw [hn]; exact nofun)]
  exact hruns.extended hn

/-- Neither side of an outer join is lost. -/
theorem outer_joins_complete (h : p.JoinsAnswered data frames) :
    ((∀ n ∈ p.joins, n.operator = .left) → ∃ ts, p.joined data frames = .ok ts ∧
      Runs (data.records (Schema.name p.root)) ts) ∧
    ∀ before n after, p.joins = before ++ n :: after → ∃ ts us,
      p.joinedBy data frames before = .ok ts ∧ p.joinedBy data frames (before ++ [n]) = .ok us ∧
      (n.operator = .left → ∃ run : Tuple → List Tuple, us = ts.flatMap run ∧
        ∀ t ∈ ts, n.Extends data frames t (run t)) ∧
      (n.operator = .right → n.Completes data frames (before.length + 1) ts us) := by
  refine ⟨runs_of_left h, fun before n after hjoins => ?_⟩
  obtain ⟨ts, hts, hslots⟩ := slots_of_joinedBy h hjoins
  refine ⟨ts, n.outcome data frames (before.length + 1) ts, hts, ?_, fun hleft => ?_,
    fun hright => JoinNode.completes_outcome hright hslots⟩
  · rw [joinedBy_concat, hts]
    exact JoinNode.join_of_answered (h before n after hjoins ts hts) _
  · refine ⟨n.extended data frames, ?_, fun t _ => JoinNode.extends_extended hleft t⟩
    exact JoinNode.outcome_of_ne_right (by rw [hleft]; exact nofun) _ ts

end Plan

/-! ## Owners and dogs without each other -/

/-- Joins without conditions are answered. -/
theorem Plan.joinsAnswered_of_no_conditions {p : Plan E} (h : ∀ n ∈ p.joins, n.on? = none)
    (data : Dataset) (frames : Frames) : p.JoinsAnswered data frames := by
  intro before n after hjoins ts _ t _ r _
  rw [JoinNode.testOn, h n (hjoins ▸ by simp)]
  rfl

namespace Kennel

/-- A left join keeps the owner without a dog, and a right join the dog without an owner. -/
theorem outer_joins_complete_of_strays :
    (∃ q ts, GraphQuery.ofDraft .rows (ownersAndDogs .left) = .ok q ∧
      q.plan.joined strays.data [] = .ok ts ∧ Plan.Runs [ada] ts) ∧
    ∃ q n ts us, GraphQuery.ofDraft .rows (ownersAndDogs .right) = .ok q ∧ q.plan.joins = [n] ∧
      q.plan.joinedBy strays.data [] [] = .ok ts ∧ q.plan.joinedBy strays.data [] [n] = .ok us ∧
      n.Completes strays.data [] 1 ts us := by
  have honly (operator : JoinOperator) : ∃ q n, q.plan.root = owner ∧
      GraphQuery.ofDraft .rows (ownersAndDogs operator) = .ok q ∧
      q.plan.joins = [n] ∧ n.operator = operator ∧ n.on? = none := by
    have hrun : (GraphQuery.ofDraft .rows (ownersAndDogs operator)).map (fun q =>
        (q.plan.root, q.plan.joins.map fun n => (n.operator, n.on?.isNone))) =
          .ok (owner, [(operator, true)]) := by
      cases operator <;> decide +kernel
    obtain ⟨q, hq, hrun⟩ := Result.map_eq_ok.1 hrun
    obtain ⟨hroot, hjoins⟩ := Prod.mk.inj hrun
    obtain ⟨n, hn, hshape⟩ := List.map_eq_singleton_iff.1 hjoins
    obtain ⟨hoperator, hon⟩ := Prod.mk.inj hshape
    exact ⟨q, n, hroot, hq, hn, hoperator, Option.isNone_iff_eq_none.1 hon⟩
  obtain ⟨q, n, hroot, hq, hjoins, hleft, hon⟩ := honly .left
  have hanswered : q.plan.JoinsAnswered strays.data [] :=
    Plan.joinsAnswered_of_no_conditions (hjoins ▸ List.forall_mem_singleton.2 hon) _ _
  have hall : ∀ n ∈ q.plan.joins, n.operator = .left := hjoins ▸ List.forall_mem_singleton.2 hleft
  obtain ⟨ts, hts, hruns⟩ := (Plan.outer_joins_complete hanswered).1 hall
  rw [hroot] at hruns
  obtain ⟨q', n', -, hq', hjoins', hright, hon'⟩ := honly .right
  have hanswered' : q'.plan.JoinsAnswered strays.data [] :=
    Plan.joinsAnswered_of_no_conditions (hjoins' ▸ List.forall_mem_singleton.2 hon') _ _
  obtain ⟨ts', us', hts', hus', -, hcompletes⟩ :=
    (Plan.outer_joins_complete hanswered').2 [] n' [] hjoins'
  exact ⟨⟨q, ts, hq, hts, hruns⟩, q', n', ts', us', hq', hjoins', hts', hus', hcompletes hright⟩

end Kennel

end EntityQuery
