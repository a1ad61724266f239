import EntityQuery.Proofs.Evaluation.Runs
import EntityQuery.Proofs.Evaluation.Typing
import EntityQuery.Proofs.Success

/-! # Tuples of a run

On typed records, joins make tuples that fit the level as far as it is joined, whatever they pad
with empty slots, and grouping makes up no tuples but the one that stands for an empty group. -/

namespace EntityQuery

variable {E : Type}

/-! ## Groups -/

theorem mem_of_keysOf {frames : Frames} {keys : List Expression} {ts : List Tuple}
    {keyed : List (List Value × Tuple)} (h : keysOf frames keys ts = .ok keyed)
    {k : List Value × Tuple} (hk : k ∈ keyed) : k.2 ∈ ts := by
  induction ts generalizing keyed with
  | nil =>
    obtain rfl := Except.ok.inj h
    exact absurd hk List.not_mem_nil
  | cons t ts ih =>
    obtain ⟨key, -, h⟩ := Result.bind_eq_ok.1 h
    obtain ⟨rest, hrest, h⟩ := Result.bind_eq_ok.1 h
    obtain rfl := Result.pure_eq_ok.1 h
    rcases List.mem_cons.1 hk with rfl | hk
    · exact List.mem_cons_self
    · exact List.mem_cons_of_mem t (ih hrest hk)

section

variable {motive : Tuple → Prop}

theorem forall_mem_insertKeyed {key : List Value} {t : Tuple} {gs : List KeyedGroup}
    (ht : motive t) (hgs : ∀ g ∈ gs, ∀ u ∈ g.2, motive u) :
    ∀ g ∈ insertKeyed key t gs, ∀ u ∈ g.2, motive u := by
  induction gs with
  | nil => exact List.forall_mem_singleton.2 (List.forall_mem_singleton.2 ht)
  | cons g gs ih =>
    obtain ⟨hg, hrest⟩ := List.forall_mem_cons.1 hgs
    rw [insertKeyed]
    split
    · refine List.forall_mem_cons.2 ⟨?_, hrest⟩
      exact List.forall_mem_append.2 ⟨hg, List.forall_mem_singleton.2 ht⟩
    · exact List.forall_mem_cons.2 ⟨hg, ih hrest⟩

/-- Groups have no other tuples than those that were grouped. -/
theorem forall_mem_groupByKey {keyed : List (List Value × Tuple)}
    (h : ∀ k ∈ keyed, motive k.2) : ∀ g ∈ groupByKey keyed, ∀ t ∈ g, motive t := by
  suffices hfold : ∀ gs : List KeyedGroup, (∀ g ∈ gs, ∀ u ∈ g.2, motive u) →
      ∀ g ∈ keyed.foldl (fun gs k => insertKeyed k.1 k.2 gs) gs, ∀ u ∈ g.2, motive u from
    List.forall_mem_map.2 (hfold [] nofun)
  induction keyed with
  | nil => exact fun gs hgs => hgs
  | cons k keyed ih =>
    obtain ⟨hk, hrest⟩ := List.forall_mem_cons.1 h
    exact fun gs hgs => ih hrest _ (forall_mem_insertKeyed hk hgs)

end

/-- Groups are made of the tuples and of nothing else. -/
theorem Plan.mem_of_grouped {p : Plan E} {frames : Frames} {ts : List Tuple}
    {gs : List (List Tuple)} (h : p.grouped frames ts = .ok gs) : ∀ g ∈ gs, ∀ t ∈ g, t ∈ ts := by
  rw [grouped] at h
  split at h
  · rw [groupTuples] at h
    split at h
    · obtain rfl := Except.ok.inj h
      exact List.forall_mem_singleton.2 fun t ht => ht
    · obtain ⟨keyed, hkeyed, rfl⟩ := Result.map_eq_ok.1 h
      exact forall_mem_groupByKey fun k hk => mem_of_keysOf hkeyed hk
  · obtain rfl := Except.ok.inj h
    exact List.forall_mem_map.2 fun t ht => List.forall_mem_singleton.2 ht

/-! ## Joins -/

/-- A tuple is extended by one place, for one of the records or for none. -/
theorem JoinNode.exists_of_mem_extensions {n : JoinNode E} {t : Tuple} {rs : List Record}
    {u : Tuple} (h : u ∈ n.extensions t rs) : ∃ slot?, u = t ++ [slot?] ∧ ∀ r ∈ slot?, r ∈ rs := by
  rw [extensions] at h
  split at h
  · exact ⟨none, List.mem_singleton.1 h, nofun⟩
  · obtain ⟨r, hr, rfl⟩ := List.mem_map.1 h
    exact ⟨some r, rfl, fun s hs => Option.some.inj hs ▸ hr⟩

variable [Schema E]

namespace JoinNode

variable {data : Dataset} {frames : Frames} {outer : List (Level E)} {root : E}
  {before : List (JoinNode E)} {n : JoinNode E} {t : Tuple}

/-- What a tuple can be joined with are records of the entity of the join. -/
theorem candidates_of (hdata : data.WellTyped E) (hn : n.WellFormed outer root before)
    (ht : Tuple.Fits ⟨root, before⟩ t) : ∀ r ∈ n.candidates data t, r.Of n.entity := by
  rw [candidates]
  cases hk : n.kind with
  | entity => exact hdata n.entity
  | relation =>
    obtain ⟨e, a, he, ha, htarget⟩ := hn.relationship hk
    cases hp : t.record? n.parent with
    | none => exact nofun
    | some parent => exact ((ht.slots n.parent e parent he hp).get ha).heldRecords htarget

/-- Tuples are paired with records that are candidates for them. -/
theorem exists_of_mem_pairings {ts : List Tuple} {pairs : List (Tuple × List Record)}
    (h : n.pairings data frames ts = .ok pairs) {p : Tuple × List Record} (hp : p ∈ pairs) :
    p.1 ∈ ts ∧ ∀ r ∈ p.2, r ∈ n.candidates data p.1 := by
  induction ts generalizing pairs with
  | nil =>
    obtain rfl := Except.ok.inj h
    exact absurd hp List.not_mem_nil
  | cons t ts ih =>
    obtain ⟨rs, hrs, h⟩ := Result.bind_eq_ok.1 h
    obtain ⟨rest, hrest, h⟩ := Result.bind_eq_ok.1 h
    obtain rfl := Result.pure_eq_ok.1 h
    rcases List.mem_cons.1 hp with rfl | hp
    · exact ⟨List.mem_cons_self, fun r hr => ((mem_keepHolding_iff hrs).1 hr).1⟩
    · obtain ⟨hmem, hcandidates⟩ := ih hrest hp
      exact ⟨List.mem_cons_of_mem t hmem, hcandidates⟩

/-- One join makes fitting tuples of fitting tuples. -/
theorem join_fits (hdata : data.WellTyped E) (hn : n.WellFormed outer root before)
    {ts joined : List Tuple} (hts : ∀ t ∈ ts, Tuple.Fits ⟨root, before⟩ t)
    (h : n.join data frames (before.length + 1) ts = .ok joined) :
    ∀ t ∈ joined, Tuple.Fits ⟨root, before ++ [n]⟩ t := by
  obtain ⟨pairs, hpairs, h⟩ := Result.bind_eq_ok.1 h
  have hextended : ∀ t ∈ pairs.flatMap fun p => n.extensions p.1 p.2,
      Tuple.Fits ⟨root, before ++ [n]⟩ t := by
    intro u hu
    obtain ⟨p, hp, hu⟩ := List.mem_flatMap.1 hu
    obtain ⟨hmem, hcandidates⟩ := exists_of_mem_pairings hpairs hp
    obtain ⟨slot?, rfl, hslot⟩ := exists_of_mem_extensions hu
    have hfits := hts p.1 hmem
    exact hfits.push fun r hr => candidates_of hdata hn hfits r (hcandidates r (hslot r hr))
  dsimp only at h
  split at h
  · obtain rfl := Result.pure_eq_ok.1 h
    refine List.forall_mem_append.2 ⟨hextended, List.forall_mem_map.2 fun r hr => ?_⟩
    refine (Tuple.Fits.empty ⟨root, before⟩).push fun s hs => ?_
    rw [← Option.some.inj hs]
    exact hdata n.entity r (List.mem_filter.1 hr).1
  · obtain rfl := Result.pure_eq_ok.1 h
    exact hextended

/-- The joins of a level, one after the other, make tuples that fit the level. -/
theorem joinAll_fits (hdata : data.WellTyped E) {rest : List (JoinNode E)}
    (hnodes : ∀ middle n after, rest = middle ++ n :: after →
      n.WellFormed outer root (before ++ middle))
    {ts joined : List Tuple} (hts : ∀ t ∈ ts, Tuple.Fits ⟨root, before⟩ t)
    (h : joinAll data frames (before.length + 1) ts rest = .ok joined) :
    ∀ t ∈ joined, Tuple.Fits ⟨root, before ++ rest⟩ t := by
  induction rest generalizing before ts with
  | nil =>
    obtain rfl := Except.ok.inj h
    rw [List.append_nil]
    exact hts
  | cons n ns ih =>
    obtain ⟨ts', hjoin, h⟩ := Result.bind_eq_ok.1 h
    have hn := hnodes [] n ns rfl
    rw [List.append_nil] at hn
    have hts' := join_fits hdata hn hts hjoin
    rw [List.append_cons]
    refine ih (fun middle m after hm => ?_) hts' ?_
    · have hm := hnodes (n :: middle) m after (congrArg (n :: ·) hm)
      rw [List.append_cons] at hm
      exact hm
    · rw [List.length_append]
      exact h

end JoinNode

namespace Plan

variable {data : Dataset} {frames : Frames} {outer : List (Level E)} {p : Plan E}

theorem rootTuples_fits (hdata : data.WellTyped E) :
    ∀ t ∈ p.rootTuples data, Tuple.Fits ⟨p.root, []⟩ t :=
  List.forall_mem_map.2 fun r hr => .single (hdata p.root r hr)

/-- The tuples after the joins up to some place. -/
theorem joinAll_fits (hdata : data.WellTyped E) (hp : p.WellFormed outer)
    {before after : List (JoinNode E)} (hjoins : p.joins = before ++ after) {ts : List Tuple}
    (h : JoinNode.joinAll data frames 1 (p.rootTuples data) before = .ok ts) :
    ∀ t ∈ ts, Tuple.Fits ⟨p.root, before⟩ t := by
  have hnodes : ∀ middle n rest, before = middle ++ n :: rest →
      n.WellFormed outer p.root ([] ++ middle) := by
    intro middle n rest hm
    refine hp.joins middle n (rest ++ after) ?_
    rw [hjoins, hm, List.append_assoc, List.cons_append]
  exact JoinNode.joinAll_fits hdata hnodes (rootTuples_fits hdata) h

/-- Joined tuples fit the level of the plan. -/
theorem joined_fits (hdata : data.WellTyped E) (hp : p.WellFormed outer) {ts : List Tuple}
    (h : p.joined data frames = .ok ts) : ∀ t ∈ ts, Tuple.Fits p.level t :=
  joinAll_fits hdata hp (List.append_nil p.joins).symm h

end Plan

/-! ## Kept tuples -/

/-- What is kept was joined. -/
theorem Plan.mem_joined_of_filtered {p : Plan E} {data : Dataset} {frames : Frames}
    {condition? : Option (Predicate Meaning)} {kept : List Tuple}
    (h : p.filtered data condition? frames = .ok kept) :
    ∃ ts, p.joined data frames = .ok ts ∧ ∀ t ∈ kept, t ∈ ts := by
  obtain ⟨ts, hts, h⟩ := Result.bind_eq_ok.1 h
  refine ⟨ts, hts, fun t ht => ?_⟩
  cases condition? with
  | none =>
    obtain rfl := Result.pure_eq_ok.1 h
    exact (List.mem_filter.1 ht).1
  | some c =>
    obtain ⟨held, hheld, h⟩ := Result.bind_eq_ok.1 h
    obtain rfl := Result.pure_eq_ok.1 h
    exact ((mem_keepHolding_iff hheld).1 (List.mem_filter.1 ht).1).1

/-- The tuple that stands for a group of fitting tuples fits, even if there are none. -/
theorem Plan.representative_fits {p : Plan E} {g : List Tuple}
    (hg : ∀ t ∈ g, Tuple.Fits p.level t) : Tuple.Fits p.level (p.representative g) := by
  cases g with
  | nil => exact .empty p.level
  | cons t g => exact hg t List.mem_cons_self

end EntityQuery
