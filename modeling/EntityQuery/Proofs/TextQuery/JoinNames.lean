import EntityQuery.Proofs.Kennel
import EntityQuery.Proofs.Success
import EntityQuery.TextQuery
import Mathlib.Data.List.Induction
import Mathlib.Data.List.Nodup

/-! # The names that joins introduce

Every line of a join introduces a name: the own name of its clause, or the name of a waypoint, a
relationship that the path of the clause leads over.  A line starts from the root or from what an
earlier line introduced.  Waypoints are named by the way that leads to them and no record is kept of
them, so that two paths with a common way introduce its names twice. -/

namespace EntityQuery

variable {E : Type}

/-! ## Waypoints -/

/-- What a path leads over: the relationships that were followed from named rows on. -/
structure Waypoint where
  start : String
  along : List String
deriving DecidableEq

namespace Waypoint

/-- The names of a waypoint are put together by underscores. -/
def name (w : Waypoint) : String :=
  w.along.foldl (fun name segment => name ++ "_" ++ segment) w.start

theorem name_concat (start : String) (along : List String) (segment : String) :
    name ⟨start, along ++ [segment]⟩ = name ⟨start, along⟩ ++ "_" ++ segment :=
  List.foldl_concat ..

end Waypoint

namespace Waypoint

theorem underscore_mem_name {w : Waypoint} (h : w.along ≠ []) : '_' ∈ w.name.toList := by
  obtain ⟨start, along⟩ := w
  obtain rfl | ⟨along, last, rfl⟩ := List.eq_nil_or_concat along
  · exact absurd rfl h
  · rw [List.concat_eq_append, name_concat]
    simp

/-- No part of the way has a `_` of its own. -/
def Legible (w : Waypoint) : Prop := ∀ part ∈ w.start :: w.along, '_' ∉ part.toList

/-- The name of a legible waypoint falls apart into its segments. -/
theorem pieces_name {w : Waypoint} (h : w.Legible) :
    Text.pieces '_' w.name.toList = (w.start :: w.along).map String.toList := by
  obtain ⟨start, along⟩ := w
  induction along using List.reverseRecOn with
  | nil => exact Text.pieces_of_notMem (h start List.mem_cons_self)
  | append_singleton along last ih =>
    have hbefore : Legible ⟨start, along⟩ := fun part hp =>
      h part (List.mem_append_left [last] hp)
    have hlast : '_' ∉ last.toList :=
      h last (List.mem_cons_of_mem _ (List.mem_append_right _ List.mem_cons_self))
    have hname : (name ⟨start, along ++ [last]⟩).toList =
        (name ⟨start, along⟩).toList ++ '_' :: last.toList := by
      simp [name_concat]
    rw [hname, Text.pieces_concat_sep, ih hbefore, Text.pieces_of_notMem hlast]
    simp

/-- A legible name says which way was gone. -/
theorem eq_of_name_eq {w w' : Waypoint} (h : w.Legible) (h' : w'.Legible)
    (hname : w.name = w'.name) : w = w' := by
  have hpieces := pieces_name h
  rw [hname, pieces_name h'] at hpieces
  have hparts := List.map_injective_iff.2 (fun _ _ => String.toList_inj.1) hpieces
  obtain ⟨hstart, halong⟩ := List.cons.inj hparts
  cases w
  cases w'
  exact congrArg₂ mk hstart.symm halong.symm

end Waypoint

namespace Join

/-- What the rows of a clause are called: by its alias, or else by its table or the last segment of
that. -/
def ownName (j : Join E) : String :=
  match j.fieldJoin?, j.fieldReference? with
  | some _, some _ => j.acronym
  | _, _ => j.alias?.getD (Text.lowercase ((Text.split '.' j.table).getLastD ""))

/-- The waypoints of a path, of which some segments were followed. -/
def waypointsAlong (start : String) (walked : List String) : List String → List Waypoint
  | [] | [_] => []
  | segment :: rest =>
    let walked := walked ++ [segment]
    ⟨start, walked⟩ :: waypointsAlong start walked rest

/-- The waypoints of a clause; there are none on the way to a table. -/
def ownWaypoints (start : String) (j : Join E) : List Waypoint :=
  match j.fieldJoin?, j.fieldReference? with
  | some _, some _ => []
  | _, _ => waypointsAlong start [] (Text.split '.' j.table)

mutual

/-- The own names of a clause and of those inside it. -/
def ownNames : Join E → List String
  | ⟨table, alias?, operator, fieldJoin?, fieldReference?, entity?, conditions, nested⟩ =>
    let level : Join E :=
      ⟨table, alias?, operator, fieldJoin?, fieldReference?, entity?, conditions, []⟩
    level.ownName :: ownNamesAll nested

def ownNamesAll : List (Join E) → List String
  | [] => []
  | j :: js => ownNames j ++ ownNamesAll js

end

mutual

/-- The waypoints of a clause and of those inside it, which start at its rows. -/
def waypoints (start : String) : Join E → List Waypoint
  | ⟨table, alias?, operator, fieldJoin?, fieldReference?, entity?, conditions, nested⟩ =>
    let level : Join E :=
      ⟨table, alias?, operator, fieldJoin?, fieldReference?, entity?, conditions, []⟩
    level.ownWaypoints start ++ waypointsAll level.ownName nested

def waypointsAll (start : String) : List (Join E) → List Waypoint
  | [] => []
  | j :: js => waypoints start j ++ waypointsAll start js

end

end Join

/-! ## Where lines start -/

/-- Every relationship starts from a name that is known, or that a line before introduces. -/
def StartsKnown (known : List String) (lines : List JoinLine) : Prop :=
  ∀ before line after, lines = before ++ line :: after → ∀ source segment,
    line.target = .relationship source segment → source ∈ known ∨ source ∈ before.map JoinLine.name

namespace StartsKnown

variable {known : List String} {lines more : List JoinLine} {line : JoinLine}

theorem nil (known : List String) : StartsKnown known [] :=
  fun before _ _ h => by cases before <;> cases h

theorem append (h : StartsKnown known lines)
    (h' : StartsKnown (known ++ lines.map JoinLine.name) more) :
    StartsKnown known (lines ++ more) := by
  intro before line after hlines source segment ht
  rcases List.append_eq_append_iff.1 hlines with ⟨between, rfl, hmore⟩ | ⟨between, hl, hmore⟩
  · rcases h' between line after hmore source segment ht with hs | hs
    · rcases List.mem_append.1 hs with hs | hs
      · exact .inl hs
      · exact .inr (by rw [List.map_append]; exact List.mem_append_left _ hs)
    · exact .inr (by rw [List.map_append]; exact List.mem_append_right _ hs)
  · cases between with
    | nil =>
      rw [List.append_nil] at hl
      subst hl
      rcases h' [] line after hmore.symm source segment ht with hs | hs
      · exact List.mem_append.1 hs
      · cases hs
    | cons m ms =>
      obtain ⟨rfl, rfl⟩ := List.cons.inj hmore
      exact h before line ms hl source segment ht

theorem singleton (h : ∀ source segment, line.target = .relationship source segment →
    source ∈ known) : StartsKnown known [line] := by
  intro before m after hlines source segment ht
  cases before with
  | nil =>
    obtain ⟨rfl, -⟩ := List.cons.inj hlines
    exact .inl (h source segment ht)
  | cons l ls => cases ls <;> cases hlines

end StartsKnown

/-! ## What lines introduce -/

/-- Lines that start from a name introduce own names and waypoints, each as often as it is listed.
-/
structure Introduces (start : String) (lines : List JoinLine) (own : List String)
    (ways : List Waypoint) : Prop where
  count : ∀ name, (lines.map JoinLine.name).count name =
    own.count name + (ways.map Waypoint.name).count name
  startsKnown : ∀ known, start ∈ known → StartsKnown known lines

namespace Introduces

variable {start inner : String} {lines more : List JoinLine} {own own' : List String}
  {ways ways' : List Waypoint}

theorem nil (start : String) : Introduces start [] [] [] :=
  ⟨fun _ => rfl, fun known _ => .nil known⟩

variable {line : JoinLine}

/-- A line from a start introduces its own name. -/
theorem single (hstart : ∀ source segment, line.target = .relationship source segment →
    source = start) : Introduces start [line] [line.name] [] where
  count _ := rfl
  startsKnown _ hknown := .singleton fun source segment ht => hstart source segment ht ▸ hknown

/-- A line from a start introduces a waypoint. -/
theorem waypoint {w : Waypoint} (hstart : ∀ source segment,
    line.target = .relationship source segment → source = start) (hname : line.name = w.name) :
    Introduces start [line] [] [w] where
  count name := by
    rw [List.count_nil, Nat.zero_add, List.map_singleton, List.map_singleton, hname]
  startsKnown known hknown := .singleton fun source segment ht => hstart source segment ht ▸ hknown

/-- Clauses beside each other. -/
theorem append (h : Introduces start lines own ways) (h' : Introduces start more own' ways') :
    Introduces start (lines ++ more) (own ++ own') (ways ++ ways') where
  count name := by
    simp only [List.map_append, List.count_append, h.count, h'.count]
    omega
  startsKnown known hstart :=
    (h.startsKnown known hstart).append (h'.startsKnown _ (List.mem_append_left _ hstart))

/-- Clauses inside one that introduces the name they start from. -/
theorem nest (h : Introduces start lines own ways) (hinner : inner ∈ lines.map JoinLine.name)
    (h' : Introduces inner more own' ways') :
    Introduces start (lines ++ more) (own ++ own') (ways ++ ways') where
  count name := by
    simp only [List.map_append, List.count_append, h.count, h'.count]
    omega
  startsKnown known hstart :=
    (h.startsKnown known hstart).append (h'.startsKnown _ (List.mem_append_right _ hinner))

end Introduces

namespace Join

variable [Schema E] {j : Join E} {rootName : String} {source : Source E} {names : Names E}
  {joined : Joined E} {ps ps' : Parameters}

/-- A level introduces its waypoints and its own name, at which the clauses inside it start. -/
structure LevelIntroduces (start : String) (own : String) (ways : List Waypoint)
    (joined : Joined E) : Prop where
  introduces : Introduces start joined.lines [own] ways
  source : joined.source.name = own
  mem : own ∈ joined.lines.map JoinLine.name

theorem writeSegments_introduces {source : Source E} {names : Names E} {joined : Joined E}
    {start : String} {walked segments : List String} {ps ps' : Parameters} (hne : segments ≠ [])
    (hs : source.name = Waypoint.name ⟨start, walked⟩)
    (h : j.writeSegments source names segments ps = .ok (joined, ps')) :
    LevelIntroduces source.name (j.alias?.getD (Text.lowercase (segments.getLastD "")))
      (waypointsAlong start walked segments) joined := by
  match segments with
  | [] => exact absurd rfl hne
  | [segment] =>
    rw [writeSegments, Binding.bind_eq_ok] at h
    obtain ⟨ts, ps₁, -, h⟩ := h
    obtain ⟨rfl, rfl⟩ := Binding.pure_eq_ok.1 h
    exact ⟨.single fun source' segment' ht => (JoinTarget.relationship.inj ht).1.symm, rfl,
      List.mem_singleton_self _⟩
  | segment :: next :: rest =>
    simp only [writeSegments, Binding.bind_eq_ok] at h
    obtain ⟨tail, ps₁, ht, h⟩ := h
    obtain ⟨rfl, rfl⟩ := Binding.pure_eq_ok.1 h
    have hs' : source.name ++ "_" ++ segment = Waypoint.name ⟨start, walked ++ [segment]⟩ := by
      rw [Waypoint.name_concat, hs]
    have htail := writeSegments_introduces (List.cons_ne_nil next rest) hs' ht
    have here : Introduces source.name
        [⟨j.operator, .relationship source.name segment, source.name ++ "_" ++ segment, []⟩] []
        [⟨start, walked ++ [segment]⟩] :=
      .waypoint (fun source' segment' ht => (JoinTarget.relationship.inj ht).1.symm) hs'
    exact ⟨here.nest List.mem_cons_self htail.introduces, htail.source,
      List.mem_cons_of_mem _ htail.mem⟩

theorem writeLevel_introduces (h : j.writeLevel rootName source names ps = .ok (joined, ps')) :
    LevelIntroduces source.name j.ownName (j.ownWaypoints source.name) joined := by
  rw [writeLevel] at h
  split at h
  · rw [ownName, ownWaypoints]
    have hne : Text.split '.' j.table ≠ [] := by
      rw [Text.split, Ne, List.map_eq_nil_iff]
      exact Text.pieces_ne_nil '.' _
    generalize j.fieldJoin? = fieldJoin?, j.fieldReference? = fieldReference? at h ⊢
    cases fieldJoin? with
    | none => exact writeSegments_introduces hne rfl h
    | some fieldJoin =>
      cases fieldReference? with
      | none => exact writeSegments_introduces hne rfl h
      | some fieldReference =>
        replace h : j.writeEquality rootName fieldJoin fieldReference names ps = _ := h
        rw [writeEquality, Binding.bind_eq_ok] at h
        obtain ⟨ts, ps₁, -, h⟩ := h
        obtain ⟨rfl, rfl⟩ := Binding.pure_eq_ok.1 h
        refine ⟨.single fun _ _ ht => ?_, rfl, List.mem_singleton_self _⟩
        cases ht
  · exact absurd h Binding.throw_ne_ok

mutual

theorem write_introduces {j : Join E} {source : Source E} {names names' : Names E}
    {lines : List JoinLine} {ps ps' : Parameters}
    (h : write rootName source names j ps = .ok ((lines, names'), ps')) :
    Introduces source.name lines j.ownNames (j.waypoints source.name) := by
  match j with
  | ⟨table, alias?, operator, fieldJoin?, fieldReference?, entity?, conditions, nested⟩ =>
    rw [write, Binding.bind_eq_ok] at h
    obtain ⟨here, ps₁, hl, h⟩ := h
    rw [Binding.bind_eq_ok] at h
    obtain ⟨⟨below, names₁⟩, ps₂, hb, h⟩ := h
    obtain ⟨hpair, rfl⟩ := Binding.pure_eq_ok.1 h
    obtain ⟨rfl, rfl⟩ := Prod.mk.inj hpair
    have hlevel := writeLevel_introduces hl
    have hbelow := writeAll_introduces hb
    rw [hlevel.source] at hbelow
    exact hlevel.introduces.nest hlevel.mem hbelow

/-- Joins introduce their own names and their waypoints, and each starts where it may. -/
theorem writeAll_introduces {js : List (Join E)} {source : Source E} {names names' : Names E}
    {lines : List JoinLine} {ps ps' : Parameters}
    (h : writeAll rootName source names js ps = .ok ((lines, names'), ps')) :
    Introduces source.name lines (ownNamesAll js) (waypointsAll source.name js) := by
  match js with
  | [] =>
    obtain ⟨hpair, rfl⟩ := Binding.pure_eq_ok.1 h
    obtain ⟨rfl, rfl⟩ := Prod.mk.inj hpair
    exact .nil source.name
  | j :: js =>
    rw [writeAll, Binding.bind_eq_ok] at h
    obtain ⟨⟨here, names₁⟩, ps₁, hj, h⟩ := h
    rw [Binding.bind_eq_ok] at h
    obtain ⟨⟨more, names₂⟩, ps₂, hjs, h⟩ := h
    obtain ⟨hpair, rfl⟩ := Binding.pure_eq_ok.1 h
    obtain ⟨rfl, rfl⟩ := Prod.mk.inj hpair
    exact (write_introduces hj).append (writeAll_introduces hjs)

end

end Join

/-! ## Names that are introduced once -/

namespace Join

theorem along_ne_nil_of_waypointsAlong {start : String} {walked segments : List String}
    {w : Waypoint} (h : w ∈ waypointsAlong start walked segments) : w.along ≠ [] := by
  match segments with
  | [] | [_] => cases h
  | segment :: next :: rest =>
    rcases List.mem_cons.1 h with rfl | h
    · exact List.append_ne_nil_of_right_ne_nil walked (List.cons_ne_nil segment [])
    · exact along_ne_nil_of_waypointsAlong h

theorem along_ne_nil_of_ownWaypoints {start : String} {j : Join E} {w : Waypoint}
    (h : w ∈ j.ownWaypoints start) : w.along ≠ [] := by
  rw [ownWaypoints] at h
  split at h
  · cases h
  · exact along_ne_nil_of_waypointsAlong h

mutual

/-- A waypoint is behind the root. -/
theorem along_ne_nil_of_waypoints {start : String} {j : Join E} {w : Waypoint}
    (h : w ∈ j.waypoints start) : w.along ≠ [] := by
  match j with
  | ⟨table, alias?, operator, fieldJoin?, fieldReference?, entity?, conditions, nested⟩ =>
    rcases List.mem_append.1 h with h | h
    · exact along_ne_nil_of_ownWaypoints h
    · exact along_ne_nil_of_waypointsAll h

theorem along_ne_nil_of_waypointsAll {start : String} {js : List (Join E)} {w : Waypoint}
    (h : w ∈ waypointsAll start js) : w.along ≠ [] := by
  match js with
  | [] => cases h
  | j :: js =>
    rcases List.mem_append.1 h with h | h
    · exact along_ne_nil_of_waypoints h
    · exact along_ne_nil_of_waypointsAll h

end

end Join

/-- A name without `_` is that of no waypoint. -/
theorem Waypoint.notMem_names {ways : List Waypoint} (hways : ∀ w ∈ ways, w.along ≠ [])
    {name : String} (hname : '_' ∉ name.toList) : name ∉ ways.map Waypoint.name := by
  intro hmem
  obtain ⟨w, hw, rfl⟩ := List.mem_map.1 hmem
  exact hname (underscore_mem_name (hways w hw))

/-- Own names that have no `_` do not meet the names of waypoints. -/
theorem Introduces.nodup_iff {start : String} {lines : List JoinLine} {own : List String}
    {ways : List Waypoint} (h : Introduces start lines own ways) (hown : own.Nodup)
    (hplain : ∀ name ∈ own, '_' ∉ name.toList) (hstart : start ∉ own)
    (hways : ∀ w ∈ ways, w.along ≠ []) :
    (start :: lines.map JoinLine.name).Nodup ↔ (start :: ways.map Waypoint.name).Nodup := by
  rw [List.nodup_iff_count_le_one, List.nodup_iff_count_le_one]
  refine forall_congr' fun name => ?_
  rw [List.count_cons, List.count_cons, h.count]
  by_cases hname : name ∈ own
  · have hone := List.count_eq_one_of_mem hown hname
    have hzero := List.count_eq_zero.2 (Waypoint.notMem_names hways (hplain name hname))
    have hne : (start == name) = false := beq_false_of_ne fun he => hstart (he ▸ hname)
    simp [hone, hzero, hne]
  · rw [List.count_eq_zero.2 hname, Nat.zero_add]

/-- An own name is introduced once, for neither the root nor a waypoint is called so. -/
theorem Introduces.count_own {start name : String} {lines : List JoinLine} {own : List String}
    {ways : List Waypoint} (h : Introduces start lines own ways) (hown : own.Nodup)
    (hplain : ∀ name ∈ own, '_' ∉ name.toList) (hways : ∀ w ∈ ways, w.along ≠ [])
    (hname : name ∈ own) : (lines.map JoinLine.name).count name = 1 := by
  rw [h.count, List.count_eq_one_of_mem hown hname,
    List.count_eq_zero.2 (Waypoint.notMem_names hways (hplain name hname))]

namespace Statement

variable [Schema E] {purpose : Purpose} {o : Outline E} {conditions : List TextClause}
  {s : Statement} {ps ps' : Parameters}

/-- A statement introduces the aliases of its joins, and the waypoints on the way to them. -/
theorem joins_introduces (h : ofLevel purpose o conditions ps = .ok (s, ps')) :
    Introduces s.name s.joins (Join.ownNamesAll o.joins) (Join.waypointsAll s.name o.joins) := by
  rw [ofLevel, Binding.bind_eq_ok] at h
  obtain ⟨select?, ps₁, -, h⟩ := h
  rw [Binding.bind_eq_ok] at h
  obtain ⟨⟨joins, names⟩, ps₂, hj, h⟩ := h
  rw [Binding.bind_eq_ok] at h
  obtain ⟨ts, ps₃, -, h⟩ := h
  obtain ⟨rfl, rfl⟩ := Binding.pure_eq_ok.1 h
  exact Join.writeAll_introduces hj

/-- The joins of a statement start from the root or from a name that is introduced before.  If the
own names of its clauses are different and have no `_`, each of them is introduced once, and all
names are introduced once exactly if those of the waypoints are.  Where these are legible, that is
to say that no two paths from the same rows have a way in common. -/
theorem joins_introduced_once (h : ofLevel purpose o conditions ps = .ok (s, ps'))
    (hown : (Join.ownNamesAll o.joins).Nodup)
    (hplain : ∀ name ∈ Join.ownNamesAll o.joins, '_' ∉ name.toList)
    (hroot : s.name ∉ Join.ownNamesAll o.joins) :
    (∀ before line after, s.joins = before ++ line :: after → ∀ source segment,
      line.target = .relationship source segment →
      source = s.name ∨ source ∈ before.map JoinLine.name) ∧
    (∀ name ∈ Join.ownNamesAll o.joins, (s.joins.map JoinLine.name).count name = 1) ∧
    ((s.name :: s.joins.map JoinLine.name).Nodup ↔
      (s.name :: (Join.waypointsAll s.name o.joins).map Waypoint.name).Nodup) ∧
    ('_' ∉ s.name.toList → (∀ w ∈ Join.waypointsAll s.name o.joins, w.Legible) →
      ((s.name :: s.joins.map JoinLine.name).Nodup ↔
        (Join.waypointsAll s.name o.joins).Nodup)) := by
  have hi := joins_introduces h
  have hways : ∀ w ∈ Join.waypointsAll s.name o.joins, w.along ≠ [] := fun w hw =>
    Join.along_ne_nil_of_waypointsAll hw
  have hiff := hi.nodup_iff hown hplain hroot hways
  refine ⟨?_, fun name => hi.count_own hown hplain hways, hiff, fun hname hlegible => ?_⟩
  · intro before line after hlines source segment ht
    have hknown := hi.startsKnown [s.name] List.mem_cons_self before line after hlines
    exact (hknown source segment ht).imp List.mem_singleton.1 id
  · rw [hiff, List.nodup_cons, and_iff_right (Waypoint.notMem_names hways hname)]
    exact ⟨.of_map Waypoint.name, .map_on fun w hw w' hw' =>
      Waypoint.eq_of_name_eq (hlegible w hw) (hlegible w' hw')⟩

end Statement

/-! ## A way that is gone twice -/

namespace Kennel

/-- Dogs and their owners, whom a path leads to as well. -/
def dogsAndKeepers : Outline Kennel where
  root := .owner
  joins := [{ Join.ofTable "dogs" with
      alias? := some "d", nested := [{ Join.ofTable "owner" with alias? := some "o" }] },
    { Join.ofTable "dogs.owner" with alias? := some "k" }]

/-- The owners of the dogs along two paths. -/
def keepersTwice : Outline Kennel where
  root := .owner
  joins := [{ Join.ofTable "dogs.owner" with alias? := some "o" },
    { Join.ofTable "dogs.owner" with alias? := some "p" }]

theorem exists_joins (o : Outline Kennel) (names : List String)
    (h : (Statement.ofLevel .rows o [] []).map (fun p => p.1.name :: p.1.joins.map JoinLine.name) =
      .ok names) : ∃ s ps, Statement.ofLevel .rows o [] [] = .ok (s, ps) ∧
        s.name :: s.joins.map JoinLine.name = names := by
  obtain ⟨⟨s, ps⟩, hs, hnames⟩ := Result.map_eq_ok.1 h
  exact ⟨s, ps, hs, hnames⟩

/-- One path leads over the dogs, whose rows have another name beside it. -/
theorem joins_introduced_once_dogsAndKeepers : ∃ s ps,
    Statement.ofLevel .rows dogsAndKeepers [] [] = .ok (s, ps) ∧
    s.name :: s.joins.map JoinLine.name = ["owner", "d", "o", "owner_dogs", "k"] ∧
    (s.name :: s.joins.map JoinLine.name).Nodup := by
  obtain ⟨s, ps, hs, hnames⟩ := exists_joins dogsAndKeepers
    ["owner", "d", "o", "owner_dogs", "k"] (by decide +kernel)
  have hown : Join.ownNamesAll dogsAndKeepers.joins = ["d", "o", "k"] := by decide +kernel
  have hname : s.name = "owner" := (List.cons.inj hnames).1
  have hways : Join.waypointsAll "owner" dogsAndKeepers.joins = [⟨"owner", ["dogs"]⟩] := by
    decide +kernel
  have hnodup := (Statement.joins_introduced_once hs (by rw [hown]; decide) (by rw [hown]; decide)
    (by rw [hown, hname]; decide)).2.2.1
  rw [hname, hways] at hnodup
  refine ⟨s, ps, hs, hnames, ?_⟩
  rw [hname]
  exact hnodup.2 (by decide)

/-- Two paths over the dogs introduce the name of the dogs twice, although their own names are
different, have no `_` and are not that of the root. -/
theorem not_joins_introduced_once : ∃ s ps,
    Statement.ofLevel .rows keepersTwice [] [] = .ok (s, ps) ∧
    Join.ownNamesAll keepersTwice.joins = ["o", "p"] ∧
    s.name :: s.joins.map JoinLine.name = ["owner", "owner_dogs", "o", "owner_dogs", "p"] ∧
    ¬(s.joins.map JoinLine.name).Nodup := by
  obtain ⟨s, ps, hs, hnames⟩ := exists_joins keepersTwice
    ["owner", "owner_dogs", "o", "owner_dogs", "p"] (by decide +kernel)
  have hown : Join.ownNamesAll keepersTwice.joins = ["o", "p"] := by decide +kernel
  refine ⟨s, ps, hs, hown, hnames, ?_⟩
  rw [(List.cons.inj hnames).2]
  decide

end Kennel

end EntityQuery
