import EntityQuery.Projection.Path
import Mathlib.Data.List.Induction

/-! # Ways through a path -/

namespace EntityQuery

variable {E T : Type}

namespace Target

/-! ## The longest name -/

/-- Behind a name there is an underscore or a point, and then the rest. -/
theorem after?_eq_some {name path rest : List Char} :
    after? name path = some rest ↔ ∃ c, (c = '_' ∨ c = '.') ∧ path = name ++ c :: rest := by
  rw [after?]
  constructor
  · intro h
    split at h
    · rename_i hprefix
      obtain ⟨tail, rfl⟩ := List.isPrefixOf_iff_prefix.1 hprefix
      rw [List.drop_left] at h
      cases tail with
      | nil => cases h
      | cons c tail =>
        dsimp only at h
        split at h
        · rename_i hc
          obtain rfl := Option.some.inj h
          exact ⟨c, hc, rfl⟩
        · cases h
    · cases h
  · rintro ⟨c, hc, rfl⟩
    rw [if_pos (List.isPrefixOf_iff_prefix.2 ⟨_, rfl⟩), List.drop_left]
    exact if_pos hc

/-- Of the names that the path can be cut after, the first among the longest is taken. -/
structure Longest (properties : List (String × Property T)) {path : List Char}
    (c : Cut T path) : Prop where
  after : after? c.name.toList path = some c.rest
  first : properties.find? (fun p => p.1 = c.name) = some (c.name, c.property)
  longest : ∀ p ∈ properties, (after? p.1.toList path).isSome → p.1.length ≤ c.name.length

/-- A cut is behind the name of its property. -/
theorem cutAfter?_eq_some {path : List Char} {p : String × Property T} {c : Cut T path}
    (h : cutAfter? path p = some c) :
    p = (c.name, c.property) ∧ after? c.name.toList path = some c.rest := by
  rw [cutAfter?] at h
  split at h
  · rename_i hafter
    obtain rfl := Option.some.inj h
    exact ⟨rfl, hafter⟩
  · cases h

theorem cutAfter?_eq_none {path : List Char} {p : String × Property T} :
    cutAfter? path p = none ↔ after? p.1.toList path = none := by
  rw [cutAfter?]
  split <;> simp [*]

namespace Longest

variable {properties : List (String × Property T)} {p : String × Property T} {path : List Char}
  {b c : Cut T path}

/-- A longest cut stays so if no longer name comes. -/
theorem append (h : Longest properties b)
    (hp : (after? p.1.toList path).isSome → p.1.length ≤ b.name.length) :
    Longest (properties ++ [p]) b where
  after := h.after
  first := by rw [List.find?_append, h.first, Option.some_or]
  longest := by
    rw [List.forall_mem_append, List.forall_mem_singleton]
    exact ⟨h.longest, hp⟩

/-- A longer name makes the longest cut. -/
theorem of_cutAfter? (hp : cutAfter? path p = some c)
    (hlt : ∀ p ∈ properties, (after? p.1.toList path).isSome → p.1.length < c.name.length) :
    Longest (properties ++ [p]) c where
  after := (cutAfter?_eq_some hp).2
  first := by
    obtain ⟨rfl, hafter⟩ := cutAfter?_eq_some hp
    have hnone : properties.find? (fun p => p.1 = c.name) = none := by
      refine List.find?_eq_none.2 fun p hmem hname => ?_
      have hname : p.1 = c.name := of_decide_eq_true hname
      exact absurd (hlt p hmem (by simp [hname, hafter])) (by simp [hname])
    simp [List.find?_append, hnone]
  longest := by
    obtain ⟨rfl, -⟩ := cutAfter?_eq_some hp
    rw [List.forall_mem_append, List.forall_mem_singleton]
    exact ⟨fun p hmem hsome => Nat.le_of_lt (hlt p hmem hsome), fun _ => Nat.le_refl _⟩

end Longest

/-- The fold over the properties finds it, wherever it stands among them. -/
theorem cut?_spec (t : Target T) (path : List Char) :
    (∀ c, t.cut? path = some c → Longest t.properties c) ∧
    (t.cut? path = none → ∀ p ∈ t.properties, after? p.1.toList path = none) := by
  rw [cut?]
  generalize t.properties = properties
  induction properties using List.reverseRecOn with
  | nil => simp
  | append_singleton properties p ih =>
    rw [List.filterMap_append, List.foldl_append]
    generalize (properties.filterMap (cutAfter? path)).foldl longer none = best? at ih
    obtain ⟨hsome, hnone⟩ := ih
    cases hp : cutAfter? path p with
    | none =>
      have hafter := cutAfter?_eq_none.1 hp
      rw [List.filterMap_cons_none hp, List.filterMap_nil, List.foldl_nil]
      refine ⟨fun b hb => (hsome b hb).append (by simp [hafter]), fun h => ?_⟩
      rw [List.forall_mem_append, List.forall_mem_singleton]
      exact ⟨hnone h, hafter⟩
    | some c =>
      rw [List.filterMap_cons_some hp, List.filterMap_nil, List.foldl_cons, List.foldl_nil]
      cases best? with
      | none =>
        refine ⟨fun b hb => ?_, fun h => by cases h⟩
        obtain rfl := Option.some.inj hb
        exact .of_cutAfter? hp fun p hmem h => absurd h (by simp [hnone rfl p hmem])
      | some b =>
        have hb := hsome b rfl
        rw [longer]
        split
        · rename_i hlt
          refine ⟨fun b' hb' => ?_, fun h => by cases h⟩
          obtain rfl := Option.some.inj hb'
          exact .of_cutAfter? hp fun p hmem h => Nat.lt_of_le_of_lt (hb.longest p hmem h) hlt
        · rename_i hle
          refine ⟨fun b' hb' => ?_, fun h => by cases h⟩
          obtain rfl := Option.some.inj hb'
          obtain ⟨rfl, -⟩ := cutAfter?_eq_some hp
          exact hb.append fun _ => Nat.le_of_not_lt hle

/-- Two names of one length that a path can be cut after are the same. -/
theorem after?_inj {name name' : String} {path rest rest' : List Char}
    (h : after? name.toList path = some rest) (h' : after? name'.toList path = some rest')
    (hlength : name.length = name'.length) : name = name' ∧ rest = rest' := by
  obtain ⟨c, -, hpath⟩ := after?_eq_some.1 h
  obtain ⟨c', -, hpath'⟩ := after?_eq_some.1 h'
  have htoList : name.toList.length = name'.toList.length := by
    simpa only [String.length_toList] using hlength
  obtain ⟨hname, hrest⟩ := List.append_inj (hpath.symm.trans hpath') htoList
  exact ⟨String.toList_inj.1 hname, (List.cons.inj hrest).2⟩

/-! ## One step along a path -/

/-- The longest cut is behind the longest name that the path goes on behind. -/
theorem Longest.eq_of_longest {properties : List (String × Property T)} {path rest : List Char}
    {c : Cut T path} {p : String × Property T} (h : Longest properties c) (hp : p ∈ properties)
    (hafter : after? p.1.toList path = some rest)
    (hle : ∀ q ∈ properties, (after? q.1.toList path).isSome → q.1.length ≤ p.1.length) :
    c.name = p.1 ∧ c.rest = rest := by
  have hc : c.name.length ≤ p.1.length :=
    hle _ (List.mem_of_find?_eq_some h.first) (by simp [h.after])
  have hp' : p.1.length ≤ c.name.length := h.longest p hp (by simp [hafter])
  exact after?_inj h.after hafter (Nat.le_antisymm hc hp')

variable [Projectable T]

open Projectable

/-- A path that is the name of a property sets it, and is not cut. -/
theorem apply_of_property {t : T} {slots : Slots} {path : List Char} {v : Value} {p : Property T}
    (h : (target t).property? (String.ofList path) = some p) :
    apply t slots path v = assign t slots (String.ofList path) p v := by
  rw [apply]
  simp only [h]

/-- A path that goes on through a nested property is the rest of the path on what it holds. -/
theorem apply_of_nested {t child : T} {slots inner : Slots} {path : List Char} {v : Value}
    {c : Cut T path} {slot : String}
    (hwhole : (target t).property? (String.ofList path) = none)
    (hcut : (target t).cut? path = some c) (hrest : c.rest ≠ [])
    (hproperty : c.property = .nested slot child)
    (hinner : enter? child (slots.get slot) = some inner) :
    apply t slots path v =
      (slots.put slot (.one (target child).type (apply child inner c.rest v).1),
        (apply child inner c.rest v).2) := by
  rw [apply]
  simp only [hwhole, hcut, hrest, hproperty, hinner, if_false]

end Target

end EntityQuery
