import EntityQuery.Proofs.Projection.Alias
import EntityQuery.Proofs.Projection.Registration

/-! # The order of properties

The properties of a target are a map, which is gone through in an order that nothing is said about.
Where a path leads is told by the map alone (`Target.Offers`): to the whole of a property, through
the one with the longest name that the path goes on behind, or nowhere.  There is one way, and every
order of the properties finds it, at the target and at all targets behind it
(`Registry.projection_order_independent`). -/

namespace EntityQuery

variable {E T : Type}

namespace Target

variable {t t' : Target T} {path : List Char}

/-! ## Ways -/

/-- A name at the head of a path, with `_` or `.` and the rest behind it. -/
def GoesOn (name : String) (path rest : List Char) : Prop :=
  ∃ mark, (mark = '_' ∨ mark = '.') ∧ path = name.toList ++ mark :: rest

/-- A path goes on behind a name and a mark. -/
theorem goesOn_iff {name : String} {rest : List Char} :
    GoesOn name path rest ↔ after? name.toList path = some rest :=
  after?_eq_some.symm

/-- What a path addresses at a target. -/
inductive Way (T : Type) where
  | whole (p : Property T)
  | through (name : String) (p : Property T) (rest : List Char)
  | nowhere

/-- Where a path leads: to the property of this name, else through the property with the longest
name that the path goes on behind. -/
inductive Offers (t : Target T) (path : List Char) : Way T → Prop
  | whole {p : Property T} (h : (String.ofList path, p) ∈ t.properties) : Offers t path (.whole p)
  | through {name : String} {p : Property T} {rest : List Char}
      (hwhole : String.ofList path ∉ t.properties.map Prod.fst) (h : (name, p) ∈ t.properties)
      (hrest : GoesOn name path rest)
      (hlongest : ∀ q ∈ t.properties, ∀ rest', GoesOn q.1 path rest' → q.1.length ≤ name.length) :
      Offers t path (.through name p rest)
  | nowhere (hwhole : String.ofList path ∉ t.properties.map Prod.fst)
      (h : ∀ q ∈ t.properties, ∀ rest, ¬GoesOn q.1 path rest) : Offers t path .nowhere

/-- The ways that a target offers do not depend on the order of its properties. -/
theorem Reorders.offers_iff (h : t.Reorders t') {way : Way T} :
    t.Offers path way ↔ t'.Offers path way := by
  have hoffers : ∀ {t t' : Target T}, t.Reorders t' → t.Offers path way → t'.Offers path way := by
    intro t t' h hway
    have hnames := (h.properties.map Prod.fst).mem_iff (a := String.ofList path)
    cases hway with
    | whole hp => exact .whole (h.properties.mem_iff.1 hp)
    | through hwhole hp hrest hlongest =>
      exact .through (mt hnames.2 hwhole) (h.properties.mem_iff.1 hp) hrest fun q hq =>
        hlongest q (h.properties.mem_iff.2 hq)
    | nowhere hwhole hnone =>
      exact .nowhere (mt hnames.2 hwhole) fun q hq => hnone q (h.properties.mem_iff.2 hq)
  exact ⟨hoffers h, hoffers h.symm⟩

/-- On the way through a property the path gets shorter. -/
theorem Offers.shorter {name : String} {p : Property T} {rest : List Char}
    (h : t.Offers path (.through name p rest)) : rest.length < path.length := by
  cases h with
  | through hwhole hp hrest hlongest => exact length_after? (goesOn_iff.1 hrest)

/-- There is one way at most: two longest names at the head of a path are of one length, and so they
are the same. -/
theorem Offers.unique (ht : t.Unique) {way way' : Way T} (h : t.Offers path way)
    (h' : t.Offers path way') : way = way' := by
  cases h with
  | whole hp =>
    have hname := List.mem_map_of_mem (f := Prod.fst) hp
    cases h' with
    | whole hp' => rw [ht.inj hp hp']
    | through hwhole => exact absurd hname hwhole
    | nowhere hwhole => exact absurd hname hwhole
  | through hwhole hp hrest hlongest =>
    cases h' with
    | whole hp' => exact absurd (List.mem_map_of_mem (f := Prod.fst) hp') hwhole
    | through _ hp' hrest' hlongest' =>
      have hlength := Nat.le_antisymm (hlongest' _ hp _ hrest) (hlongest _ hp' _ hrest')
      obtain ⟨rfl, rfl⟩ := after?_inj (goesOn_iff.1 hrest) (goesOn_iff.1 hrest') hlength
      rw [ht.inj hp hp']
    | nowhere _ hnone => exact absurd hrest (hnone _ hp _)
  | nowhere hwhole hnone =>
    cases h' with
    | whole hp' => exact absurd (List.mem_map_of_mem (f := Prod.fst) hp') hwhole
    | through _ hp' hrest' => exact absurd hrest' (hnone _ hp' _)
    | nowhere => rfl

/-- A target offers a way for every path, if only that of an error. -/
theorem exists_offers (t : Target T) (path : List Char) : ∃ way, t.Offers path way := by
  by_cases hwhole : String.ofList path ∈ t.properties.map Prod.fst
  · obtain ⟨⟨name, p⟩, hp, rfl⟩ := List.mem_map.1 hwhole
    exact ⟨.whole p, .whole hp⟩
  · obtain ⟨hsome, hnone⟩ := cut?_spec t path
    cases hc : t.cut? path with
    | none =>
      refine ⟨.nowhere, .nowhere hwhole fun q hq rest hrest => ?_⟩
      exact absurd (hnone hc q hq) (by rw [goesOn_iff.1 hrest]; exact nofun)
    | some c =>
      have hlongest := hsome c hc
      refine ⟨.through c.name c.property c.rest, .through hwhole
        (List.mem_of_find?_eq_some hlongest.first) (goesOn_iff.2 hlongest.after)
        fun q hq rest hrest => hlongest.longest q hq ?_⟩
      rw [goesOn_iff.1 hrest]
      rfl

/-- The fold over the properties takes the way through the longest name. -/
theorem Offers.cut? (ht : t.Unique) {name : String} {p : Property T} {rest : List Char}
    (h : t.Offers path (.through name p rest)) :
    ∃ c, t.cut? path = some c ∧ c.name = name ∧ c.property = p ∧ c.rest = rest := by
  cases h with
  | through hwhole hp hrest hlongest =>
    have hafter := goesOn_iff.1 hrest
    obtain ⟨hsome, hnone⟩ := cut?_spec t path
    cases hc : t.cut? path with
    | none => exact absurd (hafter.symm.trans (hnone hc _ hp)) nofun
    | some c =>
      obtain ⟨rfl, hcrest⟩ := (hsome c hc).eq_of_longest hp hafter fun q hq hsome =>
        have ⟨rest', hrest'⟩ := Option.isSome_iff_exists.1 hsome
        hlongest q hq rest' (goesOn_iff.2 hrest')
      exact ⟨c, rfl, rfl, ht.inj (List.mem_of_find?_eq_some (hsome c hc).first) hp, hcrest⟩

/-- A path is not cut if it goes on behind no property. -/
theorem cut?_eq_none (h : ∀ q ∈ t.properties, ∀ rest, ¬GoesOn q.1 path rest) :
    t.cut? path = none := by
  refine Option.eq_none_iff_forall_ne_some.2 fun c hc => ?_
  have hlongest := (cut?_spec t path).1 c hc
  exact h _ (List.mem_of_find?_eq_some hlongest.first) _ (goesOn_iff.2 hlongest.after)

/-! ## What comes of a way -/

open Projectable

section Outcome

variable [Projectable T]

/-- A whole property takes the value, and a nested one or a collection that the path goes on through
takes it with the rest of the path.  A setter takes no rest: as where no way is, the error names the
path and nothing is set. -/
def Way.outcome (t : T) (slots : Slots) (path : List Char) (v : Value) :
    Way T → Slots × Option Error
  | .whole p => assign t slots (String.ofList path) p v
  | .nowhere => (slots, some (.setterMissing (String.ofList path) (target t).type))
  | .through name p rest =>
    match p with
    | .setter .. => (slots, some (.setterMissing (String.ofList path) (target t).type))
    | .collection .. =>
      if rest = [] then assign t slots name p v
      else (slots, some (.throughCollection (String.ofList rest) name (target t).type))
    | .nested slot child =>
      if rest = [] then assign t slots name p v
      else
        match enter? child (slots.get slot) with
        | none => (slots, some (.defaultMissing (target child).type))
        | some inner =>
          let (inner, e) := apply child inner rest v
          (slots.put slot (.one (target child).type inner), e)

/-- A path is applied by the way that is offered for it, of which there is one. -/
theorem apply_of_offers {t : T} {path : List Char} {way : Way T} (ht : (target t).Unique)
    (h : (target t).Offers path way) (slots : Slots) (v : Value) :
    apply t slots path v = way.outcome t slots path v := by
  cases way with
  | whole p =>
    cases h with
    | whole hp => exact apply_of_property (ht.property?_eq_some.2 hp)
  | nowhere =>
    cases h with
    | nowhere hwhole hnone =>
      rw [apply]
      simp only [property?_eq_none.2 hwhole, cut?_eq_none hnone, Way.outcome]
  | through name p rest =>
    obtain ⟨c, hcut, rfl, rfl, rfl⟩ := h.cut? ht
    cases h with
    | through hwhole =>
      rw [apply]
      simp only [property?_eq_none.2 hwhole, hcut, Way.outcome]
      cases c.property with
      | setter => simp only [ite_self]
      | nested => rfl
      | collection => rfl

end Outcome

/-! ## Two orders -/

/-- Targets that differ in the order of their properties alone. -/
structure Relists (P P' : Projectable T) : Prop where
  reorders : ∀ t, (P.target t).Reorders (P'.target t)
  unique : ∀ t, (P'.target t).Unique

section Orders

variable {P P' : Projectable T}

/-- Targets with the same properties in another order find the same by a name. -/
theorem Relists.property? (h : Relists P P') (t : T) (name : String) :
    (P.target t).property? name = (P'.target t).property? name :=
  (h.reorders t).property? (h.unique t) name

/-- Constructors are tried in the same order on both sides. -/
theorem construct_of_relists (h : Relists P P') (t : T) (v : Value) :
    @construct T P t v = @construct T P' t v := by
  simp only [construct, (h.reorders t).constructor?, (h.reorders t).default?, (h.reorders t).type]

theorem readProperty_of_relists (h : Relists P P') (t : T) (name : String) (type : ScalarType)
    (nullable : Bool) (v : Value) :
    @readProperty T P t name type nullable v = @readProperty T P' t name type nullable v := by
  simp only [readProperty, (h.reorders t).type]

mutual

/-- A value becomes the same instance on both sides. -/
theorem ofValue_of_relists (h : Relists P P') (t : T) (v : Value) :
    @ofValue T P t v = @ofValue T P' t v := by
  cases v with
  | record entity fields =>
    unfold ofValue
    rw [(h.reorders t).default?, (h.reorders t).type]
    cases (P'.target t).default? with
    | none => rfl
    | some slots => exact hydrate_of_relists h t slots fields
  | object o => simp only [ofValue, (h.reorders t).type, construct_of_relists h]
  | null | scalar | list => simp only [ofValue, construct_of_relists h]

theorem ofValues_of_relists (h : Relists P P') (t : T) (vs : List Value) :
    @ofValues T P t vs = @ofValues T P' t vs := by
  cases vs with
  | nil => rfl
  | cons v vs => simp only [ofValues, ofValue_of_relists h t v, ofValues_of_relists h t vs]

theorem hydrate_of_relists (h : Relists P P') (t : T) (slots : Slots)
    (fields : List (String × Value)) :
    @hydrate T P t slots fields = @hydrate T P' t slots fields := by
  cases fields with
  | nil => rfl
  | cons field fields =>
    obtain ⟨name, v⟩ := field
    unfold hydrate
    rw [h.property?]
    refine congrArg₂ Except.bind ?_ (funext fun slots => hydrate_of_relists h t slots fields)
    cases (P'.target t).property? name with
    | none => rfl
    | some p =>
      cases p with
      | setter slot type nullable =>
        exact congrArg (Except.map _) (readProperty_of_relists h t name type nullable v)
      | nested slot child =>
        dsimp only
        rw [(h.reorders child).type, ofValue_of_relists h child v]
      | collection slot child =>
        dsimp only
        rw [(h.reorders child).type]
        congr 1
        cases v with
        | null => rfl
        | scalar s => exact congrArg (Except.map _) (construct_of_relists h child _)
        | list items => exact ofValues_of_relists h child items
        | object o => exact congrArg (Except.map _) (ofValue_of_relists h child _)
        | record entity fields => exact congrArg (Except.map _) (ofValue_of_relists h child _)

end

theorem assign_of_relists (h : Relists P P') (t : T) (slots : Slots) (name : String)
    (p : Property T) (v : Value) :
    @assign T P t slots name p v = @assign T P' t slots name p v := by
  cases p with
  | setter slot type nullable => simp only [assign, readProperty_of_relists h]
  | nested slot child => simp only [assign, ofValue_of_relists h, (h.reorders child).type]
  | collection slot child =>
    unfold assign
    dsimp only
    simp only [ofValue_of_relists h, ofValues_of_relists h, (h.reorders child).type]

theorem enter?_of_relists (h : Relists P P') (child : T) (held : Slot) :
    @enter? T P child held = @enter? T P' child held := by
  cases held with
  | one type slots => rfl
  | scalar | absent | many => exact (h.reorders child).default?

/-- A way comes to the same on both sides, if all shorter paths do. -/
theorem Way.outcome_of_relists (h : Relists P P') (t : T) (slots : Slots) {path : List Char}
    (v : Value) {way : Way T} (hway : (P.target t).Offers path way)
    (hshorter : ∀ (child : T) (inner : Slots) (rest : List Char), rest.length < path.length →
      @apply T P child inner rest v = @apply T P' child inner rest v) :
    @Way.outcome T P t slots path v way = @Way.outcome T P' t slots path v way := by
  cases way with
  | whole p => exact assign_of_relists h t slots _ p v
  | nowhere => simp only [Way.outcome, (h.reorders t).type]
  | through name p rest =>
    have hrest := fun child inner => hshorter child inner rest hway.shorter
    cases p with
    | setter slot type nullable => simp only [Way.outcome, (h.reorders t).type]
    | collection slot child =>
      simp only [Way.outcome, (h.reorders t).type, assign_of_relists h]
    | nested slot child =>
      simp only [Way.outcome, assign_of_relists h, enter?_of_relists h, hrest,
        (h.reorders child).type]

-- By the length of the path: both orders take the same way, and the rest behind it is shorter.
/-- A path is applied alike on both sides. -/
theorem apply_of_relists (h : Relists P P') (t : T) (slots : Slots) (path : List Char)
    (v : Value) : @apply T P t slots path v = @apply T P' t slots path v := by
  obtain ⟨way, hway⟩ := exists_offers (P.target t) path
  have hway' : (P'.target t).Offers path way := (h.reorders t).offers_iff.1 hway
  rw [@apply_of_offers T P _ _ _ ((h.reorders t).unique (h.unique t)) hway,
    @apply_of_offers T P' _ _ _ (h.unique t) hway']
  exact Way.outcome_of_relists h t slots v hway fun child inner rest _ =>
    apply_of_relists h child inner rest v
termination_by path.length

theorem applyColumns_of_relists (h : Relists P P') (t : T) (slots : Slots) (index : Nat)
    (columns : List Column) :
    @applyColumns T P t slots index columns = @applyColumns T P' t slots index columns := by
  induction columns generalizing slots index with
  | nil => rfl
  | cons c columns ih =>
    unfold applyColumns
    simp only [(h.reorders t).type, apply_of_relists h, ih]

/-- A row becomes the same instance on both sides. -/
theorem ofRow_of_relists (h : Relists P P') (t : T) (row : Row) :
    @ofRow T P t row = @ofRow T P' t row := by
  have hbuild : @ofRow.build T P t row = @ofRow.build T P' t row := by
    simp only [ofRow.build, (h.reorders t).constructor?, (h.reorders t).default?,
      (h.reorders t).type, applyColumns_of_relists h]
  have hcolumns : ∀ v, @ofRow.ofColumns T P t row v = @ofRow.ofColumns T P' t row v := by
    intro v
    cases v <;> simp only [ofRow.ofColumns, (h.reorders t).type, hbuild]
  simp only [ofRow, ofValue_of_relists h, hcolumns]

end Orders

end Target

namespace Registry

variable {r : Registry T} {P P' : Projectable T}

/-- Two listings of one registry differ in their order only. -/
theorem Lists.relists (hP : r.Lists P) (hP' : r.Lists P') : Target.Relists P P' where
  reorders t := (hP t).trans (hP' t).symm
  unique t := (hP' t).unique (Target.unique_registered _ _)

/-- Rows are projected alike whatever order the properties of targets are in, and a value is set
alike at a path.  The registry alone tells the one way that the path leads at a target, and the
outcome is what comes of it. -/
theorem projection_order_independent (hP : r.Lists P) (hP' : r.Lists P') (t : T) :
    (∀ row, @Target.ofRow T P t row = @Target.ofRow T P' t row) ∧
    ∀ slots path v,
      @Target.apply T P t slots path v = @Target.apply T P' t slots path v ∧
      (∃! way, (r.target t).Offers path way) ∧
      ∀ way, (r.target t).Offers path way →
        @Target.apply T P t slots path v = @Target.Way.outcome T P t slots path v way := by
  have hunique : (r.target t).Unique := Target.unique_registered _ _
  refine ⟨Target.ofRow_of_relists (hP.relists hP') t, fun slots path v => ⟨?_, ?_, ?_⟩⟩
  · exact Target.apply_of_relists (hP.relists hP') t slots path v
  · obtain ⟨way, hway⟩ := Target.exists_offers (r.target t) path
    exact ⟨way, hway, fun way' hway' => hway'.unique hunique hway⟩
  · intro way hway
    exact @Target.apply_of_offers T P t path way ((hP t).unique hunique)
      ((hP t).offers_iff.2 hway) slots v

end Registry

/-! ## The properties of a horse in two orders -/

namespace Stable

open Target Schema

/-- The calls that register the types of a stable. -/
def registry : Registry Stable := ⟨Schema.name, registrations id⟩

/-- The attributes of every entity, the last one first. -/
@[reducible]
def backwards : Projectable Stable where
  target e :=
    let t := Schema.target id (Schema.name e) e
    { t with properties := t.properties.reverse }

theorem registry_lists : registry.Lists inferInstance := by
  intro e
  refine target_reorders id (Schema.name e) ?_
  cases e <;> decide

theorem registry_lists_backwards : registry.Lists backwards := by
  intro e
  have h := registry_lists e
  exact ⟨h.type, h.default?, h.constructors, (List.reverse_perm _).trans h.properties⟩

/-- The path goes on behind the keeper, and behind the longer name of a setter. -/
theorem offers_keeper_id_name : (registry.target horse).Offers "keeper_id_name".toList
    (.through "keeper_id" (.setter "keeper_id" (.integer .long) false) "name".toList) := by
  refine (registry_lists horse).offers_iff.1 (.through (by decide) (.tail _ (.tail _ (.head _)))
    ⟨'_', .inl rfl, by decide⟩ fun q hq _ _ => ?_)
  have hlengths : ∀ name ∈ (attributes horse).map Attribute.name, name.length ≤ 9 := by decide
  obtain ⟨a, ha, rfl⟩ := List.mem_map.1 hq
  exact hlengths a.name (List.mem_map_of_mem ha)

theorem projection_order_independent_of_keeper_id_name :
    registry.Lists inferInstance ∧ registry.Lists backwards ∧
    ofRow horse (Row.aliased [("keeper_id", .scalar seven)]) =
      @ofRow Stable backwards horse (Row.aliased [("keeper_id", .scalar seven)]) ∧
    apply horse (defaults horse) "keeper_id_name".toList (.string "Ada") =
      (defaults horse, some (.setterMissing "keeper_id_name" "Horse")) ∧
    @apply Stable backwards horse (defaults horse) "keeper_id_name".toList (.string "Ada") =
      (defaults horse, some (.setterMissing "keeper_id_name" "Horse")) := by
  obtain ⟨hrows, hpaths⟩ :=
    Registry.projection_order_independent registry_lists registry_lists_backwards horse
  obtain ⟨hsame, -, hoffers⟩ :=
    hpaths (defaults horse) "keeper_id_name".toList (.string "Ada")
  have happly := hoffers _ offers_keeper_id_name
  exact ⟨registry_lists, registry_lists_backwards, hrows _, happly, hsame.symm.trans happly⟩

end Stable

end EntityQuery
