import EntityQuery.Evaluation.Group
import EntityQuery.Proofs.Success
import EntityQuery.Proofs.Value.Equality
import EntityQuery.Proofs.Value.TypedOrder

/-! # Aggregates and the order of tuples

Of the values of one type, floating-point numbers apart, the number, the least and the greatest are
found whatever the order of the tuples is.  Decimals that differ only in their places are equal, and
either of them may be found. -/

namespace EntityQuery

namespace Aggregate

variable {frames : Frames} {e : Expression} {group group' : List Tuple} {v : Tuple → Value}

/-- The values that an aggregate is made of. -/
def arguments (v : Tuple → Value) (group : List Tuple) : List Value :=
  (group.map v).filter fun w => !w.isNull

/-- The operands of an aggregate are the values of its argument that are not null. -/
theorem operands_eq_arguments (h : ∀ t ∈ group, e.evaluate frames t = .ok (v t)) :
    operands frames e group = .ok (arguments v group) := by
  induction group with
  | nil => rfl
  | cons t ts ih =>
    obtain ⟨ht, hts⟩ := List.forall_mem_cons.1 h
    have hfilter : arguments v (t :: ts) =
        if (v t).isNull then arguments v ts else v t :: arguments v ts := by
      rw [arguments, List.map_cons, List.filter_cons]
      cases (v t).isNull <;> rfl
    rw [operands, ht, ih hts, hfilter]
    rfl

theorem ofGroup_eq (f : Aggregate) (h : ∀ t ∈ group, e.evaluate frames t = .ok (v t)) :
    ofGroup f frames e group = f.combine (arguments v group) := by
  rw [ofGroup, operands_eq_arguments h]
  rfl

/-- Operands come in the order of the tuples. -/
theorem arguments_perm (h : group'.Perm group) : (arguments v group').Perm (arguments v group) :=
  (h.map v).filter _

theorem scalarType?_of_mem_arguments {type : ScalarType} (h : ∀ t ∈ group, (v t).HasType type) :
    ∀ w ∈ arguments v group, w.scalarType? = some type := by
  intro w hw
  obtain ⟨hmem, hnull⟩ := List.mem_filter.1 hw
  obtain ⟨t, ht, rfl⟩ := List.mem_map.1 hmem
  rcases h t ht with hvt | hvt
  · rw [hvt] at hnull
    exact Bool.noConfusion hnull
  · exact hvt

/-! ## The least and the greatest -/

/-- The outcome of a comparison that is looked for: the least values come first in ascending
order, and the greatest in descending order. -/
def wanted : SortOrder → Ordering
  | .asc => .lt
  | .desc => .gt

variable {type : ScalarType} {vs ws : List Value} {a b m n : Value} {sort : SortOrder}

/-- What an extreme looks for is what sorting puts first. -/
theorem compare?_eq_wanted_iff (ha : a.scalarType? = some type) (hb : b.scalarType? = some type)
    (hf : type.isFloating = false) :
    a.compare? b = some (wanted sort) ↔ Value.compareAlong sort a b = .lt := by
  rw [Value.compare?_eq_some_compareKey ha hb hf, Option.some_inj]
  cases sort with
  | asc => rfl
  | desc => rw [wanted, Value.compareAlong, Ordering.swap_eq_lt]

theorem compare?_ne_swap_wanted_iff (ha : a.scalarType? = some type)
    (hb : b.scalarType? = some type) (hf : type.isFloating = false) :
    a.compare? b ≠ some (wanted sort).swap ↔ (Value.compareAlong sort a b).isLE := by
  rw [Value.compare?_eq_some_compareKey ha hb hf, Ne, Option.some_inj]
  cases sort with
  | asc => rw [wanted, Value.compareAlong]; cases Value.compareKey a b <;> decide
  | desc => rw [wanted, Value.compareAlong]; cases Value.compareKey a b <;> decide

/-- What is found is among the values, and none of them comes before it. -/
theorem foldl_extreme (hf : type.isFloating = false) (hb : b.scalarType? = some type)
    (hvs : ∀ w ∈ vs, w.scalarType? = some type)
    (hm : vs.foldl (fun best w => if w.compare? best = some (wanted sort) then w else best) b = m) :
    m ∈ b :: vs ∧ ∀ w ∈ b :: vs, (Value.compareAlong sort m w).isLE := by
  induction vs generalizing b with
  | nil =>
    obtain rfl : b = m := hm
    refine ⟨List.mem_singleton_self b, List.forall_mem_singleton.2 ?_⟩
    rw [Value.compareAlong_self]
    rfl
  | cons w vs ih =>
    obtain ⟨hw, hvs⟩ := List.forall_mem_cons.1 hvs
    have htyped : ∀ best, best.scalarType? = some type → ∀ u ∈ best :: vs, u.HasType type :=
      fun best hbest => List.forall_mem_cons.2 ⟨.inr hbest, fun u hu => .inr (hvs u hu)⟩
    rw [List.foldl_cons] at hm
    split at hm
    · rename_i hfirst
      have hwb : (Value.compareAlong sort w b).isLE := by
        rw [(compare?_eq_wanted_iff hw hb hf).1 hfirst]
        rfl
      obtain ⟨hmem, hle⟩ := ih hw hvs hm
      obtain ⟨hmw, hrest⟩ := List.forall_mem_cons.1 hle
      have hmb := Value.isLE_compareAlong_trans (htyped w hw m hmem) (.inr hw) (.inr hb) hf hmw hwb
      exact ⟨List.mem_cons_of_mem b hmem, List.forall_mem_cons.2 ⟨hmb, hle⟩⟩
    · rename_i hnot
      have hbw : (Value.compareAlong sort b w).isLE := by
        rw [compare?_eq_wanted_iff hw hb hf] at hnot
        rw [Value.compareAlong_swap sort w b]
        cases ho : Value.compareAlong sort w b with
        | lt => exact absurd ho hnot
        | eq | gt => rfl
      obtain ⟨hmem, hle⟩ := ih hb hvs hm
      obtain ⟨hmb, hrest⟩ := List.forall_mem_cons.1 hle
      have hmw := Value.isLE_compareAlong_trans (htyped b hb m hmem) (.inr hb) (.inr hw) hf hmb hbw
      refine ⟨?_, List.forall_mem_cons.2 ⟨hmb, List.forall_mem_cons.2 ⟨hmw, hrest⟩⟩⟩
      rcases List.mem_cons.1 hmem with rfl | hmem
      · exact List.mem_cons_self
      · exact List.mem_cons_of_mem b (List.mem_cons_of_mem w hmem)

/-- One of the values, if there are any, to which none of them compares in one way. -/
structure IsExtreme (excluded : Ordering) (vs : List Value) (m : Value) : Prop where
  null_iff : m = .null ↔ vs = []
  mem : vs ≠ [] → m ∈ vs
  extreme : ∀ w ∈ vs, m.compare? w ≠ some excluded

/-- The extreme of values of one type is one of them that no other is beyond. -/
theorem isExtreme_extreme (sort : SortOrder) (hf : type.isFloating = false)
    (hvs : ∀ w ∈ vs, w.scalarType? = some type) :
    IsExtreme (wanted sort).swap vs (extreme (wanted sort) vs) := by
  cases vs with
  | nil =>
    refine ⟨⟨fun _ => rfl, fun _ => rfl⟩, fun h => absurd rfl h, fun w hw => ?_⟩
    exact absurd hw List.not_mem_nil
  | cons b vs =>
    obtain ⟨hmem, hle⟩ := foldl_extreme hf (hvs b List.mem_cons_self)
      (fun w hw => hvs w (List.mem_cons_of_mem b hw)) rfl
    have htyped := hvs _ hmem
    refine ⟨⟨fun hnull => ?_, fun h => absurd h (List.cons_ne_nil b vs)⟩, fun _ => hmem,
      fun w hw => ?_⟩
    · rw [extreme] at hnull
      rw [hnull] at htyped
      cases htyped
    · exact (compare?_ne_swap_wanted_iff htyped (hvs w hw) hf).2 (hle w hw)

/-- Extremes of permuted values are equal, and the same unless they are decimals. -/
theorem IsExtreme.equals (hf : type.isFloating = false) (hvs : ∀ w ∈ vs, w.scalarType? = some type)
    (hperm : ws.Perm vs) (hm : IsExtreme (wanted sort).swap vs m)
    (hn : IsExtreme (wanted sort).swap ws n) : n.equals m ∧ (type ≠ .decimal → n = m) := by
  by_cases hnil : vs = []
  · obtain rfl := hm.null_iff.2 hnil
    obtain rfl := hn.null_iff.2 (hnil ▸ hperm).eq_nil
    exact ⟨rfl, fun _ => rfl⟩
  · have hmvs := hm.mem hnil
    have hnws := hn.mem fun h => hnil (h ▸ hperm).symm.eq_nil
    have hnvs := hperm.mem_iff.1 hnws
    have hmt := hvs m hmvs
    have hnt := hvs n hnvs
    have hmn := (compare?_ne_swap_wanted_iff hmt hnt hf).1 (hm.extreme n hnvs)
    have hnm := (compare?_ne_swap_wanted_iff hnt hmt hf).1 (hn.extreme m (hperm.mem_iff.2 hmvs))
    have heq : Value.compareAlong sort n m = .eq := by
      rw [Value.compareAlong_swap sort n m] at hmn
      revert hmn hnm
      cases Value.compareAlong sort n m <;> decide
    have hequal := (Value.compareAlong_eq_eq_iff (.inr hnt) (.inr hmt) hf sort).1 heq
    refine ⟨hequal, fun hd => ?_⟩
    obtain ⟨r, rfl, hr⟩ := Value.exists_scalar_of_scalarType? hnt
    obtain ⟨s, rfl, -⟩ := Value.exists_scalar_of_scalarType? hmt
    exact congrArg Value.scalar (Scalar.eq_of_equals (hr ▸ hf) (hr ▸ hd) hequal)

/-! ## Permuted tuples -/

/-- An aggregate comes to a value, and to an equal one for every other order of the tuples; it is
the same one if the values are no decimals. -/
structure OrderFree (f : Aggregate) (frames : Frames) (e : Expression) (type : ScalarType)
    (group : List Tuple) (m : Value) : Prop where
  value : ofGroup f frames e group = .ok m
  permuted : ∀ group', group'.Perm group → ∃ m', ofGroup f frames e group' = .ok m' ∧
    m'.equals m ∧ (type ≠ .decimal → m' = m)

/-- A count does not depend on any order. -/
theorem orderFree_count (hv : ∀ t ∈ group, e.evaluate frames t = .ok (v t)) :
    OrderFree .count frames e type group (.long (arguments v group).length) where
  value := ofGroup_eq .count hv
  permuted group' hperm := by
    have hv' : ∀ t ∈ group', e.evaluate frames t = .ok (v t) := fun t ht =>
      hv t (hperm.mem_iff.1 ht)
    refine ⟨_, (ofGroup_eq .count hv').trans ?_, ?_, fun _ => rfl⟩
    · rw [combine, (arguments_perm hperm).length_eq]
    · rw [Value.equals_self_iff, Value.long]
      split <;> rfl

/-- The least values are first in ascending order, and the greatest in descending order. -/
theorem orderFree_extreme (sort : SortOrder) {f : Aggregate}
    (hextreme : ∀ vs, f.combine vs = .ok (extreme (wanted sort) vs))
    (hv : ∀ t ∈ group, e.evaluate frames t = .ok (v t)) (htype : ∀ t ∈ group, (v t).HasType type)
    (hf : type.isFloating = false) : ∃ m, OrderFree f frames e type group m ∧
      IsExtreme (wanted sort).swap (arguments v group) m := by
  have hvs := scalarType?_of_mem_arguments htype
  have hm := isExtreme_extreme sort hf hvs
  refine ⟨_, ⟨(ofGroup_eq f hv).trans (hextreme _), fun group' hperm => ?_⟩, hm⟩
  have hv' : ∀ t ∈ group', e.evaluate frames t = .ok (v t) := fun t ht =>
    hv t (hperm.mem_iff.1 ht)
  have hws := scalarType?_of_mem_arguments fun t ht => htype t (hperm.mem_iff.1 ht)
  exact ⟨_, (ofGroup_eq f hv').trans (hextreme _),
    hm.equals hf hvs (arguments_perm hperm) (isExtreme_extreme sort hf hws)⟩

/-- The number, the least and the greatest of typed values, whatever the order of the tuples. -/
theorem order_independent (hv : ∀ t ∈ group, e.evaluate frames t = .ok (v t))
    (htype : ∀ t ∈ group, (v t).HasType type) (hf : type.isFloating = false) :
    OrderFree .count frames e type group (.long (arguments v group).length) ∧
    (∃ least, OrderFree .min frames e type group least ∧
      IsExtreme .gt (arguments v group) least) ∧
    ∃ greatest, OrderFree .max frames e type group greatest ∧
      IsExtreme .lt (arguments v group) greatest :=
  ⟨orderFree_count hv, orderFree_extreme .asc (fun _ => rfl) hv htype hf,
    orderFree_extreme .desc (fun _ => rfl) hv htype hf⟩

end Aggregate

/-! ## Ages -/

namespace Kennel

def ofAge (age : Value) : Tuple := [some ⟨"Owner", [("age", age)]⟩]

/-- The age of the second is not known. -/
def ofThreeAges : List Tuple := [ofAge (.long 40), ofAge .null, ofAge (.long 30), ofAge (.long 40)]

def ageOf : Path := ⟨⟨0, .root⟩, ["age"], some (.integer .long)⟩

theorem order_independent_of_ages : ∃ least greatest,
    Aggregate.OrderFree .count [] (.path ageOf) (.integer .long) ofThreeAges (.long 3) ∧
    Aggregate.OrderFree .min [] (.path ageOf) (.integer .long) ofThreeAges least ∧
    Aggregate.OrderFree .max [] (.path ageOf) (.integer .long) ofThreeAges greatest ∧
    Aggregate.IsExtreme .gt [.long 40, .long 30, .long 40] least ∧
    Aggregate.IsExtreme .lt [.long 40, .long 30, .long 40] greatest := by
  have hv : ∀ t ∈ ofThreeAges, (Expression.path ageOf).evaluate [] t = .ok (ageOf.value [] t) :=
    fun _ _ => rfl
  have htype : ∀ t ∈ ofThreeAges, (ageOf.value [] t).HasType (.integer .long) := by
    decide +kernel
  have harguments : Aggregate.arguments (ageOf.value []) ofThreeAges =
      [.long 40, .long 30, .long 40] := rfl
  obtain ⟨hcount, ⟨least, hmin, hleast⟩, greatest, hmax, hgreatest⟩ :=
    Aggregate.order_independent hv htype rfl
  rw [harguments] at hcount hleast hgreatest
  exact ⟨least, greatest, hcount, hmin, hmax, hleast, hgreatest⟩

end Kennel

end EntityQuery
