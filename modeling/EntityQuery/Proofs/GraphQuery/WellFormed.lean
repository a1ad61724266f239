import EntityQuery.GraphQuery.Query
import EntityQuery.Schema
import Mathlib.Data.List.Basic

/-! # Well-formed query graphs

A graph refers to the rows it ranges over by depth and position.  `GraphQuery.WellFormed` says that
all these references lead somewhere: to the root or to a join of the query at that depth, inside the
condition of a join to none that comes after it, and from there along attributes of the schema to
the type that the path declares.  It also says what forms expressions take: aggregates stand alone
in selections, the only function is one that the evaluation knows, and what an attribute is ordered
against is of its type. -/

namespace EntityQuery

variable {E : Type}

/-! ## Levels -/

/-- What a query ranges over: the rows of its root and of its joins. -/
structure Level (E : Type) where
  root : E
  joins : List (JoinNode E)

/-- What a plan ranges over. -/
def Plan.level (p : Plan E) : Level E := ⟨p.root, p.joins⟩

/-- The entity of the rows that a node names, if it names any. -/
def Level.entity? (l : Level E) : Node → Option E
  | .root => some l.root
  | .join index => l.joins[index]?.map JoinNode.entity

/-- The entity of rows of the query itself, which is the last level, or of one around it. -/
def Origin.entity? (levels : List (Level E)) (o : Origin) : Option E :=
  levels[o.depth]?.bind fun l => l.entity? o.node

/-- Joins that are added behind the others change nothing that was named. -/
theorem Level.entity?_append {root : E} {joins : List (JoinNode E)} {node : Node} {e : E}
    (h : Level.entity? ⟨root, joins⟩ node = some e) (more : List (JoinNode E)) :
    Level.entity? ⟨root, joins ++ more⟩ node = some e := by
  cases node with
  | root => exact h
  | join index =>
    obtain ⟨n, hn, rfl⟩ := Option.map_eq_some_iff.1 h
    refine Option.map_eq_some_iff.2 ⟨n, ?_, rfl⟩
    exact (List.getElem?_append_left (List.getElem?_eq_some_iff.1 hn).1).trans hn

/-- A join that is added is the last of the level. -/
theorem Level.entity?_next (root : E) (joins : List (JoinNode E)) (n : JoinNode E) :
    Level.entity? ⟨root, joins ++ [n]⟩ (.join joins.length) = some n.entity := by
  rw [entity?, List.getElem?_concat_length]
  rfl

namespace Origin

variable {outer levels : List (Level E)} {l : Level E} {o : Origin} {e : E}

/-- What leads somewhere leads there from further inside. -/
theorem entity?_append (h : o.entity? levels = some e) (more : List (Level E)) :
    o.entity? (levels ++ more) = some e := by
  obtain ⟨l, hl, he⟩ := Option.bind_eq_some_iff.1 h
  refine Option.bind_eq_some_iff.2 ⟨l, ?_, he⟩
  exact (List.getElem?_append_left (List.getElem?_eq_some_iff.1 hl).1).trans hl

theorem entity?_last (node : Node) (outer : List (Level E)) (l : Level E) :
    entity? (outer ++ [l]) ⟨outer.length, node⟩ = l.entity? node := by
  rw [entity?, List.getElem?_concat_length]
  rfl

/-- What leads somewhere leads there if the last level gets more joins. -/
theorem entity?_joins {root : E} {joins : List (JoinNode E)}
    (h : o.entity? (outer ++ [⟨root, joins⟩]) = some e) (more : List (JoinNode E)) :
    o.entity? (outer ++ [⟨root, joins ++ more⟩]) = some e := by
  obtain ⟨l, hl, he⟩ := Option.bind_eq_some_iff.1 h
  rcases Nat.lt_trichotomy o.depth outer.length with hd | hd | hd
  · refine Option.bind_eq_some_iff.2 ⟨l, ?_, he⟩
    rw [List.getElem?_append_left hd] at hl ⊢
    exact hl
  · obtain ⟨depth, node⟩ := o
    obtain rfl : depth = outer.length := hd
    rw [List.getElem?_concat_length] at hl
    obtain rfl := Option.some.inj hl
    rw [entity?_last]
    exact Level.entity?_append he more
  · rw [List.getElem?_eq_none (by rw [List.length_append]; exact hd)] at hl
    exact absurd hl nofun

end Origin

/-! ## Paths and expressions -/

/-- Attributes lead from an entity along relationships to an attribute of a type, or to rows, which
have none. -/
inductive Walks [Schema E] : E → List String → Option ScalarType → Prop
  | rows (e : E) : Walks e [] none
  | basic {e : E} {name : String} {a : Attribute E} {type : ScalarType}
      (ha : Schema.attribute? e name = some a) (ht : a.type? = some type) :
      Walks e [name] (some type)
  | relationship {e target : E} {name : String} {a : Attribute E} {rest : List String}
      {type? : Option ScalarType} (ha : Schema.attribute? e name = some a)
      (ht : a.target? = some target) (hr : Walks target rest type?) :
      Walks e (name :: rest) type?

variable [Schema E] (levels : List (Level E))

/-- A path starts at rows that are there and follows attributes to the type it declares. -/
def Path.WellFormed (p : Path) : Prop :=
  ∃ e, p.origin.entity? levels = some e ∧ Walks e p.attributes p.type?

/-- An expression that can be evaluated on every tuple. -/
inductive Expression.WellFormed : Expression → Prop
  | path {p : Path} (h : p.WellFormed levels) : WellFormed (.path p)
  | literal (v : Value) : WellFormed (.literal v)
  | findInSet {needle haystack : Expression} (hn : WellFormed needle) (hh : WellFormed haystack) :
      WellFormed (.call "find_in_set" [needle, haystack])

/-- Only a selection may be an aggregate. -/
def Selection.WellFormed (s : Selection) : Prop :=
  match s.expression with
  | .aggregate _ e => e.WellFormed levels
  | e => e.WellFormed levels

/-! ## Predicates -/

/-- The comparison asks which value is greater. -/
def Comparator.isOrdering : Comparator → Bool
  | .equal | .notEqual => false
  | .less | .lessOrEqual | .greater | .greaterOrEqual => true

/-- What an attribute is ordered against has the type of the attribute. -/
def Expression.OrdersInType (left : Expression) (comparator : Comparator) (right : Expression) :
    Prop :=
  ∀ p v type, left = .path p → right = .literal v → comparator.isOrdering →
    p.type? = some type → v.scalarType? = some type

/-- A query inside a predicate stands for its being well formed, given the levels around it. -/
def Predicate.WellFormed : Predicate (List (Level E) → Prop) → Prop
  | .compare left comparator right =>
    left.WellFormed levels ∧ right.WellFormed levels ∧ left.OrdersInType comparator right
  | .like subject pattern _ => subject.WellFormed levels ∧ pattern.WellFormed levels
  | .isNull e | .isNotNull e | .isIn e _ => e.WellFormed levels
  | .inSubQuery e query => e.WellFormed levels ∧ query levels
  | .exist query => query levels
  | .not p => WellFormed p
  | .and p q | .or p q => WellFormed p ∧ WellFormed q

/-! ## Graphs -/

/-- A join after the joins `before`: its rows start at the root or at one of those, and its
condition is on its own rows and on what comes before it. -/
structure JoinNode.WellFormed (outer : List (Level E)) (root : E) (before : List (JoinNode E))
    (n : JoinNode E) : Prop where
  parent : n.parent = .root ∨ ∃ index < before.length, n.parent = .join index
  relationship : n.kind = .relation → ∃ e a, Level.entity? ⟨root, before⟩ n.parent = some e ∧
    Schema.attribute? e n.via = some a ∧ a.target? = some n.entity
  on : ∀ p ∈ n.on?, (p.map Empty.elim).WellFormed (outer ++ [⟨root, before ++ [n]⟩])

/-- A plan inside the levels `outer`. -/
structure Plan.WellFormed (outer : List (Level E)) (p : Plan E) : Prop where
  depth : p.depth = outer.length
  aliases : (p.joins.map JoinNode.name).Nodup
  joins : ∀ before n after, p.joins = before ++ n :: after → n.WellFormed outer p.root before
  selections : ∀ s ∈ p.selections, s.WellFormed (outer ++ [p.level])
  orders : ∀ s ∈ p.orders, s.expression.WellFormed (outer ++ [p.level])
  groups : ∀ e ∈ p.groups, e.WellFormed (outer ++ [p.level])

/-- A graph inside the levels `outer`, and every graph in its condition one level deeper. -/
def GraphQuery.WellFormed : GraphQuery E → List (Level E) → Prop :=
  GraphQuery.interpret fun plan condition? outer =>
    plan.WellFormed outer ∧ ∀ p ∈ condition?, p.WellFormed (outer ++ [plan.level])

/-- A graph is well formed if its plan is, and its condition one level further inside. -/
theorem GraphQuery.wellFormed_iff {q : GraphQuery E} {outer : List (Level E)} :
    q.WellFormed outer ↔ q.plan.WellFormed outer ∧
      ∀ p ∈ q.condition?, (p.map GraphQuery.WellFormed).WellFormed (outer ++ [q.plan.level]) := by
  obtain ⟨plan, condition?⟩ := q
  cases condition? with
  | none => exact and_congr_right fun _ => ⟨nofun, nofun⟩
  | some p =>
    rw [WellFormed, interpret, interpretCondition, interpretPredicate_eq_map]
    refine and_congr_right fun _ => ⟨fun h q hq => ?_, fun h q hq => ?_⟩
    · rw [← Option.some.inj hq]
      exact h _ rfl
    · rw [← Option.some.inj hq]
      exact h _ rfl

end EntityQuery
