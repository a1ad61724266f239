import EntityQuery.Proofs.GraphQuery.Lookup
import EntityQuery.Proofs.Kennel
import Mathlib.Data.List.Nodup

/-! # Levels of joins and their nodes

The clauses of a query come to a list of levels: one for every segment of every path and one for
every entity, each before the levels inside it.  Levels are told apart by their aliases alone.  The
first level with an alias makes a node, and every later one stands for that node, whatever it
leads along and whatever its clause is made on (`Join.attachAll_represents`). -/

namespace EntityQuery

variable {E : Type}

/-! ## The levels of clauses -/

/-- What leads to the rows of a level. -/
inductive JoinWay (E : Type) where
  | relationship (segment : String)
  | entity (e : E)

/-- A level of a clause: the rows that one step of it leads to, under an alias. -/
structure JoinLevel (E : Type) where
  /-- The alias of the level. -/
  name : String
  /-- The alias of the level around this one, if that is not the root of the query. -/
  enclosing? : Option String
  way : JoinWay E
  /-- The clause that the level is of. -/
  clause : Join E
  /-- The path of the clause ends here. -/
  isLast : Bool

namespace Join

/-- The levels of a path, which starts at a level with an alias or at the root. -/
def levelsAlong (j : Join E) (enclosing? : Option String) : List String → List (JoinLevel E)
  | [] => []
  | segment :: rest =>
    let name := if rest.isEmpty then j.alias?.getD segment else segment
    ⟨name, enclosing?, .relationship segment, j, rest.isEmpty⟩ :: levelsAlong j (some name) rest

/-- The levels of a clause without those of the clauses inside it. -/
def ownLevels (j : Join E) (enclosing? : Option String) : List (JoinLevel E) :=
  match j.entity?, j.isCustom with
  | some e, true => [⟨j.key, enclosing?, .entity e, j, true⟩]
  | _, _ => j.levelsAlong enclosing? (Text.split '.' j.table)

/-- The alias of the last of some levels. -/
def lastName? (enclosing? : Option String) : List (JoinLevel E) → Option String
  | [] => enclosing?
  | l :: ls => lastName? (some l.name) ls

mutual

/-- The levels of a clause come before those of the clauses inside it. -/
def levels (enclosing? : Option String) : Join E → List (JoinLevel E)
  | ⟨table, alias?, operator, fieldJoin?, fieldReference?, entity?, conditions, nested⟩ =>
    let clause : Join E :=
      ⟨table, alias?, operator, fieldJoin?, fieldReference?, entity?, conditions, []⟩
    let own := clause.ownLevels enclosing?
    own ++ levelsAll (lastName? enclosing? own) nested

/-- The levels of clauses, all of which start at the same level. -/
def levelsAll (enclosing? : Option String) : List (Join E) → List (JoinLevel E)
  | [] => []
  | j :: js => levels enclosing? j ++ levelsAll enclosing? js

end

end Join

/-! ## The node of a level -/

namespace Joining

/-- The rows of the node with an alias, or else those of the root. -/
def rowsAt? (s : Joining E) : Option String → Option (Entry E)
  | none => some s.scope.rootEntry
  | some name => s.taken? name

/-- The nodes, and a scope that knows them. -/
def ofNodes (base : Scope E) (nodes : List (JoinNode E)) : Joining E :=
  nodes.foldl push ⟨[], base⟩

variable {s : Joining E} {name : String}

/-- Rows keep their alias when a node is pushed under a free one. -/
theorem rowsAt?_push {enclosing? : Option String} {rows : Entry E} {n : JoinNode E}
    (free : s.taken? n.name = none) (h : s.rowsAt? enclosing? = some rows) :
    (s.push n).rowsAt? enclosing? = some rows := by
  cases enclosing? with
  | none => exact h
  | some name =>
    have hne : name ≠ n.name := by
      rintro rfl
      exact absurd (free.symm.trans h) nofun
    rw [rowsAt?, taken?_push free, if_neg hne]
    exact h

/-- The last node is pushed last. -/
theorem ofNodes_concat (base : Scope E) (nodes : List (JoinNode E)) (n : JoinNode E) :
    ofNodes base (nodes ++ [n]) = (ofNodes base nodes).push n := by
  rw [ofNodes, List.foldl_concat]
  rfl

/-- An alias is taken by a node. -/
theorem mem_names_of_taken? (h : (s.taken? name).isSome) : name ∈ s.nodes.map JoinNode.name := by
  by_contra hn
  rw [taken?_eq_none.2 hn] at h
  cases h

end Joining

variable [Schema E]

/-- The condition of a node is the equality of a clause and all of its conditions, attached from
left to right. -/
def JoinNode.Carries (n : JoinNode E) (j : Join E) (scope : Scope E) (rows : Entry E) : Prop :=
  ∃ equality? conditions, j.equality? scope rows = .ok equality? ∧
    List.Forall₂ (fun c p => p.1 = c.attach ∧ c.predicate rows = .ok p.2) j.conditions conditions ∧
    n.on? = Predicate.both equality? (Predicate.fold conditions)

/-- A relationship is one of the rows of the enclosing level.  An entity is joined to the root,
wherever its clause stands. -/
def JoinNode.Leads (n : JoinNode E) (s : Joining E) (enclosing? : Option String) :
    JoinWay E → Prop
  | .relationship segment => n.kind = .relation ∧ n.via = segment ∧
      ∃ rows, s.rowsAt? enclosing? = some rows ∧ n.parent = rows.origin.node ∧
        (Schema.attribute? rows.entity segment).bind Attribute.target? = some n.entity
  | .entity e => n.kind = .entity ∧ n.via = Schema.name e ∧ n.parent = .root ∧ n.entity = e

/-- A node that represents a level behind the nodes made so far. -/
structure JoinLevel.Makes (s : Joining E) (l : JoinLevel E) (n : JoinNode E) : Prop where
  name : n.name = l.name
  operator : n.operator = l.clause.operator
  leads : n.Leads s l.enclosing? l.way
  carries : l.isLast → n.Carries l.clause s.scope (s.next n.entity)
  free : ¬l.isLast → n.on? = none

/-- Level by level, a node is made unless the alias is taken. -/
inductive Joining.Attaches : Joining E → List (JoinLevel E) → Joining E → Prop
  | nil (s : Joining E) : Attaches s [] s
  | taken {s s' : Joining E} {l : JoinLevel E} {ls : List (JoinLevel E)}
      (taken : (s.taken? l.name).isSome) (rest : Attaches s ls s') : Attaches s (l :: ls) s'
  | made {s s' : Joining E} {l : JoinLevel E} {ls : List (JoinLevel E)} {n : JoinNode E}
      (free : s.taken? l.name = none) (makes : l.Makes s n) (rest : Attaches (s.push n) ls s') :
      Attaches s (l :: ls) s'

namespace Joining

variable {s s' s'' : Joining E} {ls ls' : List (JoinLevel E)} {enclosing? : Option String}
  {rows : Entry E}

/-- Attaching can be continued. -/
theorem Attaches.append (h : Attaches s ls s') (h' : Attaches s' ls' s'') :
    Attaches s (ls ++ ls') s'' := by
  induction h with
  | nil => exact h'
  | taken taken _ ih => exact .taken taken (ih h')
  | made free makes _ ih => exact .made free makes (ih h')

/-- An alias keeps standing for the node that took it. -/
theorem Attaches.rowsAt? (h : Attaches s ls s') (hrows : s.rowsAt? enclosing? = some rows) :
    s'.rowsAt? enclosing? = some rows := by
  induction h with
  | nil => exact hrows
  | taken _ _ ih => exact ih hrows
  | made free makes _ ih => exact ih (rowsAt?_push (makes.name ▸ free) hrows)

end Joining

/-! ## Attaching goes level by level -/

/-- Conditions are translated one by one, each with how it is attached. -/
theorem JoinCondition.forall₂_predicates {cs : List JoinCondition} {rows : Entry E}
    {ps : List (Connective × Predicate Empty)} (h : predicates rows cs = .ok ps) :
    List.Forall₂ (fun c p => p.1 = c.attach ∧ c.predicate rows = .ok p.2) cs ps := by
  induction cs generalizing ps with
  | nil =>
    obtain rfl := Except.ok.inj h
    exact .nil
  | cons c cs ih =>
    obtain ⟨p, hp, h⟩ := Result.bind_eq_ok.1 h
    obtain ⟨rest, hrest, h⟩ := Result.bind_eq_ok.1 h
    obtain rfl := Result.pure_eq_ok.1 h
    exact .cons ⟨rfl, hp⟩ (ih hrest)

namespace Join

variable {j : Join E} {s s' : Joining E} {rows current parent : Entry E}
  {enclosing? : Option String}

/-- The condition of a node is what its clause says. -/
theorem carries_of_on? {n : JoinNode E} {scope : Scope E} (h : j.on? scope rows = .ok n.on?) :
    n.Carries j scope rows := by
  obtain ⟨equality?, he, h⟩ := Result.bind_eq_ok.1 h
  obtain ⟨conditions, hc, h⟩ := Result.bind_eq_ok.1 h
  exact ⟨equality?, conditions, he, JoinCondition.forall₂_predicates hc,
    (Result.pure_eq_ok.1 h).symm⟩

/-- An entity has one level. -/
theorem attachEntity_attaches {entity : E} (h : j.attachEntity s entity = .ok (s', rows)) :
    s.Attaches [⟨j.key, enclosing?, .entity entity, j, true⟩] s' ∧
      s'.taken? j.key = some rows := by
  rw [attachEntity] at h
  split at h
  · rename_i taken ht
    obtain ⟨rfl, rfl⟩ := Prod.mk.inj (Except.ok.inj h)
    exact ⟨.taken (by rw [ht]; rfl) (.nil s), ht⟩
  · rename_i free
    obtain ⟨on?, hon, h⟩ := Result.bind_eq_ok.1 h
    obtain ⟨rfl, rfl⟩ := Prod.mk.inj (Result.pure_eq_ok.1 h)
    have makes : JoinLevel.Makes s ⟨j.key, enclosing?, .entity entity, j, true⟩
        ⟨.root, Schema.name entity, entity, j.key, j.operator, .entity, on?⟩ := {
      name := rfl
      operator := rfl
      leads := ⟨rfl, rfl, rfl, rfl⟩
      carries := fun _ => carries_of_on? hon
      free := fun hlast => absurd rfl hlast }
    refine ⟨.made free makes (.nil _), ?_⟩
    rw [Joining.taken?_push free, if_pos rfl]

/-- The node of a segment is inside the level before it, and only the last of a path has the
condition of the clause. -/
theorem makes_segment {segment name : String} {target : E} {isLast : Bool}
    {on? : Option (Predicate Empty)} (hc : s.rowsAt? enclosing? = some current)
    (htarget : (Schema.attribute? current.entity segment).bind Attribute.target? = some target)
    (hon : isLast → j.on? s.scope (s.next target) = .ok on?) (hnone : ¬isLast → on? = none) :
    JoinLevel.Makes s ⟨name, enclosing?, .relationship segment, j, isLast⟩
      ⟨current.origin.node, segment, target, name, j.operator, .relation, on?⟩ where
  name := rfl
  operator := rfl
  leads := ⟨rfl, rfl, current, hc, rfl, htarget⟩
  carries he := carries_of_on? (hon he)
  free := hnone

/-- Along a path there is a level for each segment. -/
theorem attachSegments_attaches {segments : List String} (hc : s.rowsAt? enclosing? = some current)
    (h : j.attachSegments s current segments = .ok (s', rows)) :
    s.Attaches (j.levelsAlong enclosing? segments) s' ∧
      s'.rowsAt? (lastName? enclosing? (j.levelsAlong enclosing? segments)) = some rows := by
  induction segments generalizing s current enclosing? with
  | nil =>
    obtain ⟨rfl, rfl⟩ := Prod.mk.inj (Except.ok.inj h)
    exact ⟨.nil s, hc⟩
  | cons segment rest ih =>
    rw [attachSegments] at h
    rw [levelsAlong, lastName?]
    dsimp only at h ⊢
    generalize (if rest.isEmpty then j.alias?.getD segment else segment) = name at h ⊢
    split at h
    · rename_i taken ht
      have htaken : s.rowsAt? (some name) = some taken := ht
      obtain ⟨ha, hlast⟩ := ih htaken h
      exact ⟨.taken (by rw [ht]; rfl) ha, hlast⟩
    · rename_i free
      split at h
      · cases h
      · rename_i target htarget
        have step : ∀ on?, (rest.isEmpty → j.on? s.scope (s.next target) = .ok on?) →
            (¬rest.isEmpty → on? = none) →
            j.attachSegments (s.push ⟨current.origin.node, segment, target, name, j.operator,
              .relation, on?⟩) (s.next target) rest = .ok (s', rows) →
            s.Attaches (⟨name, enclosing?, .relationship segment, j, rest.isEmpty⟩ ::
              levelsAlong j (some name) rest) s' ∧
              s'.rowsAt? (lastName? (some name) (levelsAlong j (some name) rest)) = some rows := by
          intro on? hon hnone h
          have hnext : Joining.rowsAt? (s.push ⟨current.origin.node, segment, target, name,
              j.operator, .relation, on?⟩) (some name) = some (s.next target) := by
            rw [Joining.rowsAt?, Joining.taken?_push free, if_pos rfl]
          obtain ⟨ha, hlast⟩ := ih hnext h
          exact ⟨.made free (makes_segment hc htarget hon hnone) ha, hlast⟩
        split at h
        · rename_i hrest
          obtain ⟨on?, hon, h⟩ := Result.bind_eq_ok.1 h
          exact step on? (fun _ => hon) (fun he => absurd hrest he) h
        · rename_i hrest
          exact step none (fun he => absurd he hrest) (fun _ => rfl) h

theorem attachLevel_attaches (hp : s.rowsAt? enclosing? = some parent)
    (h : j.attachLevel s parent = .ok (s', rows)) :
    s.Attaches (j.ownLevels enclosing?) s' ∧
      s'.rowsAt? (lastName? enclosing? (j.ownLevels enclosing?)) = some rows := by
  rw [attachLevel] at h
  rw [ownLevels]
  split at h
  · generalize j.entity? = entity?, j.isCustom = custom at h ⊢
    cases entity? with
    | none => exact attachSegments_attaches hp h
    | some e =>
      cases custom with
      | false => exact attachSegments_attaches hp h
      | true => exact attachEntity_attaches h
  · cases h

mutual

/-- A join attaches its own levels and then those inside it. -/
theorem attach_attaches {j : Join E} {s s' : Joining E} {parent : Entry E}
    {enclosing? : Option String} (hp : s.rowsAt? enclosing? = some parent)
    (h : attach s parent j = .ok s') : s.Attaches (levels enclosing? j) s' := by
  match j with
  | ⟨table, alias?, operator, fieldJoin?, fieldReference?, entity?, conditions, nested⟩ =>
    rw [attach] at h
    obtain ⟨⟨here, rows⟩, hl, h⟩ := Result.bind_eq_ok.1 h
    obtain ⟨ha, hlast⟩ := attachLevel_attaches hp hl
    exact ha.append (attachAll_attaches hlast h)

/-- Attaching clauses is attaching their levels one after the other. -/
theorem attachAll_attaches {js : List (Join E)} {s s' : Joining E} {parent : Entry E}
    {enclosing? : Option String} (hp : s.rowsAt? enclosing? = some parent)
    (h : attachAll s parent js = .ok s') : s.Attaches (levelsAll enclosing? js) s' := by
  match js with
  | [] =>
    obtain rfl := Except.ok.inj h
    exact .nil s
  | j :: js =>
    rw [attachAll] at h
    obtain ⟨s₁, hj, h⟩ := Result.bind_eq_ok.1 h
    have ha := attach_attaches hp hj
    exact ha.append (attachAll_attaches (ha.rowsAt? hp) h)

end

end Join

/-! ## What is made in the end -/

namespace Joining

variable {base : Scope E} {s s' s'' : Joining E} {ls ls' : List (JoinLevel E)} {name : String}

/-- Attaching can be interrupted anywhere. -/
theorem Attaches.split (h : Attaches s (ls ++ ls') s'') :
    ∃ s', Attaches s ls s' ∧ Attaches s' ls' s'' := by
  induction ls generalizing s with
  | nil => exact ⟨s, .nil s, h⟩
  | cons l ls ih =>
    cases h with
    | taken taken rest =>
      obtain ⟨s', hs, hs'⟩ := ih rest
      exact ⟨s', .taken taken hs, hs'⟩
    | made free makes rest =>
      obtain ⟨s', hs, hs'⟩ := ih rest
      exact ⟨s', .made free makes hs, hs'⟩

/-- Nodes are only added, and the scope knows all of them. -/
theorem Attaches.grows (h : Attaches s ls s') (hs : s = ofNodes base s.nodes) :
    s' = ofNodes base s'.nodes ∧ ∃ later, s'.nodes = s.nodes ++ later := by
  induction h with
  | nil => exact ⟨hs, [], (List.append_nil _).symm⟩
  | taken _ _ ih => exact ih hs
  | @made s s' l ls n _ _ _ ih =>
    have hpush : s.push n = ofNodes base (s.push n).nodes := by
      rw [push, ofNodes_concat, ← hs]
      rfl
    obtain ⟨hs', later, hlater⟩ := ih hpush
    refine ⟨hs', n :: later, ?_⟩
    rw [hlater, push, List.append_assoc]
    rfl

/-- No two nodes have the same name. -/
theorem Attaches.nodup (h : Attaches s ls s') (hs : (s.nodes.map JoinNode.name).Nodup) :
    (s'.nodes.map JoinNode.name).Nodup := by
  induction h with
  | nil => exact hs
  | taken _ _ ih => exact ih hs
  | @made s s' l ls n free makes _ ih =>
    refine ih ?_
    have hn := taken?_eq_none.1 (makes.name ▸ free)
    rw [push, List.map_append, List.nodup_append_comm]
    exact List.nodup_cons.2 ⟨hn, hs⟩

/-- The aliases of the levels are those of the nodes. -/
theorem Attaches.mem_names (h : Attaches s ls s') : name ∈ s'.nodes.map JoinNode.name ↔
    name ∈ s.nodes.map JoinNode.name ∨ name ∈ ls.map JoinLevel.name := by
  induction h with
  | nil => simp
  | @taken s s' l ls taken _ ih =>
    have hl := mem_names_of_taken? taken
    rw [ih, List.map_cons, List.mem_cons]
    constructor
    · exact Or.imp_right .inr
    · rintro (hn | rfl | hn)
      · exact .inl hn
      · exact .inl hl
      · exact .inr hn
  | @made s s' l ls n _ makes _ ih =>
    rw [ih, push, List.map_append, List.mem_append, List.map_cons, List.map_cons, List.map_nil,
      List.mem_singleton, makes.name, List.mem_cons, or_assoc]

/-- The first level with an alias that is free makes a node behind those of the levels before. -/
theorem Attaches.exists_makes {before after : List (JoinLevel E)} {l : JoinLevel E}
    (h : Attaches s (before ++ l :: after) s') (hs : s = ofNodes base s.nodes)
    (hfree : l.name ∉ s.nodes.map JoinNode.name) (hfirst : l.name ∉ before.map JoinLevel.name) :
    ∃ earlier n later, s'.nodes = earlier ++ n :: later ∧ l.Makes (ofNodes base earlier) n ∧
      ∀ name, name ∈ earlier.map JoinNode.name ↔
        name ∈ s.nodes.map JoinNode.name ∨ name ∈ before.map JoinLevel.name := by
  obtain ⟨s₁, hbefore, h⟩ := h.split
  obtain ⟨hs₁, -⟩ := hbefore.grows hs
  cases h with
  | taken taken _ =>
    exact absurd (hbefore.mem_names.1 (mem_names_of_taken? taken)) (not_or.2 ⟨hfree, hfirst⟩)
  | @made _ _ _ _ n _ makes rest =>
    have hpush : s₁.push n = ofNodes base (s₁.push n).nodes := by
      rw [push, ofNodes_concat, ← hs₁]
      rfl
    obtain ⟨-, later, hlater⟩ := rest.grows hpush
    refine ⟨s₁.nodes, n, later, ?_, hs₁ ▸ makes, fun name => hbefore.mem_names⟩
    rw [hlater, push, List.append_assoc]
    rfl

end Joining

/-- The nodes of clauses have different aliases, which are those of the levels.  The node with an
alias represents the first level with it, and comes behind the nodes of the levels before. -/
theorem Join.attachAll_represents {base : Scope E} {js : List (Join E)} {s : Joining E}
    (h : attachAll ⟨[], base⟩ base.rootEntry js = .ok s) :
    (s.nodes.map JoinNode.name).Nodup ∧
    (∀ name, name ∈ s.nodes.map JoinNode.name ↔ name ∈ (levelsAll none js).map JoinLevel.name) ∧
    ∀ before l after, levelsAll none js = before ++ l :: after →
      l.name ∉ before.map JoinLevel.name →
      ∃ earlier n later, s.nodes = earlier ++ n :: later ∧
        l.Makes (Joining.ofNodes base earlier) n ∧
        ∀ name, name ∈ earlier.map JoinNode.name ↔ name ∈ before.map JoinLevel.name := by
  have ha : Joining.Attaches ⟨[], base⟩ (levelsAll none js) s := attachAll_attaches rfl h
  refine ⟨ha.nodup .nil, fun name => ?_, fun before l after hlevels hfirst => ?_⟩
  · rw [ha.mem_names]
    exact or_iff_right List.not_mem_nil
  · rw [hlevels] at ha
    obtain ⟨earlier, n, later, hnodes, hmakes, hnames⟩ :=
      ha.exists_makes rfl List.not_mem_nil hfirst
    refine ⟨earlier, n, later, hnodes, hmakes, fun name => ?_⟩
    rw [hnames]
    exact or_iff_right List.not_mem_nil

/-! ## Clauses that are not kept -/

namespace Kennel

def dogsAs (name : String) (nested : List (Join Kennel)) : Join Kennel :=
  { Join.ofTable "dogs" with alias? := some name, nested := nested }

def nameIs (name : String) : JoinCondition := ⟨"name", .equal, .string name, .and⟩

/-- Dogs, their owner if it is Ada, and the same dogs again. -/
def dogsOfAda : List (Join Kennel) :=
  [dogsAs "d" [(ownerAs "o").withCondition (nameIs "Ada")], dogsAs "d" []]

theorem levels_dogsOfAda : Join.levelsAll none dogsOfAda =
    [⟨"d", none, .relationship "dogs", dogsAs "d" [], true⟩,
      ⟨"o", some "d", .relationship "owner", (ownerAs "o").withCondition (nameIs "Ada"), true⟩,
      ⟨"d", none, .relationship "dogs", dogsAs "d" [], true⟩] := by
  rfl

/-- The nodes that joins of an owner make, as far as they are compared here. -/
def madeForOwner (js : List (Join Kennel)) : Result (List (String × String × Node × Bool)) :=
  (Join.attachAll ⟨[], .ofRoot owner⟩ (Scope.ofRoot owner).rootEntry js).map fun s =>
    s.nodes.map fun n => (n.name, n.via, n.parent, n.on?.isSome)

/-- The owner is represented behind the dogs, under the condition of its clause. -/
theorem attachAll_represents_dogsOfAda : ∃ s earlier n later,
    Join.attachAll ⟨[], .ofRoot owner⟩ (Scope.ofRoot owner).rootEntry dogsOfAda = .ok s ∧
    s.nodes.map JoinNode.name = ["d", "o"] ∧ s.nodes = earlier ++ n :: later ∧ n.name = "o" ∧
    n.Carries ((ownerAs "o").withCondition (nameIs "Ada"))
      (Joining.ofNodes (.ofRoot owner) earlier).scope
      ((Joining.ofNodes (.ofRoot owner) earlier).next n.entity) := by
  have h : (Join.attachAll ⟨[], .ofRoot owner⟩ (Scope.ofRoot owner).rootEntry dogsOfAda).map
      (fun s => s.nodes.map JoinNode.name) = .ok ["d", "o"] := by
    decide +kernel
  obtain ⟨s, hs, hnames⟩ := Result.map_eq_ok.1 h
  obtain ⟨earlier, n, later, hnodes, hn, -⟩ :=
    (Join.attachAll_represents hs).2.2 [_] _ [_] levels_dogsOfAda (by decide)
  exact ⟨s, earlier, n, later, hs, hnames, hnodes, hn.name, hn.carries rfl⟩

/-- The dogs, and then again if they are called Rex. -/
def dogsTwice : List (Join Kennel) := [dogsAs "d" [], (dogsAs "d" []).withCondition (nameIs "Rex")]

/-- Dogs and their owner under one alias. -/
def dogsAndOwner : List (Join Kennel) := [dogsAs "d" [ownerAs "d"]]

/-- All owners, joined from inside the dogs. -/
def dogsAndOwners : List (Join Kennel) := [dogsAs "d" [.onEntity owner "id" "d.id"]]

/-- A second clause under an alias that is taken leaves its condition and its relationship behind,
and an entity is joined to the root from inside a clause, too. -/
theorem not_attachAll_represents :
    (∃ s, Join.attachAll ⟨[], .ofRoot owner⟩ (Scope.ofRoot owner).rootEntry dogsTwice = .ok s ∧
      ∃ l ∈ Join.levelsAll none dogsTwice, l.isLast ∧ l.clause.conditions = [nameIs "Rex"] ∧
        ∀ n ∈ s.nodes, n.on? = none) ∧
    (∃ s, Join.attachAll ⟨[], .ofRoot owner⟩ (Scope.ofRoot owner).rootEntry dogsAndOwner = .ok s ∧
      ∃ l ∈ Join.levelsAll none dogsAndOwner, l.way = .relationship "owner" ∧
        ∀ n ∈ s.nodes, n.via ≠ "owner") ∧
    ∃ s, Join.attachAll ⟨[], .ofRoot owner⟩ (Scope.ofRoot owner).rootEntry dogsAndOwners = .ok s ∧
      ∃ l ∈ Join.levelsAll none dogsAndOwners, l.enclosing? = some "d" ∧
        ∀ n ∈ s.nodes, n.name = l.name → n.parent = .root := by
  have hmade (js : List (Join Kennel)) (made : List (String × String × Node × Bool))
      (h : madeForOwner js = .ok made) :
      ∃ s, Join.attachAll ⟨[], .ofRoot owner⟩ (Scope.ofRoot owner).rootEntry js = .ok s ∧
        ∀ n ∈ s.nodes, (n.name, n.via, n.parent, n.on?.isSome) ∈ made := by
    obtain ⟨s, hs, rfl⟩ := Result.map_eq_ok.1 h
    exact ⟨s, hs, fun n hn => List.mem_map_of_mem hn⟩
  refine ⟨?_, ?_, ?_⟩
  · obtain ⟨s, hs, hnodes⟩ := hmade dogsTwice [("d", "dogs", .root, false)] (by decide +kernel)
    have hon : ∀ m ∈ [("d", "dogs", Node.root, false)], m.2.2.2 = false := by decide
    exact ⟨s, hs, _, List.mem_cons_of_mem _ List.mem_cons_self, rfl, rfl, fun n hn =>
      Option.isSome_eq_false_iff.1 (hon _ (hnodes n hn)) |> Option.isNone_iff_eq_none.1⟩
  · obtain ⟨s, hs, hnodes⟩ := hmade dogsAndOwner [("d", "dogs", .root, false)] (by decide +kernel)
    have hvia : ∀ m ∈ [("d", "dogs", Node.root, false)], m.2.1 ≠ "owner" := by decide
    exact ⟨s, hs, _, List.mem_cons_of_mem _ List.mem_cons_self, rfl, fun n hn =>
      hvia _ (hnodes n hn)⟩
  · obtain ⟨s, hs, hnodes⟩ := hmade dogsAndOwners
      [("d", "dogs", .root, false), ("Owner", "Owner", .root, true)] (by decide +kernel)
    have hparent : ∀ m ∈ [("d", "dogs", Node.root, false), ("Owner", "Owner", .root, true)],
        m.2.2.1 = .root := by decide
    exact ⟨s, hs, _, List.mem_cons_of_mem _ List.mem_cons_self, rfl, fun n hn _ =>
      hparent _ (hnodes n hn)⟩

end Kennel

end EntityQuery
