import EntityQuery.GraphQuery.Join
import EntityQuery.Proofs.Arena.Joins
import EntityQuery.Proofs.Kennel
import EntityQuery.Proofs.Success

/-! # Dotted joins and deep joins

A path can be joined by one clause, with the path as its table, or by clauses that are one inside
the other, one for every segment.  Segment by segment both make the same node, stand for the same
node if the alias is taken, or are refused for the same reason
(`JoinArena.attach?_deep_eq_dotted`). -/

namespace EntityQuery

variable {E : Type}

namespace Join

/-- The join of a path in one clause. -/
def dotted (path : String) (alias? : Option String) (operator : JoinOperator) : Join E :=
  { ofTable path with alias? := alias?, operator := operator }

variable [Schema E] {s : Joining E} {parent : Entry E} {path : String} {alias? : Option String}
  {operator : JoinOperator}

/-! ## One segment -/

/-- A clause without an equality and without conditions is made on nothing. -/
theorem on?_dotted (path : String) (alias? : Option String) (operator : JoinOperator)
    (scope : Scope E) (rows : Entry E) :
    (dotted path alias? operator).on? scope rows = .ok none := rfl

/-- The path of a clause counts only by its segments. -/
theorem attachSegments_dotted (path path' : String) (s : Joining E) (current : Entry E)
    (segments : List String) :
    (dotted path alias? operator).attachSegments s current segments =
      (dotted path' alias? operator).attachSegments s current segments := by
  induction segments generalizing s current with
  | nil => rfl
  | cons segment rest ih =>
    simp only [attachSegments, on?_dotted, ih]
    rfl

/-- A dotted path without empty segments is attached segment by segment. -/
theorem attachLevel_dotted (hpath : ∀ segment ∈ Text.split '.' path, segment ≠ "") :
    (dotted path alias? operator).attachLevel s parent =
      (dotted path alias? operator).attachSegments s parent (Text.split '.' path) := by
  have hhas : (dotted path alias? operator : Join E).hasPath := by
    rw [hasPath, List.all_eq_true]
    intro segment hsegment
    exact decide_eq_true (hpath segment hsegment)
  rw [attachLevel, if_pos hhas]
  rfl

/-- A segment before the last one is joined as a clause of its own would be. -/
theorem attachSegments_cons (j : Join E) (s : Joining E) (current : Entry E) (segment : String)
    {rest : List String} (hrest : rest ≠ []) :
    j.attachSegments s current (segment :: rest) =
      (dotted segment none j.operator).attachSegments s current [segment] >>= fun p =>
        j.attachSegments p.1 p.2 rest := by
  have hempty : rest.isEmpty = false := by
    simpa using hrest
  have hname : (dotted segment none j.operator : Join E).alias?.getD segment = segment := rfl
  simp only [attachSegments, hempty, Bool.false_eq_true, if_false, List.isEmpty_nil, if_true,
    on?_dotted, hname]
  cases s.taken? segment with
  | some rows => rfl
  | none => cases (Schema.attribute? current.entity segment).bind Attribute.target? <;> rfl

/-! ## The whole path -/

/-- Attaching a join is attaching its own level, and then what is inside it. -/
theorem attach_eq (s : Joining E) (parent : Entry E) (j : Join E) :
    attach s parent j = j.level.attachLevel s parent >>= fun p => attachAll p.1 p.2 j.nested := by
  cases j
  rfl

theorem attachAll_singleton (s : Joining E) (parent : Entry E) (j : Join E) :
    attachAll s parent [j] = attach s parent j := by
  rw [attachAll]
  cases attach s parent j <;> rfl

/-- Joins are attached from left to right. -/
theorem attachAll_append (s : Joining E) (parent : Entry E) (js ks : List (Join E)) :
    attachAll s parent (js ++ ks) = attachAll s parent js >>= fun s => attachAll s parent ks := by
  induction js generalizing s with
  | nil => rfl
  | cons j js ih =>
    simp only [List.cons_append, attachAll, ih, bind_assoc]

/-- A chain of clauses is joined segment by segment. -/
theorem attach_chain {segments : List String} (hne : segments ≠ [])
    (hsegments : ∀ segment ∈ segments, segment ≠ "" ∧ '.' ∉ segment.toList) :
    attach s parent (chain alias? operator segments) =
      ((dotted path alias? operator).attachSegments s parent segments).map Prod.fst := by
  have hlevel {segment : String} (hsegment : segment ≠ "" ∧ '.' ∉ segment.toList)
      (alias? : Option String) (s : Joining E) (parent : Entry E) :
      (dotted segment alias? operator).attachLevel s parent =
        (dotted segment alias? operator).attachSegments s parent [segment] := by
    have hsplit := Text.split_of_notMem hsegment.2
    rw [attachLevel_dotted, hsplit]
    rw [hsplit]
    exact List.forall_mem_singleton.2 hsegment.1
  induction segments generalizing s parent with
  | nil => exact absurd rfl hne
  | cons segment rest ih =>
    obtain ⟨hsegment, hrest⟩ := List.forall_mem_cons.1 hsegments
    rw [attach_eq]
    cases rest with
    | nil =>
      change (dotted segment alias? operator).attachLevel s parent >>= (fun p => .ok p.1) = _
      rw [hlevel hsegment, attachSegments_dotted segment path]
      cases (dotted path alias? operator).attachSegments s parent [segment] <;> rfl
    | cons next rest =>
      change (dotted segment none operator).attachLevel s parent >>= (fun p =>
        attachAll p.1 p.2 [chain alias? operator (next :: rest)]) = _
      rw [hlevel hsegment, attachSegments_cons _ s parent segment (List.cons_ne_nil next rest)]
      change _ = Except.map Prod.fst ((dotted segment none operator).attachSegments s parent
        [segment] >>= _)
      cases (dotted segment none operator).attachSegments s parent [segment] with
      | error e => rfl
      | ok p =>
        change attachAll p.1 p.2 [chain alias? operator (next :: rest)] = _
        rw [attachAll_singleton]
        exact ih (List.cons_ne_nil next rest) hrest

/-- Both ways to join a path come to the same nodes and names, or to the same refusal. -/
theorem attach_deep_eq_dotted (hpath : ∀ segment ∈ Text.split '.' path, segment ≠ "") :
    attach s parent (deep path alias? operator) =
      attach s parent (dotted path alias? operator) := by
  have hne : Text.split '.' path ≠ [] := by
    simp [Text.split, Text.pieces_ne_nil]
  have hsegments : ∀ segment ∈ Text.split '.' path, segment ≠ "" ∧ '.' ∉ segment.toList := by
    intro segment hsegment
    refine ⟨hpath segment hsegment, ?_⟩
    obtain ⟨piece, hpiece, rfl⟩ := List.mem_map.1 hsegment
    rw [String.toList_ofList]
    exact Text.not_mem_of_mem_pieces hpiece
  rw [deep, attach_chain hne hsegments, attach_eq (j := dotted path alias? operator)]
  change _ = (dotted path alias? operator).attachLevel s parent >>= fun p => .ok p.1
  rw [attachLevel_dotted hpath]
  cases (dotted path alias? operator).attachSegments s parent (Text.split '.' path) <;> rfl

end Join

/-! ## Among other clauses -/

namespace JoinArena

variable [Schema E]

/-- The nodes that the clauses of an arena make, and the scope that knows them. -/
def attach? (a : JoinArena E) (base : Scope E) : Option (Result (Joining E)) :=
  a.joins?.map (Join.attachAll ⟨[], base⟩ base.rootEntry)

/-- Attaching out of an arena is attaching the trees that were added to it. -/
theorem attach?_addAll (base : Scope E) (js : List (Join E)) :
    (empty.addAll js).attach? base = some (Join.attachAll ⟨[], base⟩ base.rootEntry js) := by
  rw [attach?, joins?_addAll, Option.map_some]

/-- Wherever a path stands among other clauses, whether it is joined by one clause or by one inside
the other makes no difference to what all clauses together come to. -/
theorem attach?_deep_eq_dotted (base : Scope E) (before after : List (Join E)) {path : String}
    (hpath : ∀ segment ∈ Text.split '.' path, segment ≠ "") (alias? : Option String)
    (operator : JoinOperator) :
    ∃ outcome,
      (empty.addAll (before ++ .dotted path alias? operator :: after)).attach? base =
        some outcome ∧
      (empty.addAll (before ++ .deep path alias? operator :: after)).attach? base =
        some outcome := by
  refine ⟨_, attach?_addAll base _, ?_⟩
  rw [attach?_addAll, Join.attachAll_append, Join.attachAll_append]
  simp only [Join.attachAll, Join.attach_deep_eq_dotted hpath]

end JoinArena

namespace Kennel

/-- Dogs, with the keeper of each as `o`, and then the dogs of their owners. -/
def keepersAs (join : Join Kennel) : List (Join Kennel) :=
  [.ofTable "dogs"] ++ join :: [.dotted "dogs.owner.dogs" none .inner]

/-- The dogs of the path are those that were joined before. -/
theorem attach?_deep_eq_dotted_keepers :
    (∀ segment ∈ Text.split '.' "dogs.owner", segment ≠ "") ∧
    ∃ outcome,
      (JoinArena.empty.addAll (keepersAs (.dotted "dogs.owner" (some "o") .left))).attach?
        (.ofRoot owner) = some outcome ∧
      (JoinArena.empty.addAll (keepersAs (.deep "dogs.owner" (some "o") .left))).attach?
        (.ofRoot owner) = some outcome ∧
      outcome.map (fun s => s.nodes.map fun n => (n.name, n.parent)) =
        .ok [("dogs", .root), ("o", .join 0), ("owner", .join 0)] := by
  have hpath : ∀ segment ∈ Text.split '.' "dogs.owner", segment ≠ "" := by decide
  obtain ⟨outcome, hdotted, hdeep⟩ := JoinArena.attach?_deep_eq_dotted (.ofRoot owner)
    [.ofTable "dogs"] [.dotted "dogs.owner.dogs" none .inner] hpath (some "o") .left
  refine ⟨hpath, outcome, hdotted, hdeep, ?_⟩
  rw [JoinArena.attach?_addAll] at hdotted
  obtain rfl := Option.some.inj hdotted
  decide +kernel

end Kennel

end EntityQuery
