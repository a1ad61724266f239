import EntityQuery.Proofs.Kennel
import EntityQuery.Proofs.TextQuery.Spelling
import EntityQuery.Proofs.TextQuery.ValueConditions

/-! # Placeholders and parameters match

The names that the text of a query introduces are its parameters, each once and in the order of the
text, and every parameter holds the operand of its condition. -/

namespace EntityQuery

namespace ValueCondition

theorem exists_of_mem_names {n : Nat} {cs : List ValueCondition} {name : String}
    (h : name ∈ names n cs) : ∃ field m, n < m ∧ name = Binding.parameterName field m := by
  induction cs generalizing n with
  | nil => exact absurd h List.not_mem_nil
  | cons c cs ih =>
    rcases List.mem_cons.1 h with rfl | h
    · exact ⟨c.field, n + 1, Nat.lt_succ_self n, rfl⟩
    · obtain ⟨field, m, hm, rfl⟩ := ih h
      exact ⟨field, m, Nat.lt_of_succ_lt hm, rfl⟩

/-- No two parameters have the same name, since their numbers differ. -/
theorem nodup_names (n : Nat) (cs : List ValueCondition) : (names n cs).Nodup := by
  induction cs generalizing n with
  | nil => exact List.nodup_nil
  | cons c cs ih =>
    refine List.nodup_cons.2 ⟨fun h => ?_, ih (n + 1)⟩
    obtain ⟨field, m, hm, hname⟩ := exists_of_mem_names h
    exact Nat.ne_of_lt hm (Binding.parameterName_injective hname)

/-- The number of a parameter is its place. -/
theorem exists_of_getElem?_names {n i : Nat} {cs : List ValueCondition} {name : String}
    (h : (names n cs)[i]? = some name) :
    ∃ field, name = Binding.parameterName field (n + i + 1) := by
  induction cs generalizing n i with
  | nil => exact absurd h nofun
  | cons c cs ih =>
    cases i with
    | zero =>
      obtain rfl := Option.some.inj h
      exact ⟨c.field, rfl⟩
    | succ i =>
      obtain ⟨field, rfl⟩ := ih (n := n + 1) (i := i) h
      exact ⟨field, by rw [Nat.add_right_comm n 1 i, Nat.add_assoc n i 1]⟩

end ValueCondition

/-- A parameter is found by its name. -/
theorem Parameters.lookup_of_mem {ps : Parameters} (h : (ps.map Prod.fst).Nodup)
    {p : String × Value} (hp : p ∈ ps) : ps.lookup p.1 = some p.2 := by
  induction ps with
  | nil => exact absurd hp List.not_mem_nil
  | cons q ps ih =>
    obtain ⟨hq, h⟩ := List.nodup_cons.1 h
    rcases List.mem_cons.1 hp with rfl | hp
    · exact List.lookup_cons_self
    · have hne : p.1 ≠ q.1 := fun he => hq (he ▸ List.mem_map_of_mem hp)
      rw [List.lookup_cons, beq_false_of_ne hne]
      exact ih h hp

/-- The parameters of a query are what its text introduces and what its conditions bind. -/
structure TextQuery.PlaceholdersMatch (a : Alphabet) (conditions : List ValueCondition)
    (q : TextQuery) : Prop where
  keys_eq : a.placeholders q.text = q.parameters.map Prod.fst
  nodup : (a.placeholders q.text).Nodup
  numbered : ∀ i name, (a.placeholders q.text)[i]? = some name →
    ∃ base, name = base ++ "_" ++ toString (i + 1)
  operands : List.Forall₂
    (fun c name => ∃ v, ValueCondition.operand c = .ok v ∧ q.parameters.lookup name = some v)
    conditions (a.placeholders q.text)

/-- Placeholders and parameters of a query match one to one. -/
theorem placeholders_match_parameters {E : Type} [Schema E] {a : Alphabet} {purpose : Purpose}
    {d : Draft E String} {q : TextQuery} (hd : d.WellSpelled a)
    (h : TextQuery.ofDraft purpose d = .ok q) : q.PlaceholdersMatch a d.valueConditions := by
  have htext : a.placeholders q.text = q.statement.phrase.parameters :=
    (TextQuery.ofDraft_delimited hd h).placeholders_text
  obtain ⟨added, hps, hkeys, hnames, hoperands⟩ :=
    ValueCondition.bindAll_eq_ok (TextQuery.ofDraft_binds h)
  obtain rfl : q.parameters = added := hps
  have hnodup : (q.parameters.map Prod.fst).Nodup := by
    rw [hkeys, hnames]
    exact ValueCondition.nodup_names 0 _
  refine ⟨?_, ?_, fun i name hi => ?_, ?_⟩
  · rw [htext, hkeys]
  · rw [htext, ← hkeys]
    exact hnodup
  · rw [htext, hnames] at hi
    obtain ⟨field, rfl⟩ := ValueCondition.exists_of_getElem?_names hi
    rw [List.length_nil, Nat.zero_add]
    exact ⟨_, rfl⟩
  · rw [htext, ← hkeys, List.forall₂_map_right_iff]
    obtain ⟨hlength, hzip⟩ := List.forall₂_iff_zip.1 hoperands
    refine List.forall₂_iff_zip.2 ⟨hlength, fun {c p} hm => ?_⟩
    exact ⟨p.2, hzip hm, Parameters.lookup_of_mem hnodup (List.of_mem_zip hm).2⟩

/-- Owners older than a number in words, whose dogs are called something and who are not among
those with a dog of another name. -/
theorem placeholders_match_parameters_of_sub_query :
    let dogs : Draft Kennel String := {
      outline := { root := .dog, selects := [.ofField "owner.id"] }
      conditions := [.leaf .and (.value "name" .like (.string "R%"))] }
    let named : Join Kennel :=
      (Join.ofTable "dogs").withCondition ⟨"name", .equal, .string "Rex", .and⟩
    let d : Draft Kennel String := {
      outline := { root := .owner, joins := [named] }
      conditions := [.leaf .and (.value "age" .greater (.string "30")),
        .leaf .or (.subQuery "id" .notIn dogs)] }
    d.WellSpelled .ascii ∧ ∃ q, TextQuery.ofDraft .rows d = .ok q ∧
      q.PlaceholdersMatch .ascii d.valueConditions := by
  intro dogs named d
  have hdogs : dogs.WellSpelled .ascii := by
    refine Draft.wellSpelled_iff.2 ⟨?_, ?_⟩
    · exact ⟨by decide, nofun, nofun, nofun, by decide, nofun, nofun⟩
    · exact List.forall_mem_singleton.2 (by decide : Alphabet.IsField .ascii "name")
  have hnamed : named.WellSpelled .ascii :=
    .intro (by decide) nofun nofun nofun
      (List.forall_mem_singleton.2 (by decide : Alphabet.IsField .ascii "name")) nofun
  have hd : d.WellSpelled .ascii := by
    refine Draft.wellSpelled_iff.2 ⟨?_, ?_⟩
    · exact ⟨by decide, nofun, List.forall_mem_singleton.2 hnamed, nofun, nofun, nofun, nofun⟩
    · refine List.forall_mem_cons.2 ⟨(by decide : Alphabet.IsField .ascii "age"), ?_⟩
      exact List.forall_mem_singleton.2 ⟨(by decide : Alphabet.IsField .ascii "id"), hdogs⟩
  have hok : (TextQuery.ofDraft .rows d).isOk := by decide +kernel
  obtain ⟨q, hq⟩ := Result.exists_of_isOk hok
  exact ⟨hd, q, hq, placeholders_match_parameters hd hq⟩

end EntityQuery
