import EntityQuery.Proofs.Condition.Grouping
import EntityQuery.Proofs.TextQuery.Placeholders

/-! # Tokens and their atoms

Connectives and parentheses bind nothing and end the names before them, so what holds of the atoms
of tokens holds of their phrase: its parameters are those of the atoms, and it is delimited if they
are. -/

namespace EntityQuery

variable {a : Alphabet}

namespace Token

variable {ts us : List Token}

/-- The parameters of tokens are those of their atoms. -/
theorem parameters_phrases (ts : List Token) :
    (phrases ts).parameters = (atoms ts).flatMap Phrase.parameters := by
  induction ts with
  | nil => rfl
  | cons t ts ih =>
    rw [phrases, Phrase.parameters_append, ih]
    cases t <;> rfl

/-! ## Tokens where operands and operators alternate -/

theorem leads_append (ts : List Token) {rest : List Token} (hr : Follows rest) :
    (Leads ts → Leads (ts ++ rest)) ∧ (Follows ts → Follows (ts ++ rest)) := by
  induction ts with
  | nil => exact ⟨fun h => h.elim, fun _ => hr⟩
  | cons t ts ih =>
    cases t with
    | atom p => exact ⟨ih.2, fun h => h.elim⟩
    | connective c => exact ⟨fun h => h.elim, ih.1⟩
    | opening => exact ⟨ih.1, fun h => h.elim⟩
    | closing => exact ⟨fun h => h.elim, ih.2⟩

/-- Behind an operand there is no name to go on. -/
theorem Follows.stops (h : Follows ts) : a.Stops (phrases ts).text := by
  match ts, h with
  | [], _ => exact Alphabet.stops_empty
  | .connective c :: ts, _ =>
    rw [phrases, Phrase.text_append]
    refine Alphabet.stops_of_head? (c := ' ') ?_ (by decide) _
    cases c <;> rfl
  | .closing :: ts, _ =>
    rw [phrases, Phrase.text_append]
    exact Alphabet.stops_of_head? (c := ')') rfl (by decide) _

/-- Tokens delimit the parameters in their atoms. -/
theorem delimited_phrases (ts : List Token) (ha : ∀ p ∈ atoms ts, Phrase.Delimited a p) :
    (Leads ts → Phrase.Delimited a (phrases ts)) ∧
      (Follows ts → Phrase.Delimited a (phrases ts)) := by
  induction ts with
  | nil => exact ⟨fun h => h.elim, fun _ => trivial⟩
  | cons t ts ih =>
    cases t with
    | atom p =>
      refine ⟨fun h => ?_, fun h => h.elim⟩
      have ih := ih fun q hq => ha q (List.mem_cons_of_mem p hq)
      exact (ha p List.mem_cons_self).append (ih.2 h) (Follows.stops h)
    | connective c =>
      have hc : Colonless (" " ++ c.spelling ++ " ") := by cases c <;> decide
      exact ⟨fun h => h.elim, fun h => ⟨hc, (ih ha).1 h⟩⟩
    | opening => exact ⟨fun h => ⟨by decide, (ih ha).1 h⟩, fun h => h.elim⟩
    | closing => exact ⟨fun h => h.elim, fun h => ⟨by decide, (ih ha).2 h⟩⟩

/-- Tokens that write conditions, or nothing if there are none. -/
def Spells (ts : List Token) (leaves : List Phrase) : Prop :=
  atoms ts = leaves ∧ (ts = [] ∨ Leads ts)

variable {leaves : List Phrase}

/-- Tokens have the parameters of the leaves they spell. -/
theorem Spells.parameters (h : Spells ts leaves) :
    (phrases ts).parameters = leaves.flatMap Phrase.parameters := by
  rw [parameters_phrases, h.1]

theorem Spells.delimited (h : Spells ts leaves) (hl : ∀ p ∈ leaves, Phrase.Delimited a p) :
    Phrase.Delimited a (phrases ts) := by
  obtain ⟨rfl, h⟩ := h
  rcases h with rfl | h
  · exact trivial
  · exact (delimited_phrases ts hl).1 h

/-- Parentheses spell nothing. -/
theorem Spells.wrap : Spells ts leaves → Spells (wrap ts) leaves := by
  rintro ⟨rfl, rfl | h⟩
  · exact ⟨rfl, .inl rfl⟩
  · have hne : ts ≠ [] := by
      rintro rfl
      exact h.elim
    rw [Token.wrap, if_neg (mt List.isEmpty_iff.1 hne)]
    have hclosing : Follows [.closing] := trivial
    refine ⟨?_, .inr ((leads_append ts hclosing).1 h)⟩
    rw [List.cons_append, atoms, atoms_append]
    exact List.append_nil _

/-- A condition in front of others. -/
theorem Spells.and (h : Spells ts leaves) (hne : ts ≠ []) (p : Phrase) :
    Spells (.atom p :: .connective .and :: ts) (p :: leaves) := by
  obtain ⟨rfl, h⟩ := h
  exact ⟨rfl, .inr (h.resolve_left hne)⟩

theorem wrap_ne_nil (hne : ts ≠ []) : Token.wrap ts ≠ [] := by
  rw [Token.wrap, if_neg (mt List.isEmpty_iff.1 hne)]
  exact List.cons_ne_nil _ _

/-- Tokens that write a formula spell its leaves. -/
theorem WrittenBy.spells {s : Strength} {f? : Option (Formula Phrase)} (h : WrittenBy s ts f?) :
    Spells ts (f?.elim [] Formula.leaves) := by
  cases f? with
  | none =>
    rw [show ts = [] from h]
    exact ⟨rfl, .inl rfl⟩
  | some f =>
    have hp : Parses s ts f := h
    refine ⟨hp.atoms_eq, .inr ?_⟩
    rw [← List.append_nil ts]
    exact hp.leads trivial

end Token

/-! ## Conditions as they are written -/

variable {E : Type} [Schema E] {ps ps' : Parameters} {ts : List Token}

/-- The tokens of conditions spell their leaves, which are written from left to right. -/
theorem TextClause.foldTokens_spells {name : String} {names : Names E} {cs : List TextClause}
    (h : foldTokens name names cs ps = .ok (ts, ps')) :
    ∃ leaves, (Clause.leavesAll cs).mapM (leafPhrase name names) ps = .ok (leaves, ps') ∧
      Token.Spells ts leaves := by
  rw [foldTokens, Binding.bind_eq_ok] at h
  obtain ⟨items, ps₁, hi, h⟩ := h
  obtain ⟨rfl, rfl⟩ := Binding.pure_eq_ok.1 h
  obtain ⟨leaves, fs, hl, hf, hw⟩ := written_fits hi
  refine ⟨leaves, hl, ?_⟩
  rw [← hf.fold_leaves]
  exact (Token.WrittenAs.fold hw).spells

namespace JoinCondition

variable {rows : Source E} {cs : List JoinCondition}

theorem written_writtenAs {items : List (Connective × List Token)}
    (h : written rows cs ps = .ok (items, ps')) :
    ∃ leaves fs, cs.mapM (fun c => c.phrase rows) ps = .ok (leaves, ps') ∧
      Token.WrittenAs items fs ∧ (fs.flatMap fun p => p.2.leaves) = leaves := by
  induction cs generalizing ps items with
  | nil =>
    obtain ⟨rfl, rfl⟩ := Binding.pure_eq_ok.1 h
    exact ⟨[], [], rfl, .nil, rfl⟩
  | cons c cs ih =>
    rw [written, Binding.bind_eq_ok] at h
    obtain ⟨p, ps₁, hp, h⟩ := h
    rw [Binding.bind_eq_ok] at h
    obtain ⟨more, ps₂, hm, h⟩ := h
    obtain ⟨rfl, rfl⟩ := Binding.pure_eq_ok.1 h
    obtain ⟨leaves, fs, hl, hw, rfl⟩ := ih hm
    refine ⟨p :: _, (c.attach, .atom p) :: fs, ?_, .cons ⟨rfl, .atom p⟩ hw, rfl⟩
    rw [List.mapM_cons, Binding.bind_eq_ok]
    refine ⟨p, ps₁, hp, ?_⟩
    rw [Binding.bind_eq_ok]
    exact ⟨_, ps₂, hl, rfl⟩

theorem tokens_spells (h : tokens rows cs ps = .ok (ts, ps')) :
    ∃ leaves, cs.mapM (fun c => c.phrase rows) ps = .ok (leaves, ps') ∧
      Token.Spells ts leaves := by
  rw [tokens, Binding.bind_eq_ok] at h
  obtain ⟨items, ps₁, hi, h⟩ := h
  obtain ⟨rfl, rfl⟩ := Binding.pure_eq_ok.1 h
  obtain ⟨leaves, fs, hl, hw, rfl⟩ := written_writtenAs hi
  refine ⟨_, hl, ?_⟩
  rw [← Formula.leaves_fold]
  exact (Token.WrittenAs.fold hw).spells

end JoinCondition

/-- The equality of a join in front of its conditions. -/
theorem Join.equalityTokens_spells {leaves : List Phrase} (equality : Phrase) (count : Nat)
    (h : Token.Spells ts leaves) :
    Token.Spells (equalityTokens equality ts count) (equality :: leaves) := by
  rw [equalityTokens]
  split
  · rename_i hempty
    obtain rfl := List.isEmpty_iff.1 hempty
    obtain ⟨rfl, -⟩ := h
    exact ⟨rfl, .inr trivial⟩
  · rename_i hne
    have hne := mt List.isEmpty_iff.2 hne
    split
    · exact h.wrap.and (Token.wrap_ne_nil hne) equality
    · exact h.and hne equality

end EntityQuery
