import EntityQuery.TextQuery.Phrase
import Mathlib.Data.List.Forall2

/-! # Successful runs

What is refused stays refused: a chain succeeds exactly if each of its steps does. -/

namespace EntityQuery

variable {α β : Type}

namespace Result

/-- Both steps succeed, one after the other. -/
theorem bind_eq_ok {x : Result α} {f : α → Result β} {b : β} :
    x >>= f = .ok b ↔ ∃ a, x = .ok a ∧ f a = .ok b := by
  cases x with
  | error e => simp [bind, Except.bind]
  | ok a => simp [bind, Except.bind]

theorem map_eq_ok {x : Result α} {f : α → β} {b : β} :
    x.map f = .ok b ↔ ∃ a, x = .ok a ∧ f a = b := by
  cases x with
  | error e => simp [Except.map]
  | ok a => simp [Except.map]

theorem pure_eq_ok {a b : α} : (pure a : Result α) = .ok b ↔ a = b := by
  simp [pure, Except.pure]

theorem exists_of_isOk {x : Result α} (h : x.isOk) : ∃ a, x = .ok a := by
  cases x with
  | error e => exact absurd h nofun
  | ok a => exact ⟨a, rfl⟩

theorem mapM_eq_ok {f : α → Result β} {as : List α} {bs : List β} :
    as.mapM f = .ok bs ↔ List.Forall₂ (fun a b => f a = .ok b) as bs := by
  induction as generalizing bs with
  | nil =>
    rw [List.mapM_nil, pure_eq_ok, List.forall₂_nil_left_iff, eq_comm]
  | cons a as ih =>
    simp only [List.mapM_cons, bind_eq_ok, pure_eq_ok, ih, List.forall₂_cons_left_iff]
    constructor
    · rintro ⟨b, hb, bs', hbs, rfl⟩
      exact ⟨b, bs', hb, hbs, rfl⟩
    · rintro ⟨b, bs', hb, hbs, rfl⟩
      exact ⟨b, hb, bs', hbs, rfl⟩

/-- Every item comes from one before. -/
theorem exists_of_mem_mapM {f : α → Result β} {as : List α} {bs : List β}
    (h : as.mapM f = .ok bs) {b : β} (hb : b ∈ bs) : ∃ a ∈ as, f a = .ok b := by
  rw [mapM_eq_ok] at h
  induction h with
  | nil => exact absurd hb List.not_mem_nil
  | cons h _ ih =>
    rcases List.mem_cons.1 hb with rfl | hb
    · exact ⟨_, List.mem_cons_self, h⟩
    · obtain ⟨a, ha, hf⟩ := ih hb
      exact ⟨a, List.mem_cons_of_mem _ ha, hf⟩

end Result

namespace Binding

variable {ps ps' : Parameters}

theorem bind_eq_ok {x : Binding α} {f : α → Binding β} {b : β} :
    (x >>= f) ps = .ok (b, ps') ↔ ∃ a ps₁, x ps = .ok (a, ps₁) ∧ f a ps₁ = .ok (b, ps') := by
  change (x ps >>= fun p => f p.1 p.2) = .ok (b, ps') ↔ _
  rw [Result.bind_eq_ok]
  constructor
  · rintro ⟨⟨a, ps₁⟩, hx, hf⟩
    exact ⟨a, ps₁, hx, hf⟩
  · rintro ⟨a, ps₁, hx, hf⟩
    exact ⟨(a, ps₁), hx, hf⟩

theorem pure_eq_ok {a b : α} : (pure a : Binding α) ps = .ok (b, ps') ↔ a = b ∧ ps = ps' := by
  change (Except.ok (a, ps) : Result (α × Parameters)) = .ok (b, ps') ↔ _
  rw [Except.ok.injEq, Prod.mk.injEq]

theorem throw_ne_ok {e : Error} {b : α} : (throw e : Binding α) ps ≠ .ok (b, ps') := by
  change (Except.error e : Result (α × Parameters)) ≠ .ok (b, ps')
  exact nofun

/-- Writing refuses what a result refuses, and binds nothing for it. -/
theorem lift_eq_ok {r : Result α} {b : α} :
    (liftM r : Binding α) ps = .ok (b, ps') ↔ r = .ok b ∧ ps = ps' := by
  cases r with
  | error e => exact ⟨nofun, nofun⟩
  | ok a =>
    change (Except.ok (a, ps) : Result (α × Parameters)) = .ok (b, ps') ↔ _
    rw [Except.ok.injEq, Except.ok.injEq, Prod.mk.injEq]

end Binding

end EntityQuery
