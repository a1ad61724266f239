import EntityQuery.Session

/-! # Exchanges

An exchange goes on where the one before it left the session.  One that refuses leaves it alone. -/

namespace EntityQuery.Exchange

variable {σ α β : Type}

/-- An exchange that fails ends there, in the state it has come to. -/
theorem bind_apply (x : Exchange σ α) (f : α → Exchange σ β) (state : σ) :
    (x >>= f) state =
      match x state with
      | (.ok a, state) => f a state
      | (.error e, state) => (.error e, state) := by
  change (ExceptT.bindCont f (x state).1) (x state).2 = _
  rcases x state with ⟨_ | _, _⟩ <;> rfl

theorem map_apply (f : α → β) (x : Exchange σ α) (state : σ) :
    (f <$> x) state = ((x state).1.map f, (x state).2) := by
  rw [map_eq_pure_bind, bind_apply]
  rcases x state with ⟨_ | _, _⟩ <;> rfl

/-- What comes out of a chain came out of its last step. -/
theorem bind_eq_ok {x : Exchange σ α} {f : α → Exchange σ β} {state : σ} {b : β} :
    ((x >>= f) state).1 = .ok b ↔
      ∃ a, (x state).1 = .ok a ∧ (f a (x state).2).1 = .ok b := by
  rw [bind_apply]
  rcases x state with ⟨e | a, state⟩
  · simp
  · simp

/-- The exchange fails before anything is sent. -/
def Refuses (x : Exchange σ α) (e : Error) : Prop := ∀ state, x state = (.error e, state)

variable {x : Exchange σ α} {e : Error}

/-- What is refused first is refused as a whole. -/
theorem Refuses.bind (h : x.Refuses e) (f : α → Exchange σ β) : (x >>= f).Refuses e := by
  intro state
  rw [bind_apply, h state]

theorem Refuses.map (h : x.Refuses e) (f : α → β) : (f <$> x).Refuses e := by
  intro state
  rw [map_apply, h state]
  rfl

end EntityQuery.Exchange
