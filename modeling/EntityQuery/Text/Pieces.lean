/-! # Cutting a text at a separator

`pieces sep` cuts a text at every separator and `cut? sep` at the first one.  A text has at least
one piece, and no piece holds a separator (`not_mem_of_mem_pieces`). -/

namespace EntityQuery.Text

/-- The parts of a text between separators; a text without a separator is its only part. -/
def pieces (sep : Char) : List Char → List (List Char)
  | [] => [[]]
  | c :: cs =>
    if c = sep then [] :: pieces sep cs
    else match pieces sep cs with
      | [] => [[c]]
      | p :: ps => (c :: p) :: ps

/-- There is one piece at least, which may be empty. -/
theorem pieces_ne_nil (sep : Char) (cs : List Char) : pieces sep cs ≠ [] := by
  cases cs with
  | nil => simp [pieces]
  | cons c cs =>
    simp only [pieces]
    split
    · simp
    · split <;> simp

/-- No piece has the separator. -/
theorem not_mem_of_mem_pieces {sep : Char} {cs p : List Char} (h : p ∈ pieces sep cs) :
    sep ∉ p := by
  induction cs generalizing p with
  | nil => simp_all [pieces]
  | cons c cs ih =>
    by_cases hc : c = sep
    · simp only [pieces, hc, if_true, List.mem_cons] at h
      rcases h with rfl | h
      · simp
      · exact ih h
    · match hp : pieces sep cs with
      | [] => exact absurd hp (pieces_ne_nil sep cs)
      | q :: qs =>
        simp only [pieces, hc, if_false, hp, List.mem_cons] at h
        rcases h with rfl | h
        · have := ih (p := q) (by simp [hp])
          simp only [List.mem_cons, not_or]
          exact ⟨fun e => hc e.symm, this⟩
        · exact ih (by simp [hp, h])

/-- A separator ends one piece and starts the next. -/
theorem pieces_concat_sep (sep : Char) (as bs : List Char) :
    pieces sep (as ++ sep :: bs) = pieces sep as ++ pieces sep bs := by
  induction as with
  | nil => simp [pieces]
  | cons a as ih =>
    by_cases ha : a = sep
    · simp [pieces, ha, ih]
    · match hp : pieces sep as with
      | [] => exact absurd hp (pieces_ne_nil sep as)
      | p :: ps => simp [pieces, ha, ih, hp]

theorem pieces_of_notMem {sep : Char} {cs : List Char} (h : sep ∉ cs) :
    pieces sep cs = [cs] := by
  induction cs with
  | nil => rfl
  | cons c cs ih =>
    rw [List.mem_cons, not_or] at h
    simp [pieces, Ne.symm h.1, ih h.2]

/-- The text before the first separator and the text after it, if there is one. -/
def cut? (sep : Char) : List Char → Option (List Char × List Char)
  | [] => none
  | c :: cs =>
    if c = sep then some ([], cs)
    else (cut? sep cs).map fun p => (c :: p.1, p.2)

/-- A cut is at the first separator. -/
theorem cut?_eq_some {sep : Char} {cs a b : List Char} (h : cut? sep cs = some (a, b)) :
    cs = a ++ sep :: b ∧ sep ∉ a := by
  induction cs generalizing a with
  | nil => simp [cut?] at h
  | cons c cs ih =>
    by_cases hc : c = sep
    · simp only [cut?, hc, if_true, Option.some.injEq, Prod.mk.injEq] at h
      obtain ⟨rfl, rfl⟩ := h
      simp [hc]
    · simp only [cut?, hc, if_false, Option.map_eq_some_iff, Prod.mk.injEq] at h
      obtain ⟨⟨a', b'⟩, h', rfl, rfl⟩ := h
      obtain ⟨rfl, hn⟩ := ih h'
      simp only [List.cons_append, List.mem_cons, not_or, true_and]
      exact ⟨fun e => hc e.symm, hn⟩

/-- `pieces` on strings. -/
def split (sep : Char) (s : String) : List String :=
  (pieces sep s.toList).map String.ofList

/-- `cut?` on strings. -/
def splitFirst? (sep : Char) (s : String) : Option (String × String) :=
  (cut? sep s.toList).map fun p => (String.ofList p.1, String.ofList p.2)

theorem split_of_notMem {sep : Char} {s : String} (h : sep ∉ s.toList) : split sep s = [s] := by
  rw [split, pieces_of_notMem h, List.map_singleton, String.ofList_toList]

theorem splitFirst?_eq_none {sep : Char} {s : String} (h : sep ∉ s.toList) :
    splitFirst? sep s = none := by
  rw [splitFirst?, Option.map_eq_none_iff, Option.eq_none_iff_forall_ne_some]
  rintro ⟨a, b⟩ hcut
  rw [(cut?_eq_some hcut).1] at h
  exact h (List.mem_append_right a List.mem_cons_self)

/-- Pieces come one after the other, the first cut first. -/
theorem split_of_splitFirst? {sep : Char} {s first rest : String}
    (h : splitFirst? sep s = some (first, rest)) : split sep s = first :: split sep rest := by
  obtain ⟨⟨a, b⟩, hcut, hpair⟩ := Option.map_eq_some_iff.1 h
  obtain ⟨rfl, rfl⟩ := Prod.mk.inj hpair
  obtain ⟨hs, hfirst⟩ := cut?_eq_some hcut
  rw [split, hs, pieces_concat_sep, pieces_of_notMem hfirst, split, String.toList_ofList]
  rfl

/-- The text with every `a` written as `b`. -/
def replace (a b : Char) (s : String) : String :=
  s.map fun c => if c = a then b else c

/-- Items in one text, separated by commas. -/
def commaSeparated (items : List String) : String := String.intercalate ", " items

end EntityQuery.Text
