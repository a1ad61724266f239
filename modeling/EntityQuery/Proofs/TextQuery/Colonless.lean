import EntityQuery.Proofs.TextQuery.Placeholders
import EntityQuery.TextQuery.Names

/-! # Texts without colons

What is made of texts without colons has none either: not their lowercase forms, not the segments
of a path, and not what the operators put together. -/

namespace EntityQuery

namespace Text

theorem ofNat_ne_colon {n : Nat} (h : 0x5B ≤ n) : Char.ofNat n ≠ ':' := by
  intro hc
  have hn := congrArg Char.toNat hc
  by_cases hv : n.isValidChar
  · rw [Char.ofNat, dif_pos hv] at hn
    have : n = 58 := hn
    omega
  · rw [Char.ofNat, dif_neg hv] at hn
    exact absurd hn (by decide)

/-- The lowercase forms outside of ASCII lie behind the colon. -/
theorem colon_lt_of_mem_lowercaseRuns : ∀ r ∈ lowercaseRuns, 0x5B ≤ r.first + r.distance := by
  decide +kernel

/-- No run of the table leads to a colon. -/
theorem CaseRun.lower?_ne_colon {r : CaseRun} (hr : r ∈ lowercaseRuns) {n : Nat} {c : Char}
    (h : r.lower? n = some c) : c ≠ ':' := by
  rw [lower?] at h
  split at h
  · rename_i hn
    have hrun := colon_lt_of_mem_lowercaseRuns r hr
    obtain rfl := Option.some.inj h
    exact ofNat_ne_colon (by omega)
  · exact absurd h nofun

theorem toLower_ne_colon : ∀ n < 0x80, Char.ofNat n ≠ ':' → (Char.ofNat n).toLower ≠ ':' := by
  decide

/-- Lower case makes no colons. -/
theorem lowerChar_ne_colon {c : Char} (hc : c ≠ ':') : lowerChar c ≠ ':' := by
  rw [lowerChar]
  split
  · rename_i hn
    have hlower := toLower_ne_colon c.toNat hn
    rw [Char.ofNat_toNat] at hlower
    exact hlower hc
  · cases hf : lowercaseRuns.findSome? fun r => r.lower? c.toNat with
    | none => exact hc
    | some d =>
      obtain ⟨r, hr, hd⟩ := List.exists_of_findSome?_eq_some hf
      exact CaseRun.lower?_ne_colon hr hd

theorem colon_notMem_lowerAfter (before : List Char) {cs : List Char} (h : ':' ∉ cs) :
    ':' ∉ lowerAfter before cs := by
  induction cs generalizing before with
  | nil => exact List.not_mem_nil
  | cons c cs ih =>
    obtain ⟨hc, hcs⟩ := List.ne_and_not_mem_of_not_mem_cons h
    rw [lowerAfter, List.mem_append, not_or]
    refine ⟨?_, ih (c :: before) hcs⟩
    rw [lowerAt]
    split
    · split <;> decide
    · split
      · decide
      · exact mt List.mem_singleton.1 (lowerChar_ne_colon hc.symm).symm

theorem mem_of_mem_pieces {sep c : Char} {cs p : List Char} (hp : p ∈ pieces sep cs)
    (hc : c ∈ p) : c ∈ cs := by
  induction cs generalizing p with
  | nil =>
    rw [pieces, List.mem_singleton] at hp
    exact hp ▸ hc
  | cons d cs ih =>
    rw [pieces] at hp
    split at hp
    · rcases List.mem_cons.1 hp with rfl | hp
      · exact absurd hc List.not_mem_nil
      · exact List.mem_cons_of_mem d (ih hp hc)
    · split at hp
      · rw [List.mem_singleton.1 hp] at hc
        rw [List.mem_singleton.1 hc]
        exact List.mem_cons_self
      · rename_i q qs hqs
        rcases List.mem_cons.1 hp with rfl | hp
        · rcases List.mem_cons.1 hc with rfl | hc
          · exact List.mem_cons_self
          · exact List.mem_cons_of_mem d (ih (by rw [hqs]; exact List.mem_cons_self) hc)
        · exact List.mem_cons_of_mem d (ih (by rw [hqs]; exact List.mem_cons_of_mem q hp) hc)

end Text

namespace Colonless

variable {s t : String}

theorem lowercase (h : Colonless s) : Colonless (Text.lowercase s) := by
  rw [Colonless, Text.lowercase, String.toList_ofList]
  exact Text.colon_notMem_lowerAfter [] h

theorem of_mem_split {sep : Char} (h : Colonless s) (ht : t ∈ Text.split sep s) : Colonless t := by
  obtain ⟨p, hp, rfl⟩ := List.mem_map.1 ht
  intro hc
  rw [String.toList_ofList] at hc
  exact h (Text.mem_of_mem_pieces hp hc)

theorem replace {a b : Char} (h : Colonless s) (hb : b ≠ ':') : Colonless (Text.replace a b s) := by
  intro hc
  rw [Text.replace, String.toList_map] at hc
  obtain ⟨c, hmem, hc⟩ := List.mem_map.1 hc
  split at hc
  · exact hb hc
  · exact h (hc ▸ hmem)

/-- Texts without colons, put together by one without. -/
theorem intercalate {separator : String} (hs : Colonless separator) {items : List String}
    (h : ∀ s ∈ items, Colonless s) : Colonless (String.intercalate separator items) := by
  match items, h with
  | [], _ =>
    rw [String.intercalate_nil]
    decide
  | [t], h => exact h t (List.mem_singleton_self t)
  | t :: u :: items, h =>
    have ih := intercalate hs fun s hs => h s (List.mem_cons_of_mem t hs)
    rw [String.intercalate_cons_cons]
    exact ((h t List.mem_cons_self).append hs).append ih

/-- A qualified field has a colon only if one of its parts has. -/
theorem qualified {name field : String} (hn : Colonless name) (hf : Colonless field) :
    Colonless (EntityQuery.qualified name field) := by
  rw [EntityQuery.qualified]
  split
  · exact hn
  · split
    · exact hf
    · exact (hn.append (by decide)).append hf

theorem operator (o : Operator) : Colonless o.spelling := by
  cases o <;> decide

theorem joinOperator (o : JoinOperator) : Colonless o.spelling := by
  cases o <;> decide

theorem aggregate (f : Aggregate) (h : Colonless s) : Colonless (f.apply s) := by
  have hf : Colonless f.spelling := by cases f <;> decide
  exact ((hf.append (by decide)).append h).append (by decide)

end Colonless

end EntityQuery
