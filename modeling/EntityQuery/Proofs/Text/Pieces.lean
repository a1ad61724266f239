import EntityQuery.Text.Pieces

/-! # Pieces put together

The pieces of a text with a mark between each two are the text with the mark for each separator, and
so the text itself if the mark is the separator. -/

namespace EntityQuery.Text

/-- Pieces with another mark between them are the text with its separators replaced. -/
theorem intercalate_pieces (sep mark : Char) (cs : List Char) :
    [mark].intercalate (pieces sep cs) = cs.map fun c => if c = sep then mark else c := by
  induction cs with
  | nil => rfl
  | cons c cs ih =>
    obtain ⟨p, ps, hps⟩ := List.exists_cons_of_ne_nil (pieces_ne_nil sep cs)
    rw [List.map_cons, ← ih, pieces, hps]
    by_cases hc : c = sep
    · simp [hc, List.intercalate_cons_cons]
    · cases ps with
      | nil => simp [hc]
      | cons q ps => simp [hc, List.intercalate_cons_cons]

theorem intercalate_split (sep mark : Char) (s : String) :
    (String.singleton mark).intercalate (split sep s) = replace sep mark s := by
  rw [← String.toList_inj, String.toList_intercalate, String.toList_singleton, replace,
    String.toList_map, split, List.map_map]
  simp only [Function.comp_def, String.toList_ofList, List.map_id']
  exact intercalate_pieces sep mark s.toList

theorem replace_self (c : Char) (s : String) : replace c c s = s := by
  rw [← String.toList_inj, replace, String.toList_map]
  refine (List.map_congr_left fun d _ => ?_).trans (List.map_id s.toList)
  split
  · rename_i hd
    exact hd.symm
  · rfl

/-- Pieces put together again are the text. -/
theorem intercalate_split_self (sep : Char) (s : String) :
    (String.singleton sep).intercalate (split sep s) = s :=
  (intercalate_split sep sep s).trans (replace_self sep s)

end EntityQuery.Text
