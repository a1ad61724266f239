import EntityQuery.Proofs.Fixture.Integers
import EntityQuery.Value
import Mathlib.Data.List.TakeWhile

/-! # Casts to integers

A cast to an integer type goes through text: an integer is printed, a string has its blanks cut off,
and what is left is read.  What is read are digits after an optional sign, as many as there are, and
as the number that they write; so a cast keeps the integer, and fails for exactly the integers
beyond its target (`integer_casts_exact`). -/

namespace EntityQuery

/-! ## Blanks around a text -/

namespace Text

variable {before core after cs : List Char}

theorem trimLeft_append (hbefore : ∀ c ∈ before, isBlank c) (cs : List Char) :
    trimLeft (before ++ cs) = trimLeft cs :=
  List.dropWhile_append_of_pos hbefore

theorem exists_append_trimLeft (cs : List Char) :
    ∃ before, (∀ c ∈ before, isBlank c) ∧ before ++ trimLeft cs = cs :=
  ⟨cs.takeWhile isBlank, fun _ => List.mem_takeWhile_imp, List.takeWhile_append_dropWhile⟩

/-- Only blanks are cut off. -/
theorem exists_append_trim (cs : List Char) :
    ∃ before after, (∀ c ∈ before, isBlank c) ∧ (∀ c ∈ after, isBlank c) ∧
      before ++ trim cs ++ after = cs := by
  obtain ⟨before, hbefore, hcs⟩ := exists_append_trimLeft cs
  obtain ⟨after, hafter, hrest⟩ := exists_append_trimLeft (trimLeft cs).reverse
  refine ⟨before, after.reverse, hbefore, fun c hc => hafter c (List.mem_reverse.1 hc), ?_⟩
  calc before ++ trim cs ++ after.reverse
      = before ++ (after ++ trimLeft (trimLeft cs).reverse).reverse := by
        rw [List.append_assoc, List.reverse_append, trim]
    _ = cs := by rw [hrest, List.reverse_reverse, hcs]

/-- All blanks around a text without any are cut off. -/
theorem trim_append (hbefore : ∀ c ∈ before, isBlank c) (hafter : ∀ c ∈ after, isBlank c)
    (hne : core ≠ []) (hcore : ∀ c ∈ core, isBlank c = false) :
    trim (before ++ core ++ after) = core := by
  have hleft : trimLeft (core ++ after) = core ++ after := by
    refine trimLeft_of_head fun c hc => hcore c ?_
    rw [List.head?_append_of_ne_nil _ hne] at hc
    exact List.mem_of_mem_head? hc
  have hright : trimLeft core.reverse = core.reverse :=
    trimLeft_of_head fun c hc => hcore c (List.mem_reverse.1 (List.mem_of_mem_head? hc))
  rw [trim, List.append_assoc, trimLeft_append hbefore, hleft, List.reverse_append,
    trimLeft_append fun c hc => hafter c (List.mem_reverse.1 hc), hright, List.reverse_reverse]

end Text

/-! ## Integers in blanks -/

/-- The text is a numeral with blanks around it or none. -/
inductive WritesInteger : List Char → Int → Prop where
  | intro {before core after : List Char} {n : Int} (hbefore : ∀ c ∈ before, Text.isBlank c)
    (hcore : Numeral core n) (hafter : ∀ c ∈ after, Text.isBlank c) :
    WritesInteger (before ++ core ++ after) n

variable {cs : List Char} {n : Int}

/-- A text is read as an integer if it writes it between blanks. -/
theorem readInt?_trim_eq_some_iff : readInt? (Text.trim cs) = some n ↔ WritesInteger cs n := by
  rw [readInt?_eq_some_iff]
  constructor
  · intro h
    obtain ⟨before, after, hbefore, hafter, hcs⟩ := Text.exists_append_trim cs
    rw [← hcs]
    exact .intro hbefore h hafter
  · rintro ⟨hbefore, hcore, hafter⟩
    rwa [Text.trim_append hbefore hafter hcore.ne_nil hcore.isBlank]

/-! ## Casts -/

namespace Scalar

variable {s : Scalar} {w : IntWidth}

/-- The scalar is the integer, or a text that writes it. -/
inductive HoldsInteger : Scalar → Int → Prop where
  | integer {w : IntWidth} (b : BoundedInt w) : HoldsInteger (.integer w b) b.val
  | string {text : String} {n : Int} (h : WritesInteger text.toList n) :
    HoldsInteger (.string text) n

/-- A text is trimmed, read and bounded. -/
theorem cast?_string (w : IntWidth) (text : String) : cast? (.integer w) (.string text) =
    ((readInt? (Text.trim text.toList)).bind (BoundedInt.ofInt? w)).map (.integer w) :=
  rfl

/-- What holds an integer is cast to a width if the integer fits it. -/
theorem cast?_of_holdsInteger (h : s.HoldsInteger n) (w : IntWidth) :
    cast? (.integer w) s = (BoundedInt.ofInt? w n).map (.integer w) := by
  cases h with
  | integer b => rw [cast?_integer rfl, ofText?, trim_toString_int, BoundedInt.read?_toString_int]
  | string h =>
    rw [cast?_string, readInt?_trim_eq_some_iff.2 h, Option.bind_some]

end Scalar

/-- An integer, or a text that writes it, is cast to exactly the integer types that hold it, and
there is the same integer; the error of another cast has the text as it was. -/
theorem integer_casts_exact {s : Scalar} (h : s.HoldsInteger n) (w : IntWidth) :
    (∀ hn : w.Holds n, (Value.scalar s).cast (.integer w) = .ok (.integer w ⟨n, hn⟩)) ∧
      (¬w.Holds n →
        (Value.scalar s).cast (.integer w) = .error (.coercion s.text (.integer w))) := by
  rw [Value.cast, Scalar.cast, Scalar.cast?_of_holdsInteger h]
  constructor
  · intro hn
    rw [BoundedInt.ofInt?, dif_pos hn, Option.map_some]
  · intro hn
    rw [BoundedInt.ofInt?, dif_neg hn, Option.map_none]

theorem integer_casts_exact_of_padded :
    (Scalar.string " +0127\n").HoldsInteger 127 ∧
      (Value.scalar (.string " +0127\n")).cast (.integer .byte) =
        .ok (.integer .byte ⟨127, by decide⟩) ∧
      (Scalar.string "-0129 ").HoldsInteger (-129) ∧
      (Value.scalar (.string "-0129 ")).cast (.integer .byte) =
        .error (.coercion "-0129 " (.integer .byte)) := by
  have hlargest : (Scalar.string " +0127\n").HoldsInteger 127 :=
    .string (readInt?_trim_eq_some_iff.1 (by decide))
  have hbeyond : (Scalar.string "-0129 ").HoldsInteger (-129) :=
    .string (readInt?_trim_eq_some_iff.1 (by decide))
  exact ⟨hlargest, (integer_casts_exact hlargest .byte).1 (by decide), hbeyond,
    (integer_casts_exact hbeyond .byte).2 (by decide)⟩

end EntityQuery
