import EntityQuery.TextQuery.Phrase
import Mathlib.Data.List.Basic
import Std.Data.String.ToNat

/-! # Placeholders

A colon in the text of a query introduces a name, which goes as far as its characters do.  In a
phrase whose plain parts have no colons, and whose parameters are names that something else than a
name follows, these names are the parameters (`placeholders_text`). -/

namespace EntityQuery

/-- The letters of names.  What delimits a name in a query is none of them. -/
structure Alphabet where
  isLetter : Char → Bool
  isLetter_delimiter : ∀ c ∈ [':', ' ', ',', '.', '(', ')'], isLetter c = false

namespace Alphabet

/-- The alphabet of ASCII letters only. -/
def ascii : Alphabet := ⟨Char.isAlpha, by simp⟩

variable (a : Alphabet)

/-- The characters of a placeholder. -/
def isName (c : Char) : Bool := a.isLetter c || c.isDigit || c = '_'

/-- A field that is called by names alone, with points between them and in parentheses. -/
def IsField (s : String) : Prop := ∀ c ∈ s.toList, a.isName c ∨ c ∈ ['.', '(', ')']

instance (s : String) : Decidable (a.IsField s) :=
  List.decidableBAll (fun c => a.isName c ∨ c ∈ ['.', '(', ')']) s.toList

theorem isName_delimiter {c : Char} (hc : c ∈ [':', ' ', ',', '.', '(', ')']) :
    a.isName c = false := by
  rw [isName, a.isLetter_delimiter c hc]
  simp only [List.mem_cons, List.not_mem_nil, or_false] at hc
  rcases hc with rfl | rfl | rfl | rfl | rfl | rfl <;> rfl

theorem isName_digit {c : Char} (hc : c.isDigit) : a.isName c := by
  rw [isName, hc, Bool.or_true, Bool.true_or]

theorem isName_underscore : a.isName '_' := by
  rw [isName, decide_eq_true rfl, Bool.or_true]

/-- The names that colons introduce, from left to right. -/
def scan : List Char → List String
  | [] => []
  | c :: cs => if c = ':' then String.ofList (cs.takeWhile a.isName) :: scan cs else scan cs

/-- The names that colons introduce in a text, from left to right. -/
def placeholders (s : String) : List String := a.scan s.toList

/-- No name goes on in this text. -/
def Stops (s : String) : Prop := ∀ c ∈ s.toList.head?, a.isName c = false

end Alphabet

/-- A text that introduces nothing. -/
def Colonless (s : String) : Prop := ':' ∉ s.toList

instance (s : String) : Decidable (Colonless s) := inferInstanceAs (Decidable (':' ∉ s.toList))

theorem Colonless.append {s t : String} (hs : Colonless s) (ht : Colonless t) :
    Colonless (s ++ t) := by
  rw [Colonless, String.toList_append, List.mem_append]
  exact not_or.2 ⟨hs, ht⟩

variable {a : Alphabet}

theorem Alphabet.IsField.colonless {s : String} (h : a.IsField s) : Colonless s := by
  intro hc
  rcases h ':' hc with hn | hn
  · exact absurd hn (by rw [a.isName_delimiter (by decide)]; decide)
  · exact absurd hn (by decide)

/-! ## Texts -/

namespace Alphabet

/-- Without a colon there is no placeholder. -/
theorem scan_colonless {as : List Char} (h : ':' ∉ as) (bs : List Char) :
    a.scan (as ++ bs) = a.scan bs := by
  induction as with
  | nil => rfl
  | cons c as ih =>
    obtain ⟨hc, has⟩ := List.ne_and_not_mem_of_not_mem_cons h
    rw [List.cons_append, scan, if_neg hc.symm, ih has]

theorem takeWhile_name {as bs : List Char} (has : ∀ c ∈ as, a.isName c)
    (hbs : ∀ c ∈ bs.head?, a.isName c = false) : (as ++ bs).takeWhile a.isName = as := by
  rw [List.takeWhile_append_of_pos has]
  cases bs with
  | nil => exact List.append_nil as
  | cons b bs =>
    rw [List.takeWhile_cons_of_neg (Bool.eq_false_iff.1 (hbs b rfl)), List.append_nil]

/-- A placeholder ends where its name does. -/
theorem scan_name {as bs : List Char} (has : ∀ c ∈ as, a.isName c)
    (hbs : ∀ c ∈ bs.head?, a.isName c = false) :
    a.scan (':' :: (as ++ bs)) = String.ofList as :: a.scan bs := by
  have hcolon : ':' ∉ as := by
    intro hc
    exact absurd (has _ hc) (by rw [a.isName_delimiter (by decide)]; decide)
  rw [scan, if_pos rfl, takeWhile_name has hbs, scan_colonless hcolon]

theorem stops_empty : a.Stops "" := nofun

theorem Stops.append {s t : String} (hs : a.Stops s) (ht : a.Stops t) : a.Stops (s ++ t) := by
  intro c hc
  rw [String.toList_append, List.head?_append] at hc
  cases hf : s.toList.head? with
  | none => exact ht c (by rw [hf] at hc; exact hc)
  | some d => exact hs c (by rw [hf] at hc ⊢; exact hc)

/-- A text stops names if it begins with a delimiter. -/
theorem stops_of_head? {s : String} {c : Char} (h : s.toList.head? = some c)
    (hc : c ∈ [':', ' ', ',', '.', '(', ')']) (t : String) : a.Stops (s ++ t) := by
  intro d hd
  rw [String.toList_append, List.head?_append, h] at hd
  obtain rfl := Option.some.inj hd
  exact a.isName_delimiter hc

end Alphabet

/-! ## Phrases -/

namespace Phrase

/-- Nothing but its parameters looks like a parameter, and each of them ends where its name does. -/
def Delimited (a : Alphabet) : Phrase → Prop
  | [] => True
  | .plain s :: fs => Colonless s ∧ Delimited a fs
  | .parameter name :: fs =>
    (∀ c ∈ name.toList, a.isName c) ∧ a.Stops (text fs) ∧ Delimited a fs

variable {p q : Phrase}

theorem Delimited.ofText {s : String} (h : Colonless s) : Delimited a (ofText s) := ⟨h, trivial⟩

/-- Two phrases delimit their parameters if the second one does not go on the first one's last name.
-/
theorem Delimited.append (hp : Delimited a p) (hq : Delimited a q) (hs : a.Stops q.text) :
    Delimited a (p ++ q) := by
  induction p with
  | nil => exact hq
  | cons f fs ih =>
    cases f with
    | plain s => exact ⟨hp.1, ih hp.2⟩
    | parameter name =>
      refine ⟨hp.1, ?_, ih hp.2.2⟩
      have hstops := hp.2.1.append hs
      rw [← text_append] at hstops
      exact hstops

theorem Delimited.parenthesized (h : Delimited a p) : Delimited a p.parenthesized := by
  have hclose : Delimited a [.plain ")"] := Delimited.ofText (by decide)
  exact ⟨by decide, h.append hclose (Alphabet.stops_of_head? (c := ')') rfl (by decide) "")⟩

/-- The separator begins with a blank. -/
theorem Delimited.joined {ps : List Phrase} (h : ∀ p ∈ ps, Delimited a p) :
    Delimited a (joined " " ps) := by
  match ps, h with
  | [], _ => exact trivial
  | [p], h => exact h p (List.mem_singleton_self p)
  | p :: q :: ps, h =>
    have ih := Delimited.joined fun r hr => h r (List.mem_cons_of_mem p hr)
    refine (h p List.mem_cons_self).append ⟨by decide, ih⟩ ?_
    exact Alphabet.stops_of_head? (c := ' ') rfl (by decide) _

/-- The placeholders in the text of a delimited phrase are its parameters. -/
theorem Delimited.placeholders_text (h : Delimited a p) :
    a.placeholders p.text = p.parameters := by
  induction p with
  | nil => rfl
  | cons f fs ih =>
    cases f with
    | plain s =>
      rw [Alphabet.placeholders, text, String.toList_append]
      exact (Alphabet.scan_colonless h.1 _).trans (ih h.2)
    | parameter name =>
      have hscan := Alphabet.scan_name h.1 h.2.1
      rw [String.ofList_toList] at hscan
      rw [Alphabet.placeholders, text, String.toList_append, Fragment.text, String.toList_append,
        parameters, ← ih h.2.2]
      exact hscan

example : Alphabet.ascii.placeholders "u.id in (:id_1) and u.name = :name_2" =
    ["id_1", "name_2"] := by decide

theorem parameters_joined (separator : String) (ps : List Phrase) :
    (joined separator ps).parameters = ps.flatMap parameters := by
  match ps with
  | [] => rfl
  | [p] => exact (List.append_nil _).symm
  | p :: q :: ps =>
    rw [joined, parameters_append, parameters, parameters_joined separator (q :: ps)]
    rfl

theorem parameters_parenthesized (p : Phrase) : p.parenthesized.parameters = p.parameters := by
  change parameters (p ++ [.plain ")"]) = _
  rw [parameters_append]
  exact List.append_nil _

end Phrase

/-! ## Numbered names

Whatever a field is called, even if it ends like a numbered name itself, the number behind the last
underscore is the one it was given. -/

namespace Binding

/-- A parameter is called by its field and its number. -/
theorem toList_parameterName (field : String) (number : Nat) :
    (parameterName field number).toList = baseName field ++ '_' :: (toString number).toList := by
  simp [parameterName]

theorem isDigit_of_mem_toString {c : Char} {n : Nat} (h : c ∈ (toString n).toList) :
    c.isDigit := by
  rw [Nat.toString_eq_repr, Nat.toList_repr] at h
  exact Nat.isDigit_of_mem_toDigits (by decide) (by decide) h

theorem underscore_notMem_toString (n : Nat) : '_' ∉ (toString n).toList :=
  fun h => absurd (isDigit_of_mem_toString h) (by decide)

/-- The number is what is behind the last underscore. -/
theorem takeWhile_parameterName (field : String) (number : Nat) :
    (parameterName field number).toList.reverse.takeWhile (· ≠ '_') =
      (toString number).toList.reverse := by
  have hdigits : ∀ c ∈ (toString number).toList.reverse, decide (c ≠ '_') := by
    intro c hc
    refine decide_eq_true fun h => ?_
    exact underscore_notMem_toString number (h ▸ List.mem_reverse.1 hc)
  rw [toList_parameterName, List.reverse_append, List.reverse_cons, List.append_assoc,
    List.takeWhile_append_of_pos hdigits, List.singleton_append,
    List.takeWhile_cons_of_neg (by decide), List.append_nil]

/-- Names of different numbers differ, whatever the fields are. -/
theorem parameterName_injective {f g : String} {m n : Nat}
    (h : parameterName f m = parameterName g n) : m = n := by
  have hdigits := takeWhile_parameterName f m
  rw [h, takeWhile_parameterName g n] at hdigits
  exact (Nat.repr_injective (String.toList_inj.1 (List.reverse_injective hdigits))).symm

/-- The parameters of a field are names. -/
theorem isName_parameterName {field : String} (h : a.IsField field) (number : Nat) :
    ∀ c ∈ (parameterName field number).toList, a.isName c := by
  intro c hc
  rw [toList_parameterName] at hc
  rcases List.mem_append.1 hc with hc | hc
  · obtain ⟨d, hd, rfl⟩ := List.mem_map.1 hc
    obtain ⟨hd, hpoint⟩ := List.mem_filter.1 hd
    split
    · exact a.isName_underscore
    · rename_i hparen
      refine (h d hd).resolve_right fun hmem => ?_
      simp only [List.mem_cons, List.not_mem_nil, or_false] at hmem
      rcases hmem with rfl | hmem
      · exact absurd hpoint (by decide)
      · exact hparen hmem
  · rcases List.mem_cons.1 hc with rfl | hc
    · exact a.isName_underscore
    · exact a.isName_digit (isDigit_of_mem_toString hc)

end Binding

end EntityQuery
