import EntityQuery.Proofs.Condition.LeftFold
import EntityQuery.TextQuery.Token

/-! # How the text of conditions is read

In the text of conditions AND binds tighter than OR, both associate to the left, and parentheses
group.  `Parses` is that grammar over tokens, and a text is read by cutting it into tokens
(`Reads`).  A text over given leaves has at most one reading (`Reads.unique`): the leaves say where
the cuts are (`Leads.eq_of_text`), and the grammar is unambiguous (`Parses.unique`). -/

namespace EntityQuery

namespace Token

/-! ## The grammar -/

/-- How tightly a piece of text holds together. -/
inductive Strength where
  | operand
  | conjunction
  | disjunction

/-- The grammar of conditions, in which AND binds tighter than OR. -/
inductive Parses : Strength → List Token → Formula Phrase → Prop
  | atom (p : Phrase) : Parses .operand [.atom p] (.atom p)
  | group {ts f} (h : Parses .disjunction ts f) :
      Parses .operand (.opening :: (ts ++ [.closing])) f
  | operand {ts f} (h : Parses .operand ts f) : Parses .conjunction ts f
  | and {ts us f g} (h : Parses .conjunction ts f) (h' : Parses .operand us g) :
      Parses .conjunction (ts ++ .connective .and :: us) (.and f g)
  | conjunction {ts f} (h : Parses .conjunction ts f) : Parses .disjunction ts f
  | or {ts us f g} (h : Parses .disjunction ts f) (h' : Parses .conjunction us g) :
      Parses .disjunction (ts ++ .connective .or :: us) (.or f g)

/-- The atoms among tokens, from left to right. -/
def atoms : List Token → List Phrase
  | [] => []
  | .atom p :: ts => p :: atoms ts
  | .connective _ :: ts | .opening :: ts | .closing :: ts => atoms ts

theorem atoms_append (ts us : List Token) : atoms (ts ++ us) = atoms ts ++ atoms us := by
  induction ts with
  | nil => rfl
  | cons t ts ih =>
    cases t with
    | atom p => exact congrArg (p :: ·) ih
    | connective c => exact ih
    | opening => exact ih
    | closing => exact ih

variable {s : Strength} {ts us : List Token} {f g : Formula Phrase}

/-- What is parsed has the atoms of its formula. -/
theorem Parses.atoms_eq (h : Parses s ts f) : atoms ts = f.leaves := by
  induction h with
  | atom p => rfl
  | group h ih => rw [atoms, atoms_append, ih]; exact List.append_nil _
  | operand h ih => exact ih
  | and h h' ih ih' => rw [atoms_append, atoms, ih, ih']; rfl
  | conjunction h ih => exact ih
  | or h h' ih ih' => rw [atoms_append, atoms, ih, ih']; rfl

theorem Parses.ne_nil (h : Parses s ts f) : ts ≠ [] := by
  induction h with
  | atom p => exact List.cons_ne_nil _ _
  | group h ih => exact List.cons_ne_nil _ _
  | operand h ih => exact ih
  | and h h' ih ih' => exact List.append_ne_nil_of_left_ne_nil ih _
  | conjunction h ih => exact ih
  | or h h' ih ih' => exact List.append_ne_nil_of_left_ne_nil ih _

/-! ## The grammar is unambiguous

The tokens are read from left to right.  What was read of the current group is the disjunction
before its last OR and the conjunction before its last AND; the groups around it wait on a stack. -/

/-- The conjunction so far with one more operand. -/
def conjoin : Option (Formula Phrase) → Formula Phrase → Formula Phrase
  | none, f => f
  | some c, f => .and c f

/-- The disjunction so far with one more part. -/
def disjoin : Option (Formula Phrase) → Formula Phrase → Formula Phrase
  | none, f => f
  | some d, f => .or d f

/-- The disjunction and the conjunction that a group was left at. -/
abbrev Pending := Option (Formula Phrase) × Option (Formula Phrase)

mutual

/-- Reads on where an operand has to come. -/
def readOperand (stack : List Pending) (before : Pending) : List Token → Option (Formula Phrase)
  | .atom p :: ts => readOperator stack before.1 (conjoin before.2 (.atom p)) ts
  | .opening :: ts => readOperand (before :: stack) (none, none) ts
  | _ => none

/-- Reads on behind the conjunction `f`. -/
def readOperator (stack : List Pending) (before : Option (Formula Phrase)) (f : Formula Phrase) :
    List Token → Option (Formula Phrase)
  | [] => if stack.isEmpty then some (disjoin before f) else none
  | .connective .and :: ts => readOperand stack (before, some f) ts
  | .connective .or :: ts => readOperand stack (some (disjoin before f), none) ts
  | .closing :: ts =>
    match stack with
    | [] => none
    | outer :: stack => readOperator stack outer.1 (conjoin outer.2 (disjoin before f)) ts
  | _ => none

end

/-- What reading over tokens of a strength comes to, whatever follows them. -/
def ReadsOver (ts : List Token) (f : Formula Phrase) : Strength → Prop
  | .operand => ∀ stack before rest, readOperand stack before (ts ++ rest) =
      readOperator stack before.1 (conjoin before.2 f) rest
  | .conjunction => ∀ stack before rest, readOperand stack (before, none) (ts ++ rest) =
      readOperator stack before f rest
  | .disjunction => ∃ before last, disjoin before last = f ∧ ∀ stack rest,
      readOperand stack (none, none) (ts ++ rest) = readOperator stack before last rest

/-- A parse is what reading from the left comes to. -/
theorem Parses.readsOver (h : Parses s ts f) : ReadsOver ts f s := by
  induction h with
  | atom p => exact fun stack before rest => rfl
  | @group ts f h ih =>
    intro stack before rest
    obtain ⟨d, c, hf, ih⟩ := ih
    rw [List.cons_append, List.append_assoc, readOperand, ih, List.singleton_append, readOperator,
      hf]
  | operand h ih => exact fun stack before rest => ih stack (before, none) rest
  | and h h' ih ih' =>
    intro stack before rest
    rw [List.append_assoc, List.cons_append, ih, readOperator, ih']
    rfl
  | @conjunction ts f h ih => exact ⟨none, f, rfl, fun stack rest => ih stack none rest⟩
  | @or ts us f g h h' ih ih' =>
    obtain ⟨d, c, hf, ih⟩ := ih
    refine ⟨some f, g, rfl, fun stack rest => ?_⟩
    rw [List.append_assoc, List.cons_append, ih, readOperator, ih', hf]

/-- Tokens have one parse at most. -/
theorem Parses.unique (h : Parses .disjunction ts f) (h' : Parses .disjunction ts g) : f = g := by
  obtain ⟨d, c, hf, hread⟩ := h.readsOver
  obtain ⟨d', c', hg, hread'⟩ := h'.readsOver
  have hread := (hread [] []).symm.trans (hread' [] [])
  rw [readOperator, readOperator] at hread
  rw [← hf, ← hg]
  exact Option.some.inj hread

/-! ## The leaves say where the cuts are

Behind an operand stands the end, a closing parenthesis or a blank, and never an opening
parenthesis.  So the number of opening parentheses at the front of a text says how many of them
come before its first leaf, even if the leaf begins with some itself. -/

mutual

/-- Tokens that begin where an operand has to come. -/
def Leads : List Token → Prop
  | .atom _ :: ts => Follows ts
  | .opening :: ts => Leads ts
  | _ => False

/-- Tokens that begin behind an operand. -/
def Follows : List Token → Prop
  | [] => True
  | .connective _ :: ts => Leads ts
  | .closing :: ts => Follows ts
  | _ => False

end

theorem Parses.leads (h : Parses s ts f) {rest : List Token} (hr : Follows rest) :
    Leads (ts ++ rest) := by
  induction h generalizing rest with
  | atom p => exact hr
  | group h ih =>
    rw [List.cons_append, List.append_assoc]
    exact @ih (.closing :: rest) hr
  | operand h ih => exact ih hr
  | and h h' ih ih' =>
    rw [List.append_assoc]
    exact @ih (.connective .and :: (_ ++ rest)) (ih' hr)
  | conjunction h ih => exact ih hr
  | or h h' ih ih' =>
    rw [List.append_assoc]
    exact @ih (.connective .or :: (_ ++ rest)) (ih' hr)

/-- The characters of tokens. -/
def chars (ts : List Token) : List Char := (phrases ts).text.toList

theorem chars_cons (t : Token) (ts : List Token) :
    chars (t :: ts) = t.phrase.text.toList ++ chars ts := by
  rw [chars, phrases, Phrase.text_append, String.toList_append, chars]

theorem chars_opening (ts : List Token) : chars (.opening :: ts) = '(' :: chars ts :=
  chars_cons .opening ts

theorem chars_closing (ts : List Token) : chars (.closing :: ts) = ')' :: chars ts :=
  chars_cons .closing ts

theorem chars_and (ts : List Token) :
    chars (.connective .and :: ts) = ' ' :: 'a' :: 'n' :: 'd' :: ' ' :: chars ts :=
  chars_cons (.connective .and) ts

theorem chars_or (ts : List Token) :
    chars (.connective .or :: ts) = ' ' :: 'o' :: 'r' :: ' ' :: chars ts :=
  chars_cons (.connective .or) ts

/-- How many opening parentheses a text begins with. -/
def lead (cs : List Char) : Nat := (cs.takeWhile (· = '(')).length

theorem lead_opening (cs : List Char) : lead ('(' :: cs) = lead cs + 1 := rfl

theorem lead_append {bs : List Char} (h : lead bs = 0) (as : List Char) :
    lead (as ++ bs) = lead as := by
  induction as with
  | nil => exact h
  | cons a as ih =>
    by_cases ha : a = '('
    · subst ha
      rw [List.cons_append, lead_opening, lead_opening, ih]
    · simp [lead, ha]

/-- What follows a condition does not start with an opening parenthesis. -/
theorem Follows.lead_chars (h : Follows ts) : lead (chars ts) = 0 := by
  match ts, h with
  | [], _ => rfl
  | .connective .and :: ts, _ => rw [chars_and]; rfl
  | .connective .or :: ts, _ => rw [chars_or]; rfl
  | .closing :: ts, _ => rw [chars_closing]; rfl

/-- The first leaf is at most the opening parentheses before it away from the front. -/
theorem Leads.lead_le {p : Phrase} {ps : List Phrase} (h : Leads ts) (ha : atoms ts = p :: ps) :
    lead p.text.toList ≤ lead (chars ts) := by
  induction ts with
  | nil => exact h.elim
  | cons t ts ih =>
    match t, h with
    | .atom q, h =>
      obtain ⟨rfl, -⟩ := List.cons.inj ha
      rw [chars_cons, lead_append (Follows.lead_chars h)]
      exact Nat.le_refl _
    | .opening, h =>
      rw [chars_opening, lead_opening]
      exact Nat.le_succ_of_le (ih h ha)

/-- A parenthesis that opens a group cannot be taken for one inside an atom. -/
theorem Leads.opening_ne_atom {p : Phrase} (h : Leads ts) (h' : Follows us)
    (ha : atoms ts = p :: atoms us) : chars (.opening :: ts) ≠ chars (.atom p :: us) := by
  intro hc
  have hl := congrArg lead hc
  rw [chars_opening, lead_opening, chars_cons, lead_append h'.lead_chars] at hl
  have := h.lead_le ha
  exact absurd hl (Nat.ne_of_gt (Nat.lt_succ_of_le this))

/-- The token that a text behind an operand begins with. -/
def nextToken? : List Char → Option Token
  | ')' :: _ => some .closing
  | ' ' :: 'a' :: _ => some (.connective .and)
  | ' ' :: 'o' :: _ => some (.connective .or)
  | _ => none

/-- Behind a condition the next token can be told from the characters. -/
theorem Follows.head? (h : Follows ts) : ts.head? = nextToken? (chars ts) := by
  match ts, h with
  | [], _ => rfl
  | .connective .and :: ts, _ => rw [chars_and]; rfl
  | .connective .or :: ts, _ => rw [chars_or]; rfl
  | .closing :: ts, _ => rw [chars_closing]; rfl

/-- Tokens are known from their characters and their atoms. -/
theorem eq_of_chars (ts : List Token) :
    (∀ us, Leads ts → Leads us → atoms ts = atoms us → chars ts = chars us → ts = us) ∧
      ∀ us, Follows ts → Follows us → atoms ts = atoms us → chars ts = chars us → ts = us := by
  induction ts with
  | nil =>
    refine ⟨fun us h => h.elim, fun us h h' ha hc => ?_⟩
    have hh : us.head? = none := by rw [h'.head?, ← hc, ← h.head?]; rfl
    exact (List.head?_eq_none_iff.1 hh).symm
  | cons t ts ih =>
    constructor
    · intro us h h' ha hc
      match t, us, h, h' with
      | .atom p, .atom q :: us, h, h' =>
        obtain ⟨rfl, hrest⟩ := List.cons.inj ha
        rw [chars_cons, chars_cons, List.append_cancel_left_eq] at hc
        exact congrArg _ (ih.2 us h h' hrest hc)
      | .opening, .opening :: us, h, h' =>
        rw [chars_cons, chars_cons, List.append_cancel_left_eq] at hc
        exact congrArg _ (ih.1 us h h' ha hc)
      | .opening, .atom q :: us, h, h' => exact absurd hc (Leads.opening_ne_atom h h' ha)
      | .atom p, .opening :: us, h, h' =>
        exact absurd hc.symm (Leads.opening_ne_atom h' h ha.symm)
    · intro us h h' ha hc
      have hh : us.head? = some t := by rw [h'.head?, ← hc, ← h.head?]; rfl
      obtain ⟨us, rfl⟩ := List.head?_eq_some_iff.1 hh
      rw [chars_cons, chars_cons, List.append_cancel_left_eq] at hc
      match t, h, h' with
      | .closing, h, h' => exact congrArg _ (ih.2 us h h' ha hc)
      | .connective c, h, h' => exact congrArg _ (ih.1 us h h' ha hc)

end Token

/-- A text is cut into tokens whose atoms are the leaves, and they parse as the formula. -/
def Reads (leaves : List Phrase) (text : String) (f : Formula Phrase) : Prop :=
  ∃ ts, (Token.phrases ts).text = text ∧ Token.atoms ts = leaves ∧
    Token.Parses .disjunction ts f

/-- A text with known leaves has one reading. -/
theorem Reads.unique {leaves : List Phrase} {text : String} {f g : Formula Phrase} :
    Reads leaves text f → Reads leaves text g → f = g := by
  rintro ⟨ts, ht, hl, hp⟩ ⟨us, hu, hm, hq⟩
  have hnil : Token.Follows [] := trivial
  have hts := hp.leads hnil
  have hus := hq.leads hnil
  rw [List.append_nil] at hts hus
  have : ts = us := (Token.eq_of_chars ts).1 us hts hus (hl.trans hm.symm)
    (congrArg String.toList (ht.trans hu.symm))
  subst this
  exact hp.unique hq

end EntityQuery
