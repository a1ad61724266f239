import EntityQuery.Evaluation.Comparison
import Mathlib.Data.List.Forall2

/-! # What patterns match

An expression is found in a text exactly if a part of the text can be divided among its items
(`isFound_iff`): the table of an expression says of each place of the text whether that is so there,
and each item makes such a table from one.  The expression of a pattern is anchored at both ends, so
that a text has the pattern exactly if all of it can be divided among the characters of the pattern
(`hasPattern_iff`). -/

namespace EntityQuery

namespace Text

variable {before rest piece text : List Char} {c : Char} {s : Symbol}

/-! ## Expressions -/

/-- The item matches a piece that stands between `before` and `after`. -/
inductive Item.Matches : Item → List Char → List Char → List Char → Prop where
  | one {s : Symbol} {before after : List Char} {c : Char} (h : s.admits c) :
    Matches (.one s) before [c] after
  | many {s : Symbol} {before piece after : List Char} (h : ∀ c ∈ piece, s.admits c) :
    Matches (.many s) before piece after
  | start {after : List Char} : Matches .start [] [] after
  | stop {before : List Char} : Matches .stop before [] []

/-- The item matches a piece in front of which `before` stands, and behind the piece `P` holds. -/
def Item.Then (item : Item) (P : List Char → List Char → Prop) (before text : List Char) : Prop :=
  ∃ piece rest, text = piece ++ rest ∧ item.Matches before piece rest ∧ P (before ++ piece) rest

/-- The items match one after another at the beginning of a text that follows `before`. -/
inductive MatchesAll : List Item → List Char → List Char → Prop where
  | nil {before rest : List Char} : MatchesAll [] before rest
  | cons {item : Item} {items : List Item} {before piece rest : List Char}
    (h : item.Matches before piece rest) (hs : MatchesAll items (before ++ piece) rest) :
    MatchesAll (item :: items) before (piece ++ rest)

/-- Items match one after the other. -/
theorem matchesAll_cons_iff {item : Item} {items : List Item} :
    MatchesAll (item :: items) before text ↔ item.Then (MatchesAll items) before text := by
  constructor
  · intro h
    cases h with
    | cons h hs => exact ⟨_, _, rfl, h, hs⟩
  · rintro ⟨piece, rest, rfl, h, hs⟩
    exact .cons h hs

/-! ## Tables -/

/-- The table says where `P` holds: of `before` and the text that follows, and of each later place
at which the two can be divided. -/
inductive TableOf (P : List Char → List Char → Prop) :
    List Char → List Char → List Bool → Prop where
  | nil {before : List Char} {b : Bool} (h : b ↔ P before []) : TableOf P before [] [b]
  | cons {before text : List Char} {c : Char} {b : Bool} {table : List Bool}
    (h : b ↔ P before (c :: text)) (hs : TableOf P (before ++ [c]) text table) :
    TableOf P before (c :: text) (b :: table)

namespace TableOf

variable {P Q : List Char → List Char → Prop} {table : List Bool}

/-- The head of a table is about the whole rest of the text. -/
theorem headD_iff (h : TableOf P before text table) : table.headD false ↔ P before text := by
  cases h with
  | nil h => exact h
  | cons h _ => exact h

theorem congr (h : TableOf P before text table)
    (hPQ : ∀ before rest, P before rest ↔ Q before rest) : TableOf Q before text table := by
  induction h with
  | nil h => exact .nil (h.trans (hPQ _ _))
  | cons h _ ih => exact .cons (h.trans (hPQ _ _)) ih

/-- A table has an entry at every place of the text. -/
theorem any_iff (h : TableOf P before text table) :
    table.any id ↔ ∃ piece rest, piece ++ rest = text ∧ P (before ++ piece) rest := by
  induction h with
  | @nil before b h =>
    simp only [List.any_cons, List.any_nil, Bool.or_false, id_eq, h]
    constructor
    · intro h
      exact ⟨[], [], rfl, by rwa [List.append_nil]⟩
    · rintro ⟨piece, rest, hsplit, h⟩
      obtain ⟨rfl, rfl⟩ := List.append_eq_nil_iff.1 hsplit
      rwa [List.append_nil] at h
  | @cons before text c b table hb _ ih =>
    rw [List.any_cons, Bool.or_eq_true, ih, id_eq, hb]
    constructor
    · rintro (h | ⟨piece, rest, rfl, h⟩)
      · exact ⟨[], c :: text, rfl, by rwa [List.append_nil]⟩
      · exact ⟨c :: piece, rest, rfl, by rwa [List.append_cons]⟩
    · rintro ⟨piece, rest, hsplit, h⟩
      cases piece with
      | nil =>
        obtain rfl : rest = c :: text := hsplit
        exact .inl (by rwa [List.append_nil] at h)
      | cons d piece =>
        obtain ⟨rfl, rfl⟩ := List.cons.inj hsplit
        exact .inr ⟨piece, rest, rfl, by rwa [List.append_cons] at h⟩

/-- One character is taken, and then the rest. -/
theorem oneTable (s : Symbol) (h : TableOf P before text table) :
    TableOf ((Item.one s).Then P) before text (oneTable s text table) := by
  induction h with
  | nil _ =>
    refine .nil ⟨nofun, ?_⟩
    rintro ⟨_, rest, hsplit, ⟨⟩, _⟩
    cases hsplit
  | @cons before text c b table _ hs ih =>
    refine .cons ?_ ih
    rw [Bool.and_eq_true, List.tail_cons, hs.headD_iff]
    constructor
    · rintro ⟨hc, h⟩
      exact ⟨[c], text, rfl, .one hc, h⟩
    · rintro ⟨_, rest, hsplit, ⟨hc⟩, h⟩
      obtain ⟨rfl, rfl⟩ := List.cons.inj hsplit
      exact ⟨hc, h⟩

/-- Any number of characters is taken, and then the rest. -/
theorem manyTable (s : Symbol) (h : TableOf P before text table) :
    TableOf ((Item.many s).Then P) before text (manyTable s text table) := by
  induction h with
  | @nil before b h =>
    refine .nil (h.trans ?_)
    constructor
    · intro h
      exact ⟨[], [], rfl, .many nofun, by rwa [List.append_nil]⟩
    · rintro ⟨piece, rest, hsplit, _, h⟩
      obtain ⟨rfl, rfl⟩ := List.append_eq_nil_iff.1 hsplit.symm
      rwa [List.append_nil] at h
  | @cons before text c b table hb hs ih =>
    refine .cons ?_ ih
    -- Nothing of the text is taken here, or its first character and then as for the rest.
    rw [Bool.or_eq_true, Bool.and_eq_true, List.tail_cons, ih.headD_iff, List.headD_cons, hb]
    constructor
    · rintro (h | ⟨hc, piece, rest, rfl, _ | hpiece, h⟩)
      · exact ⟨[], c :: text, rfl, .many nofun, by rwa [List.append_nil]⟩
      · refine ⟨c :: piece, rest, rfl, .many ?_, by rwa [List.append_cons]⟩
        rintro d (_ | ⟨_, hd⟩)
        · exact hc
        · exact hpiece d hd
    · rintro ⟨piece, rest, hsplit, _ | hpiece, h⟩
      cases piece with
      | nil =>
        obtain rfl : rest = c :: text := hsplit.symm
        exact .inl (by rwa [List.append_nil] at h)
      | cons d piece =>
        obtain ⟨rfl, rfl⟩ := List.cons.inj hsplit
        exact .inr ⟨hpiece c List.mem_cons_self, piece, rest, rfl,
          .many fun d hd => hpiece d (List.mem_cons_of_mem _ hd), by rwa [List.append_cons] at h⟩

/-- Behind the beginning of the text nothing is anchored there. -/
theorem map_false (h : TableOf P before text table) (hne : before ≠ []) :
    TableOf (Item.start.Then P) before text (table.map fun _ => false) := by
  induction h with
  | nil _ =>
    refine .nil ⟨nofun, ?_⟩
    rintro ⟨_, _, _, ⟨⟩, _⟩
    exact absurd rfl hne
  | @cons before text c b table _ _ ih =>
    refine .cons ⟨nofun, ?_⟩ (ih (by simp))
    rintro ⟨_, _, _, ⟨⟩, _⟩
    exact absurd rfl hne

theorem startTable (h : TableOf P [] text table) :
    TableOf (Item.start.Then P) [] text (startTable table) := by
  have here : ∀ {text : List Char} {b : Bool}, (b ↔ P [] text) →
      (b ↔ Item.start.Then P [] text) := by
    intro text b h
    rw [h]
    constructor
    · intro h
      exact ⟨[], text, rfl, .start, h⟩
    · rintro ⟨_, rest, rfl, ⟨⟩, h⟩
      exact h
  cases h with
  | nil h => exact .nil (here h)
  | cons h hs => exact .cons (here h) (hs.map_false (by simp))

theorem stopTable (h : TableOf P before text table) :
    TableOf (Item.stop.Then P) before text (stopTable text table) := by
  induction h with
  | @nil before b h =>
    refine .nil (h.trans ?_)
    constructor
    · intro h
      exact ⟨[], [], rfl, .stop, by rwa [List.append_nil]⟩
    · rintro ⟨_, _, _, ⟨⟩, h⟩
      rwa [List.append_nil] at h
  | cons _ _ ih =>
    refine .cons ⟨nofun, ?_⟩ ih
    rintro ⟨_, _, hsplit, ⟨⟩, _⟩
    cases hsplit

end TableOf

/-- The table of items is right about every suffix of the text. -/
theorem tableOf_matchesAll (text : List Char) (items : List Item) :
    TableOf (MatchesAll items) [] text (itemsTable text items) := by
  induction items with
  | nil =>
    have hevery : ∀ before,
        TableOf (MatchesAll []) before text (true :: text.map fun _ => true) := by
      induction text with
      | nil => exact fun _ => .nil ⟨fun _ => .nil, fun _ => rfl⟩
      | cons c text ih => exact fun _ => .cons ⟨fun _ => .nil, fun _ => rfl⟩ (ih _)
    exact hevery []
  | cons item items ih =>
    refine TableOf.congr ?_ fun before rest => matchesAll_cons_iff.symm
    cases item with
    | one s => exact ih.oneTable s
    | many s => exact ih.manyTable s
    | start => exact ih.startTable
    | stop => exact ih.stopTable

/-- An expression is found where all its items match some part of the text. -/
theorem isFound_iff {items : List Item} :
    isFound items text ↔ ∃ before rest, before ++ rest = text ∧ MatchesAll items before rest :=
  (tableOf_matchesAll text items).any_iff

/-! ## Patterns -/

/-- A character of a pattern may stand for the piece of a text. -/
inductive StandsFor : Char → List Char → Prop where
  | run (piece : List Char) : StandsFor '%' piece
  | single (c : Char) : StandsFor '_' [c]
  | itself {c : Char} (hrun : c ≠ '%') (hsingle : c ≠ '_') : StandsFor c [c]

/-- A character of a pattern matches what it stands for. -/
theorem matches_characterItem_iff {p : Char} :
    (characterItem p).Matches before piece rest ↔ StandsFor p piece := by
  rw [characterItem]
  split
  · rename_i h
    subst h
    constructor
    · intro _
      exact .run piece
    · intro _
      exact .many fun _ _ => rfl
  · rename_i hrun
    split
    · rename_i h
      subst h
      constructor
      · rintro ⟨_⟩
        exact .single _
      · rintro (_ | ⟨c⟩ | ⟨_, hsingle⟩)
        · exact .one rfl
        · exact absurd rfl hsingle
    · rename_i hsingle
      constructor
      · rintro ⟨hc⟩
        obtain rfl := of_decide_eq_true hc
        exact .itself hrun hsingle
      · rintro (_ | _ | _)
        · exact absurd rfl hrun
        · exact absurd rfl hsingle
        · exact .one (decide_eq_true rfl)

/-- Up to the end of a text its characters are divided among those of the pattern. -/
theorem matchesAll_pattern_iff {pattern : List Char} :
    MatchesAll (pattern.map characterItem ++ [.stop]) before text ↔
      ∃ pieces, List.Forall₂ StandsFor pattern pieces ∧ pieces.flatten = text := by
  induction pattern generalizing before text with
  | nil =>
    rw [List.map_nil, List.nil_append, matchesAll_cons_iff]
    constructor
    · rintro ⟨_, _, rfl, ⟨⟩, _⟩
      exact ⟨[], .nil, rfl⟩
    · rintro ⟨_, ⟨⟩, rfl⟩
      exact ⟨[], [], rfl, .stop, .nil⟩
  | cons p pattern ih =>
    rw [List.map_cons, List.cons_append, matchesAll_cons_iff]
    constructor
    · rintro ⟨piece, rest, rfl, h, hs⟩
      obtain ⟨pieces, hpieces, rfl⟩ := ih.1 hs
      exact ⟨piece :: pieces, .cons (matches_characterItem_iff.1 h) hpieces, rfl⟩
    · rintro ⟨_, _ | @⟨_, piece, _, pieces, h, hpieces⟩, rfl⟩
      exact ⟨piece, pieces.flatten, rfl, matches_characterItem_iff.2 h, ih.2 ⟨pieces, hpieces, rfl⟩⟩

/-- The expression of a pattern matches a part of a text if it matches all of it. -/
theorem exists_matchesAll_patternItems_iff {pattern : List Char} :
    (∃ before rest, before ++ rest = text ∧ MatchesAll (patternItems pattern) before rest) ↔
      ∃ pieces, List.Forall₂ StandsFor pattern pieces ∧ pieces.flatten = text := by
  rw [patternItems, List.cons_append]
  constructor
  · rintro ⟨before, rest, rfl, h⟩
    obtain ⟨_, _, rfl, ⟨⟩, h⟩ := matchesAll_cons_iff.1 h
    exact matchesAll_pattern_iff.1 h
  · intro h
    have hall := matchesAll_cons_iff.2 ⟨[], text, rfl, .start, matchesAll_pattern_iff.2 h⟩
    exact ⟨[], text, rfl, hall⟩

/-- A text has a pattern if its characters can be divided, in order and without a rest, among the
characters of the pattern. -/
theorem hasPattern_iff {pattern : List Char} : hasPattern pattern text ↔
    ∃ pieces, List.Forall₂ StandsFor pattern pieces ∧ pieces.flatten = text := by
  simp only [hasPattern, readItems?_patternExpression, Option.get_some]
  exact isFound_iff.trans exists_matchesAll_patternItems_iff

/-- The engine finds an expression that can be read in the texts of which its items match a part. -/
def FindsItems (engine : List Char → List Char → Bool) : Prop :=
  ∀ expression items text, readItems? false [] expression = some items →
    (engine expression text ↔ ∃ before rest, before ++ rest = text ∧ MatchesAll items before rest)

/-- Every engine that works as documented agrees with the tables. -/
theorem FindsItems.eq_hasPattern {engine : List Char → List Char → Bool} (h : FindsItems engine)
    (pattern text : List Char) :
    engine (patternExpression pattern) text = hasPattern pattern text := by
  rw [Bool.eq_iff_iff, hasPattern_iff, ← exists_matchesAll_patternItems_iff]
  exact h _ _ _ (readItems?_patternExpression pattern)

end Text

/-- Neither value being null, nor the pattern too large to look for, the condition is decided: the
text has to be made of pieces that the characters of the pattern stand for, one each and in their
order.  Any engine that looks for the expression of the pattern decides alike. -/
theorem likeTruth_decides_pieces {v pattern : Value} (hv : v.isNull = false)
    (hpattern : pattern.isNull = false) (hsize : Text.isTooLarge pattern.text.toList = false)
    (negated : Bool) :
    ∃ found : Bool, v.likeTruth pattern negated = .ok (.ofBool (found != negated)) ∧
      (found ↔ ∃ pieces, List.Forall₂ Text.StandsFor pattern.text.toList pieces ∧
        pieces.flatten = v.text.toList) ∧
      ∀ engine, Text.FindsItems engine →
        engine (Text.patternExpression pattern.text.toList) v.text.toList = found := by
  refine ⟨_, ?_, Text.hasPattern_iff, fun engine h => h.eq_hasPattern _ _⟩
  rw [Value.likeTruth, hv, hpattern, hsize]
  rfl

/-- Looks for an expression that can be read, and finds no other. -/
def Text.findItems (expression text : List Char) : Bool :=
  match readItems? false [] expression with
  | some items => isFound items text
  | none => false

/-- A run with a line break in it, and a full stop that stands for nothing but itself. -/
theorem likeTruth_decides_pieces_of_lines :
    let v := Value.scalar (.string "(a\n.")
    let pattern := Value.scalar (.string "_%.")
    Text.isTooLarge pattern.text.toList = false ∧ v.likeTruth pattern false = .ok .holds ∧
      (∃ pieces, List.Forall₂ Text.StandsFor pattern.text.toList pieces ∧
        pieces.flatten = v.text.toList) ∧
      Text.FindsItems Text.findItems ∧
      Text.findItems "(?s)^..*\\.$".toList v.text.toList = true := by
  intro v pattern
  have hsize : Text.isTooLarge pattern.text.toList = false := by decide
  have hholds : v.likeTruth pattern false = .ok .holds := by decide
  have hfinds : Text.FindsItems Text.findItems := by
    intro expression items text h
    rw [Text.findItems, h]
    exact Text.isFound_iff
  obtain ⟨found, hfound, hpieces, hengine⟩ :=
    likeTruth_decides_pieces (v := v) rfl rfl hsize false
  have htrue : found = true := by
    rw [hholds] at hfound
    cases found with
    | true => rfl
    | false => exact absurd hfound nofun
  have hexpression : Text.patternExpression pattern.text.toList = "(?s)^..*\\.$".toList := by decide
  refine ⟨hsize, hholds, hpieces.1 htrue, hfinds, ?_⟩
  rw [← hexpression, hengine Text.findItems hfinds, htrue]

end EntityQuery
