import EntityQuery.Text.Expression

/-! # Patterns

In a pattern `%` stands for any run of characters, `_` for any single one, and every other
character for itself.  A text is looked through for the regular expression of the pattern, which is
anchored at both ends.

The expression may be too large to look for: it is measured by two machines over bytes that
recognise its texts, one reading forwards and one backwards. -/

namespace EntityQuery.Text

/-- The regular expression of one character of a pattern. -/
def characterExpression (c : Char) : List Char :=
  if c = '%' then ['.', '*'] else if c = '_' then ['.'] else escapeMeta c

/-- The regular expression of a pattern. -/
def patternExpression (pattern : List Char) : List Char :=
  "(?s)^".toList ++ pattern.flatMap characterExpression ++ ['$']

/-- What one character of a pattern comes to in its expression. -/
def characterItem (c : Char) : Item :=
  if c = '%' then .many .any else if c = '_' then .one .any else .one (.char c)

/-- A pattern is about the whole text. -/
def patternItems (pattern : List Char) : List Item :=
  .start :: pattern.map characterItem ++ [.stop]

/-- Each character of a pattern is read as its own item. -/
theorem readItems?_characterExpression (before : List Item) (c : Char) (cs : List Char) :
    readItems? true before (characterExpression c ++ cs) =
      readItems? true (characterItem c :: before) cs := by
  rw [characterExpression, characterItem]
  split
  · rfl
  · split
    · rfl
    · exact readItems?_escapeMeta true before c cs

/-- The expression of every pattern can be read. -/
theorem readItems?_patternExpression (pattern : List Char) :
    readItems? false [] (patternExpression pattern) = some (patternItems pattern) := by
  have hcharacters : ∀ before,
      readItems? true before (pattern.flatMap characterExpression ++ ['$']) =
        some (before.reverse ++ pattern.map characterItem ++ [.stop]) := by
    induction pattern with
    | nil =>
      intro before
      rw [List.flatMap_nil, List.map_nil, List.append_nil]
      exact congrArg some List.reverse_cons
    | cons c pattern ih =>
      intro before
      rw [List.flatMap_cons, List.append_assoc, readItems?_characterExpression, ih,
        List.reverse_cons, List.map_cons, List.append_assoc, List.append_assoc, List.append_assoc]
      rfl
  exact hcharacters [.start]

/-- The text has the regular expression of the pattern. -/
def hasPattern (pattern text : List Char) : Bool :=
  isFound ((readItems? false [] (patternExpression pattern)).get
    (by rw [readItems?_patternExpression, Option.isSome_some])) text

/-- The bytes that a state of a machine takes. -/
def stateSize : Nat := 32

/-- The bytes that a step of a state on a range of bytes takes. -/
def stepSize : Nat := 8

/-- The bytes that a way out of a state without reading takes. -/
def branchSize : Nat := 4

/-- The size of any character read forwards: of the nine shapes that its bytes can have, those with
the same end share its states. -/
def anyForward : Nat := 9 * stateSize + 16 * stepSize

/-- The size of any character read backwards: a chain of states for each of the nine shapes. -/
def anyBackward : Nat := 29 * stateSize + 9 * branchSize

/-- The size of one character of a pattern, from that of any character. -/
def symbolSize (any : Nat) (c : Char) : Nat :=
  if c = '%' then any + stateSize + 2 * branchSize
  else if c = '_' then any
  else c.utf8Size * stateSize

/-- The states of a machine for a pattern, in bytes. -/
def machineSize (states any : Nat) (pattern : List Char) : Nat :=
  states * stateSize + (pattern.map (symbolSize any)).foldr (· + ·) 0

/-- The largest size of a machine: ten mebibytes. -/
def machineLimit : Nat := 10 * 1024 * 1024

/-- Besides their characters the machines have an entry, an exit and the two ends of the text, and
the one reading forwards marks where the match starts and ends. -/
def isTooLarge (pattern : List Char) : Bool :=
  machineLimit < machineSize 6 anyForward pattern ||
    machineLimit < machineSize 4 anyBackward pattern

end EntityQuery.Text
