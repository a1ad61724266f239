/-! # Regular expressions

Of the syntax of regular expressions the characters, `.`, the star after one of them, the anchors
`^` and `$`, and the flag `(?s)` with which `.` stands for line breaks too.  A backslash lets a
metacharacter stand for itself.

An expression is found in a text if some part of the text matches it.  The table of an expression
says of every suffix of the text whether the expression matches a part at its beginning; the table
is made from that of the rest of the expression. -/

namespace EntityQuery.Text

/-- What stands for single characters. -/
inductive Symbol where
  | char (c : Char)
  /-- Any character but a line break. -/
  | inLine
  | any
deriving DecidableEq

/-- A part of an expression. -/
inductive Item where
  | one (s : Symbol)
  | many (s : Symbol)
  /-- The beginning of the text. -/
  | start
  /-- The end of the text. -/
  | stop
deriving DecidableEq

/-- The characters that a backslash may precede to make them stand for themselves. -/
def isMeta (c : Char) : Bool := "\\.+*?()|[]\x7b\x7d^$#&-~".toList.contains c

/-- The metacharacters whose constructs are not read. -/
def opensConstruct (c : Char) : Bool := "\\+?()|[\x7b".toList.contains c

/-- An expression for exactly the character. -/
def escapeMeta (c : Char) : List Char := if isMeta c then ['\\', c] else [c]

/-- A star lets what stands before it stand any number of times. -/
def repeatLast? : List Item → Option (List Item)
  | .one s :: before => some (.many s :: before)
  | _ => none

/-- Reads an expression after the items read so far, which are in reverse; with `dotAll`, `.` stands
for any character. -/
def readItems? (dotAll : Bool) (before : List Item) : List Char → Option (List Item)
  | [] => some before.reverse
  | '\\' :: c :: cs =>
    if isMeta c then readItems? dotAll (.one (.char c) :: before) cs else none
  | '(' :: '?' :: 's' :: ')' :: cs => readItems? true before cs
  | c :: cs =>
    if c = '.' then readItems? dotAll (.one (if dotAll then .any else .inLine) :: before) cs
    else if c = '*' then (repeatLast? before).bind fun before => readItems? dotAll before cs
    else if c = '^' then readItems? dotAll (.start :: before) cs
    else if c = '$' then readItems? dotAll (.stop :: before) cs
    else if opensConstruct c then none
    else readItems? dotAll (.one (.char c) :: before) cs

/-- An escaped character stands for itself. -/
theorem readItems?_escapeMeta (dotAll : Bool) (before : List Item) (c : Char) (cs : List Char) :
    readItems? dotAll before (escapeMeta c ++ cs) =
      readItems? dotAll (.one (.char c) :: before) cs := by
  rw [escapeMeta]
  split
  · rename_i h
    rw [List.cons_append, List.singleton_append, readItems?, if_pos h]
  · rename_i h
    have hne : ∀ d, isMeta d → c ≠ d := by
      rintro d hd rfl
      exact h hd
    have hnot : opensConstruct c = false := by
      have hsub : "\\+?()|[\x7b".toList.all isMeta := by decide
      rw [opensConstruct, List.contains_eq_mem, decide_eq_false_iff_not]
      intro hmem
      exact h (List.all_eq_true.1 hsub c hmem)
    rw [List.singleton_append, readItems?, if_neg (hne '.' rfl), if_neg (hne '*' rfl),
      if_neg (hne '^' rfl), if_neg (hne '$' rfl), if_neg (by simp [hnot])]
    · intro _ _ hc
      exact absurd hc (hne '\\' rfl)
    · intro _ hc
      exact absurd hc (hne '(' rfl)

/-- The characters that a symbol stands for. -/
def Symbol.admits : Symbol → Char → Bool
  | .char a, c => a = c
  | .inLine, c => c ≠ '\n'
  | .any, _ => true

/-- The table of one `s` and then what `table` is of. -/
def oneTable (s : Symbol) : List Char → List Bool → List Bool
  | [], _ => [false]
  | c :: text, table => (s.admits c && table.tail.headD false) :: oneTable s text table.tail

/-- The table of any number of `s` and then what `table` is of. -/
def manyTable (s : Symbol) : List Char → List Bool → List Bool
  | [], table => [table.headD false]
  | c :: text, table =>
    let rest := manyTable s text table.tail
    (table.headD false || (s.admits c && rest.headD false)) :: rest

/-- What `table` says, but only of the whole text. -/
def startTable : List Bool → List Bool
  | [] => []
  | b :: table => b :: table.map fun _ => false

/-- What `table` says, but only of the empty suffix. -/
def stopTable : List Char → List Bool → List Bool
  | [], table => [table.headD false]
  | _ :: text, table => false :: stopTable text table.tail

/-- Which suffixes of a text an item and what follows it match, from those that what follows
matches. -/
def Item.table (text : List Char) : Item → List Bool → List Bool
  | .one s => oneTable s text
  | .many s => manyTable s text
  | .start => startTable
  | .stop => stopTable text

/-- No items match at every place of the text, its end included. -/
def itemsTable (text : List Char) (items : List Item) : List Bool :=
  items.foldr (fun item table => item.table text table) (true :: text.map fun _ => true)

/-- The items match from some place in the text on. -/
def isFound (items : List Item) (text : List Char) : Bool := (itemsTable text items).any id

end EntityQuery.Text
