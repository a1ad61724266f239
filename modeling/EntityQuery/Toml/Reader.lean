import EntityQuery.Toml.Bare
import EntityQuery.Toml.Quoted

/-! # Reading TOML

A document is read line by line: a header opens a table, and a key with a value is put into the
table that was opened last.  Every step takes at least one character, so that the length of the
text bounds their number.  Keys and values may be nested only so deep. -/

namespace EntityQuery.Toml

def skipGap (cs : List Char) : List Char := cs.dropWhile isGap

def isKeyChar (c : Char) : Bool := c.isAlphanum || c = '_' || c = '-'

/-- One segment of a key, and what follows it. -/
def readSegment? (cs : List Char) : Option (String × List Char) :=
  let run := cs.takeWhile isKeyChar
  if run.isEmpty then readString? false cs else some (String.ofList run, cs.drop run.length)

/-- How many segments a key may have, and how deep arrays and inline tables may be nested. -/
def depthLimit : Nat := 80

/-- At most so many segments between points, and what follows them. -/
def readPath? : Nat → List Char → Option (List String × String × List Char)
  | 0, _ => none
  | segments + 1, cs => do
    let (segment, rest) ← readSegment? (skipGap cs)
    match skipGap rest with
    | '.' :: rest =>
      let (path, key, rest) ← readPath? segments rest
      return (segment :: path, key, rest)
    | rest => return ([], segment, rest)

/-- A key: a path, its last segment, and what follows them. -/
def readKey? (cs : List Char) : Option (List String × String × List Char) :=
  readPath? depthLimit cs

/-- Without a comment at its head. -/
def skipComment (cs : List Char) : List Char :=
  if cs.head? = some '#' then cs.dropWhile isPlain else cs

/-- Without blanks, line ends and comments at its head. -/
def skipLines : Nat → List Char → List Char
  | 0, cs => cs
  | fuel + 1, cs =>
    match skipComment (skipGap cs) with
    | '\n' :: rest => skipLines fuel rest
    | '\r' :: '\n' :: rest => skipLines fuel rest
    | rest => rest

/-- What follows the rest of a line, in which there is nothing but blanks and a comment. -/
def lineEnd? (cs : List Char) : Option (List Char) :=
  match skipComment (skipGap cs) with
  | [] => some []
  | '\n' :: rest => some rest
  | '\r' :: '\n' :: rest => some rest
  | _ => none

mutual

/-- A value, nested at most `depth` deep, and what follows it. -/
def readValue? (depth : Nat) : Nat → List Char → Option (Toml × List Char)
  | 0, _ => none
  | _, [] => none
  | fuel + 1, c :: cs =>
    if c = '"' ∨ c = '\'' then (readString? true (c :: cs)).map fun p => (.string p.1, p.2)
    else if c = '[' then
      if depth = 0 then none else readItems? (depth - 1) fuel [] (skipLines cs.length cs)
    else if c = '\x7b' then
      if depth = 0 then none else readEntries? (depth - 1) fuel [] (skipLines cs.length cs)
    else readBare? (c :: cs)

/-- The items of an array, after those that were read, up to its end. -/
def readItems? (depth : Nat) : Nat → List Toml → List Char → Option (Toml × List Char)
  | 0, _, _ => none
  | fuel + 1, done, cs =>
    if cs.head? = some ']' then some (.array done.reverse, cs.drop 1)
    else do
      let (v, rest) ← readValue? depth fuel cs
      match skipLines rest.length rest with
      | ',' :: rest => readItems? depth fuel (v :: done) (skipLines rest.length rest)
      | ']' :: rest => return (.array (v :: done).reverse, rest)
      | _ => none

/-- The entries of an inline table, after those that were read, up to its end. -/
def readEntries? (depth : Nat) : Nat → Entries → List Char → Option (Toml × List Char)
  | 0, _, _ => none
  | fuel + 1, done, cs =>
    if cs.head? = some '\x7d' then some (.table .inline done, cs.drop 1)
    else do
      let (path, key, rest) ← readKey? cs
      match skipLines rest.length rest with
      | '=' :: rest =>
        let (v, rest) ← readValue? depth fuel (skipLines rest.length rest)
        let done ← addValue? done [] path key v
        match skipLines rest.length rest with
        | ',' :: rest => readEntries? depth fuel done (skipLines rest.length rest)
        | '\x7d' :: rest => return (.table .inline done, rest)
        | _ => none
      | _ => none

end

/-- The path of a header and what follows its closing brackets. -/
def readHeader? (closing : List Char) (cs : List Char) :
    Option (List String × String × List Char) := do
  let (path, key, rest) ← readKey? cs
  if rest.take closing.length = closing then
    let rest ← lineEnd? (rest.drop closing.length)
    return (path, key, rest)
  else none

/-- Reads lines into a document, the table at `here` being open. -/
def readLines? : Nat → Entries → List String → List Char → Option Entries
  | 0, _, _, _ => none
  | fuel + 1, entries, here, cs =>
    match skipGap cs with
    | [] => some entries
    | '[' :: '[' :: rest => do
      let (path, key, rest) ← readHeader? [']', ']'] rest
      let entries ← openNext? entries path key
      readLines? fuel entries (path ++ [key]) rest
    | '[' :: rest => do
      let (path, key, rest) ← readHeader? [']'] rest
      let entries ← openTable? entries path key
      readLines? fuel entries (path ++ [key]) rest
    | cs =>
      match lineEnd? cs with
      | some rest => readLines? fuel entries here rest
      | none => do
        let (path, key, rest) ← readKey? cs
        if rest.head? ≠ some '=' then none
        else
          let rest := skipGap (rest.drop 1)
          let (v, rest) ← readValue? depthLimit rest.length rest
          let rest ← lineEnd? rest
          let entries ← addValue? entries here path key v
          readLines? fuel entries here rest

/-- The entries of the document that a text writes.  A byte order mark may stand before it. -/
def read? (text : String) : Option Entries :=
  let cs := if text.toList.head? = some '\uFEFF' then text.toList.drop 1 else text.toList
  readLines? (text.length + 1) [] [] cs

end EntityQuery.Toml
