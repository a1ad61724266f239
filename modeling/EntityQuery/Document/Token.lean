import EntityQuery.Document.Number

/-! # Tokens of JSON

A text is cut into marks and scalars, character by character. -/

namespace EntityQuery.Document

/-- A text comes apart into marks and scalars. -/
inductive Token where
  /-- A bracket, a brace, a comma or a colon. -/
  | mark (c : Char)
  | scalar (d : Document)

/-- Where in a token the next character stands.  What was read of a token is held last character
first. -/
inductive Lexing where
  | between
  /-- In a number or a word. -/
  | bare (read : List Char)
  | text (read : List Char)
  /-- After a backslash. -/
  | escape (read : List Char)
  /-- In a character given by four digits; `high?` is the first half of a surrogate pair. -/
  | code (read : List Char) (high? : Option Nat) (digits value : Nat)
  /-- After the first half of a surrogate pair, and after a backslash behind it. -/
  | half (read : List Char) (high : Nat)
  | halfEscape (read : List Char) (high : Nat)

/-- Only these four characters may stand between tokens. -/
def isSpace (c : Char) : Bool := c = ' ' || c = '\t' || c = '\n' || c = '\r'

def isMark (c : Char) : Bool := "[]\x7b\x7d,:".toList.contains c

/-- A scalar that is not between quotation marks is one of three words or a number. -/
def readBare? (cs : List Char) : Option Document :=
  if cs = "null".toList then some .null
  else if cs = "true".toList then some (.bool true)
  else if cs = "false".toList then some (.bool false)
  else readNumber? cs

/-- The characters that one letter after a backslash stands for. -/
def escapes : List (Char × Char) :=
  [('"', '"'), ('\\', '\\'), ('/', '/'), ('b', '\x08'), ('f', '\x0c'), ('n', '\n'), ('r', '\r'),
    ('t', '\t')]

/-- What follows a character that was given by its code.  Surrogates come in pairs. -/
def afterCode? (read : List Char) (high? : Option Nat) (code : Nat) : Option Lexing :=
  let isHigh := 0xD800 ≤ code ∧ code < 0xDC00
  let isLow := 0xDC00 ≤ code ∧ code < 0xE000
  match high? with
  | some high =>
    if isLow then
      some (.text (Char.ofNat (0x10000 + (high - 0xD800) * 0x400 + (code - 0xDC00)) :: read))
    else none
  | none =>
    if isHigh then some (.half read code)
    else if isLow then none
    else some (.text (Char.ofNat code :: read))

/-- Where the next character stands inside a string. -/
def Lexing.next? (c : Char) : Lexing → Option Lexing
  | .text read =>
    if c = '\\' then some (.escape read)
    else if c < ' ' then none
    else some (.text (c :: read))
  | .escape read =>
    if c = 'u' then some (.code read none 0 0)
    else (escapes.lookup c).map fun e => .text (e :: read)
  | .code read high? digits value =>
    match hexDigit? c with
    | none => none
    | some d =>
      let code := 16 * value + d
      if digits = 3 then afterCode? read high? code
      else some (.code read high? (digits + 1) code)
  | .half read high => if c = '\\' then some (.halfEscape read high) else none
  | .halfEscape read high => if c = 'u' then some (.code read (some high) 0 0) else none
  | .between | .bare _ => none

/-- The tokens of a text that goes on in the middle of a token. -/
def tokens? : Lexing → List Char → Option (List Token)
  | .between, [] => some []
  | .bare read, [] => (readBare? read.reverse).map fun d => [.scalar d]
  | _, [] => none
  | .between, c :: cs =>
    if isSpace c then tokens? .between cs
    else if c = '"' then tokens? (.text []) cs
    else if isMark c then (tokens? .between cs).map (.mark c :: ·)
    else tokens? (.bare [c]) cs
  | .bare read, c :: cs =>
    if isSpace c then do
      let d ← readBare? read.reverse
      let ts ← tokens? .between cs
      return .scalar d :: ts
    else if isMark c then do
      let d ← readBare? read.reverse
      let ts ← tokens? .between cs
      return .scalar d :: .mark c :: ts
    else if c = '"' then none
    else tokens? (.bare (c :: read)) cs
  | .text read, '"' :: cs =>
    (tokens? .between cs).map (.scalar (.string (String.ofList read.reverse)) :: ·)
  | state, c :: cs => do tokens? (← state.next? c) cs

end EntityQuery.Document
