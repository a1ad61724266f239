import EntityQuery.Number.Digits

/-! # Strings in TOML

A string stands between double quotes, with escapes, or between single quotes, without any; three
quotes let it run over lines.  A string is written in the first of these forms that can hold it
without escapes, as far as there is one. -/

namespace EntityQuery.Toml

/-- A character that may stand in a string or a comment as it is. -/
def isPlain (c : Char) : Bool := c = '\t' || (' ' ≤ c && c ≠ '\x7f')

/-- The spaces between the words of a line. -/
def isGap (c : Char) : Bool := c = ' ' || c = '\t'

/-- The character whose code the digits write. -/
def coded? (digits : List Char) : Option Char := do
  let code ← digits.foldlM (fun n c => (hexDigit? c).map (16 * n + ·)) 0
  if code.isValidChar then some (Char.ofNat code) else none

/-- The characters that one letter after a backslash stands for. -/
def escapes : List (Char × Char) :=
  [('b', '\x08'), ('t', '\t'), ('n', '\n'), ('f', '\x0c'), ('r', '\r'), ('e', '\x1b'),
    ('"', '"'), ('\\', '\\')]

/-- How many digits the code after a letter has. -/
def codeLengths : List (Char × Nat) := [('x', 2), ('u', 4), ('U', 8)]

/-- The character of an escape, and what follows it. -/
def readEscape? : List Char → Option (Char × List Char)
  | [] => none
  | c :: cs =>
    match codeLengths.lookup c with
    | some n =>
      if cs.length < n then none else (coded? (cs.take n)).map fun d => (d, cs.drop n)
    | none => (escapes.lookup c).map fun d => (d, cs)

/-- Without blanks and line ends at its head. -/
def skipBlankLines : List Char → List Char
  | '\r' :: '\n' :: cs => skipBlankLines cs
  | c :: cs => if isGap c || c = '\n' then skipBlankLines cs else c :: cs
  | [] => []

/-- The end of a line after a backslash takes the blanks before the next line's text with it. -/
def skipLineEnd? (cs : List Char) : Option (List Char) :=
  match cs.dropWhile isGap with
  | '\n' :: rest => some (skipBlankLines rest)
  | '\r' :: '\n' :: rest => some (skipBlankLines rest)
  | _ => none

/-- The rest of a string over lines, which ends at three quotes; up to two more belong to it. -/
def closeLong? (quote : Char) (done cs : List Char) : Option (String × List Char) :=
  let quotes := (cs.takeWhile (· = quote)).length
  if 3 ≤ quotes ∧ quotes ≤ 5 then
    some (String.ofList (done.reverse ++ List.replicate (quotes - 3) quote), cs.drop quotes)
  else none

/-- Reads on to the end of a string, at most `fuel` steps. -/
def readOn? (quote : Char) (long : Bool) (done : List Char) :
    Nat → List Char → Option (String × List Char)
  | 0, _ => none
  | _, [] => none
  | fuel + 1, c :: cs =>
    if c = quote then
      if long then
        if (c :: cs).take 3 = [quote, quote, quote] then closeLong? quote done (c :: cs)
        else readOn? quote long (c :: done) fuel cs
      else some (String.ofList done.reverse, cs)
    else if c = '\\' ∧ quote = '"' then
      match readEscape? cs, skipLineEnd? cs with
      | some (d, rest), _ => readOn? quote long (d :: done) fuel rest
      | none, some rest => if long then readOn? quote long done fuel rest else none
      | none, none => none
    else if long ∧ c = '\n' then readOn? quote long (c :: done) fuel cs
    else if long ∧ c = '\r' ∧ cs.head? = some '\n' then readOn? quote long (c :: done) fuel cs
    else if isPlain c then readOn? quote long (c :: done) fuel cs
    else none

/-- The line end right after the opening quotes of a string over lines is not part of it. -/
def dropLineEnd : List Char → List Char
  | '\n' :: cs => cs
  | '\r' :: '\n' :: cs => cs
  | cs => cs

/-- A string, which starts with a quote, and what follows it. -/
def readString? (long : Bool) (cs : List Char) : Option (String × List Char) :=
  match cs with
  | [] => none
  | quote :: rest =>
    if quote ≠ '"' ∧ quote ≠ '\'' then none
    else if long ∧ rest.take 2 = [quote, quote] then
      readOn? quote true [] cs.length (dropLineEnd (rest.drop 2))
    else readOn? quote false [] cs.length rest

/-- The longest run of a character. -/
def longestRun (a : Char) (cs : List Char) : Nat :=
  (cs.foldl (fun (p : Nat × Nat) c =>
    let here := if c = a then p.2 + 1 else 0
    (max p.1 here, here)) (0, 0)).1

/-- The characters between double quotes.  As many quotes as `quotes` stand side by side without
an escape, and line ends without one if the string runs over lines. -/
def escapedFrom (long : Bool) (quotes : Nat) (run : Nat) : List Char → List Char
  | [] => []
  | c :: cs =>
    if c = '"' then
      if run < quotes then c :: escapedFrom long quotes (run + 1) cs
      else '\\' :: '"' :: escapedFrom long quotes 0 cs
    else
      let written :=
        if c = '\n' ∧ long then [c]
        else match (escapes.filter fun p => p.1 ≠ 'e').find? fun p => p.2 = c with
          | some p => ['\\', p.1]
          | none =>
            if isPlain c then [c]
            else
              let code := (Nat.toDigits 16 c.toNat).map Char.toUpper
              "\\u".toList ++ List.replicate (4 - code.length) '0' ++ code
      written ++ escapedFrom long quotes 0 cs

/-- A string in one line, with escapes. -/
def basic (cs : List Char) : List Char := '"' :: escapedFrom false 0 0 cs ++ ['"']

/-- A string over lines starts on a line of its own if it has line ends. -/
def fence (quote : Char) (cs body : List Char) : List Char :=
  let quotes := List.replicate 3 quote
  quotes ++ (if cs.contains '\n' then ['\n'] else []) ++ body ++ quotes

/-- A string over several lines, with escapes. -/
def longBasic (cs : List Char) : List Char := fence '"' cs (escapedFrom true 2 0 cs)

/-- The kind of quotation marks depends on what is in the string: escapes are avoided if they can
be. -/
def stringText (s : String) : String :=
  let cs := s.toList
  let coded := cs.any fun c => !isPlain c && c ≠ '\n'
  let escape := cs.contains '\\'
  let lines := cs.contains '\n'
  let single := longestRun '\'' cs
  let double := longestRun '"' cs
  String.ofList <|
    if !coded && !escape && double = 0 && !lines then basic cs
    else if !coded && single = 0 && !lines then '\'' :: cs ++ ['\'']
    else if !coded && !escape && double ≤ 2 then longBasic cs
    else if !coded && single ≤ 2 then fence '\'' cs cs
    else if lines then longBasic cs
    else basic cs

end EntityQuery.Toml
