import EntityQuery.Text.Bounds
import EntityQuery.Text.Lowercase.Table

/-! # Lowercase text

Every character is replaced by its lowercase form.  Two characters need more: the capital I with a
dot becomes two characters, and a capital sigma takes its final form at the end of a word. -/

namespace EntityQuery.Text

/-- The lower case of a code point, if the run has it. -/
def CaseRun.lower? (r : CaseRun) (n : Nat) : Option Char :=
  if r.first ≤ n ∧ n ≤ r.last ∧ (n - r.first) % r.step = 0 then
    some (Char.ofNat (n + r.distance).toNat)
  else none

/-- The lowercase form of a character that has one of a single character. -/
def lowerChar (c : Char) : Char :=
  if c.toNat < 0x80 then c.toLower
  else (lowercaseRuns.findSome? fun r => r.lower? c.toNat).getD c

/-- The first character that does not ignore case is cased. -/
def meetsCased (cs : List Char) : Bool :=
  match cs.dropWhile fun c => within caseIgnorableBounds c.toNat with
  | [] => false
  | c :: _ => within casedBounds c.toNat

/-- The lowercase form of `c`, read after the reversed text `before` and before `after`. -/
def lowerAt (before : List Char) (c : Char) (after : List Char) : List Char :=
  if c = 'Σ' then [if meetsCased before && !meetsCased after then 'ς' else 'σ']
  else if c = 'İ' then ['i', Char.ofNat 0x307]
  else [lowerChar c]

/-- Characters in lower case one by one, each with all that is before it. -/
def lowerAfter (before : List Char) : List Char → List Char
  | [] => []
  | c :: cs => lowerAt before c cs ++ lowerAfter (c :: before) cs

/-- A text in lower case, in which a sigma at the end of a word is a final one. -/
def lowercase (s : String) : String := String.ofList (lowerAfter [] s.toList)

end EntityQuery.Text
