import EntityQuery.Operator
import EntityQuery.TextQuery.Phrase

/-! # Condition text

The text of conditions is a sequence of tokens: written conditions, connectives and parentheses.
In it AND binds tighter than OR, as in every query language, while conditions are attached strictly
from left to right; `fold` adds the parentheses that make the text say so. -/

namespace EntityQuery

/-- Conditions as they are written: atoms, connectives and parentheses. -/
inductive Token where
  | atom (phrase : Phrase)
  | connective (c : Connective)
  | opening
  | closing
deriving DecidableEq

namespace Token

/-- Connectives have a space on both sides, and parentheses have none. -/
def phrase : Token → Phrase
  | .atom p => p
  | .connective c => .ofText (" " ++ c.spelling ++ " ")
  | .opening => .ofText "("
  | .closing => .ofText ")"

def phrases : List Token → Phrase
  | [] => []
  | t :: ts => t.phrase ++ phrases ts

/-- Tokens in parentheses; nothing stays nothing. -/
def wrap (ts : List Token) : List Token :=
  if ts.isEmpty then [] else .opening :: ts ++ [.closing]

/-- Attaches one more condition.  What was written before goes into parentheses if its last
connective is another one. -/
def attach (written : List Token × Option Connective) (next : Connective × List Token) :
    List Token × Option Connective :=
  let before :=
    match written.2 with
    | some last => if last = next.1 then written.1 else wrap written.1
    | none => written.1
  (before ++ .connective next.1 :: next.2, some next.1)

/-- Conditions attached from left to right; the connective of the first one has no say. -/
def fold : List (Connective × List Token) → List Token
  | [] => []
  | first :: rest => (rest.foldl attach (first.2, none)).1

end Token

end EntityQuery
