import EntityQuery.Clause.Condition
import EntityQuery.TextQuery.Comparison

/-! # Conditions in text

A condition tree is written as tokens: every leaf is an atom, and a group that says anything is
folded on its own and goes into parentheses.  A sub query is written where it stands, so that its
parameters are bound in the order of the text. -/

namespace EntityQuery

variable {E : Type} [Schema E]

/-- A sub query writes itself; a custom condition is the text that is quoted. -/
abbrev TextLeaf := Leaf (Binding Phrase) String

/-- Conditions in which sub queries wait to be written. -/
abbrev TextClause := Clause (Binding Phrase) String

namespace TextClause

/-- A condition on the rows that are called `name`. -/
def leafPhrase (name : String) (names : Names E) : TextLeaf → Binding Phrase
  | .value field operator value =>
    Comparison.phrase (qualified name field) field (names.type? field) operator value
  | .subQuery field operator query =>
    if operator = .isIn ∨ operator = .notIn then
      return Comparison.withParameter (qualified name field) operator
        (Phrase.parenthesized (← query))
    else throw (.subQueryOperator operator)
  | .fields field operator second =>
    if operator.isFieldComparable then
      return .ofText (qualified name field ++ " " ++ operator.spelling ++ " " ++
        qualified name second)
    else throw (.fieldOperator operator)
  | .exist query positive => do
    let keyword := if positive then "exists " else "not exists "
    return .plain keyword :: Phrase.parenthesized (← query)
  | .custom text => pure (.ofText text)

mutual

/-- The tokens of a clause.  A group is folded by itself and wrapped, unless it says nothing. -/
def tokens (name : String) (names : Names E) : TextClause → Binding (List Token)
  | .leaf _ l => do return [.atom (← leafPhrase name names l)]
  | .group _ members => do return Token.wrap (Token.fold (← written name names members))

/-- The conditions that say anything, each with how it is attached. -/
def written (name : String) (names : Names E) :
    List TextClause → Binding (List (Connective × List Token))
  | [] => pure []
  | c :: cs => do
    let ts ← tokens name names c
    let more ← written name names cs
    return if ts.isEmpty then more else (c.attach, ts) :: more

end

/-- The tokens of the conditions of a query. -/
def foldTokens (name : String) (names : Names E) (cs : List TextClause) :
    Binding (List Token) := do
  return Token.fold (← written name names cs)

end TextClause

end EntityQuery
