import EntityQuery.Clause.Join
import EntityQuery.TextQuery.Comparison

/-! # Joins in text

Every level of a join is one line, the levels of a dotted path included, and a level comes before
those that start from it.  The levels on the way are named by the names and segments they were
reached through; the last one by the alias of the join, or by its segment in lowercase. -/

namespace EntityQuery

variable {E : Type} [Schema E]

/-- What a join line joins: a relationship of rows with a name, or the rows of a table. -/
inductive JoinTarget where
  | relationship (source segment : String)
  | table (name : String)
deriving DecidableEq

/-- One join of a statement. -/
structure JoinLine where
  operator : JoinOperator
  target : JoinTarget
  /-- The name of the joined rows from here on. -/
  name : String
  /-- Empty for a join without a condition of its own. -/
  on : List Token

def JoinTarget.text : JoinTarget → String
  | .relationship source segment => source ++ "." ++ segment
  | .table name => name

/-- A line has the word `on` only before conditions. -/
def JoinLine.phrase (line : JoinLine) : Phrase :=
  .plain (line.operator.spelling ++ " join " ++ line.target.text ++ " " ++ line.name) ::
    (if line.on.isEmpty then [] else .plain " on " :: Token.phrases line.on)

/-- Rows that a join can start from: their name, and their entity if it is known. -/
structure Source (E : Type) where
  name : String
  entity? : Option E

/-- Joins that were written, the names they leave, and where the next level starts. -/
structure Joined (E : Type) where
  lines : List JoinLine
  names : Names E
  source : Source E

namespace JoinCondition

/-- A condition of a join about its own rows. -/
def phrase (c : JoinCondition) (rows : Source E) : Binding Phrase :=
  match c.operator with
  | .findInSet | .notFindInSet => throw (.joinConditionOperator c.operator)
  | operator =>
    if (operator = .like ∨ operator = .notLike) ∧ c.value.isNull then
      throw (.joinOperandNull operator c.field)
    else
      let type? := (rows.entity?.bind fun e => Schema.resolvePath? e c.field).bind Attribute.type?
      Comparison.phrase (qualified rows.name c.field) c.field type? operator c.value

/-- The conditions of a join, each with how it is attached. -/
def written (rows : Source E) : List JoinCondition → Binding (List (Connective × List Token))
  | [] => pure []
  | c :: cs => do
    let p ← c.phrase rows
    let ps ← written rows cs
    return (c.attach, [.atom p]) :: ps

/-- The conditions of a join on the rows it joins. -/
def tokens (rows : Source E) (cs : List JoinCondition) : Binding (List Token) := do
  return Token.fold (← written rows cs)

end JoinCondition

namespace Join

/-- An equality comes first; more than one condition after it goes into parentheses. -/
def equalityTokens (equality : Phrase) (conditions : List Token) (count : Nat) : List Token :=
  if conditions.isEmpty then [.atom equality]
  else .atom equality :: .connective .and ::
    (if count > 1 then Token.wrap conditions else conditions)

/-- The one line of a join on an equality of fields. -/
def writeEquality (j : Join E) (rootName fieldJoin fieldReference : String) (names : Names E) :
    Binding (Joined E) := do
  let rows : Source E := ⟨j.acronym, j.entity?⟩
  let conditions ← JoinCondition.tokens rows j.conditions
  let equality := Phrase.ofText
    (rows.name ++ "." ++ fieldJoin ++ " = " ++ qualified rootName fieldReference)
  let line := ⟨j.operator, .table j.table, rows.name,
    equalityTokens equality conditions j.conditions.length⟩
  return ⟨[line], names.register rows.name rows.entity?, rows⟩

/-- The lines of a join along the segments of its table. -/
def writeSegments (j : Join E) (source : Source E) (names : Names E) :
    List String → Binding (Joined E)
  | [] => pure ⟨[], names, source⟩
  | [segment] => do
    let entity? := (source.entity?.bind fun e => Schema.attribute? e segment).bind
      Attribute.target?
    let rows : Source E := ⟨j.alias?.getD (Text.lowercase segment), entity?⟩
    let on ← JoinCondition.tokens rows j.conditions
    return ⟨[⟨j.operator, .relationship source.name segment, rows.name, on⟩],
      names.register rows.name rows.entity?, rows⟩
  | segment :: rest => do
    let entity? := (source.entity?.bind fun e => Schema.attribute? e segment).bind
      Attribute.target?
    let rows : Source E := ⟨source.name ++ "_" ++ segment, entity?⟩
    let tail ← writeSegments j rows (names.register rows.name rows.entity?) rest
    return { tail with
      lines := ⟨j.operator, .relationship source.name segment, rows.name, []⟩ :: tail.lines }

/-- The lines of a join without those inside it. -/
def writeLevel (j : Join E) (rootName : String) (source : Source E) (names : Names E) :
    Binding (Joined E) :=
  if j.hasPath then
    match j.fieldJoin?, j.fieldReference? with
    | some fieldJoin, some fieldReference => j.writeEquality rootName fieldJoin fieldReference names
    | _, _ => j.writeSegments source names (Text.split '.' j.table)
  else throw (.joinPathInvalid j.table)

mutual

/-- The lines of a join, each level before those inside it. -/
def write (rootName : String) (source : Source E) (names : Names E) :
    Join E → Binding (List JoinLine × Names E)
  | ⟨table, alias?, operator, fieldJoin?, fieldReference?, entity?, conditions, nested⟩ => do
    let level : Join E :=
      ⟨table, alias?, operator, fieldJoin?, fieldReference?, entity?, conditions, []⟩
    let here ← level.writeLevel rootName source names
    let (lines, names) ← writeAll rootName here.source here.names nested
    return (here.lines ++ lines, names)

def writeAll (rootName : String) (source : Source E) (names : Names E) :
    List (Join E) → Binding (List JoinLine × Names E)
  | [] => pure ([], names)
  | j :: js => do
    let (lines, names) ← write rootName source names j
    let (more, names) ← writeAll rootName source names js
    return (lines ++ more, names)

end

end Join

end EntityQuery
