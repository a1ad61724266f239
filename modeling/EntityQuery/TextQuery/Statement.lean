import EntityQuery.Draft.Meaning
import EntityQuery.TextQuery.Condition
import EntityQuery.TextQuery.Join

/-! # Statements

A statement is a query of one level before it is flattened into a phrase. -/

namespace EntityQuery

/-- The clauses of a statement. -/
structure Statement where
  select? : Option String
  entity : String
  /-- What the rows of the entity are called. -/
  name : String
  joins : List JoinLine
  fetches : List String
  conditions : List Token
  groups : List String
  orders : List String

namespace Statement

/-- A clause that is left out if it has no items. -/
def listed (keyword : String) (items : List String) : List Phrase :=
  if items.isEmpty then [] else [.ofText (keyword ++ " " ++ Text.commaSeparated items)]

/-- Conditions behind their keyword, left out if there are none. -/
def conditionClause (conditions : List Token) : List Phrase :=
  if conditions.isEmpty then [] else [.plain "where " :: Token.phrases conditions]

/-- Clauses in the order in which they are written, those without anything left out. -/
def clauses (s : Statement) : List Phrase :=
  (s.select?.toList.map .ofText) ++ [.ofText ("from " ++ s.entity ++ " " ++ s.name)] ++
    s.joins.map JoinLine.phrase ++ s.fetches.map .ofText ++ conditionClause s.conditions ++
    listed "group by" s.groups ++ listed "order by" s.orders

/-- Clauses are separated by single spaces. -/
def phrase (s : Statement) : Phrase := Phrase.joined " " s.clauses

/-- What stands before `.*` at the end of a field. -/
def beforeStar? (field : String) : Option String :=
  match field.toList.reverse with
  | '*' :: '.' :: rest => some (String.ofList rest.reverse)
  | _ => none

/-- A selected field with the function applied to it; `a.*` is the rows called `a`. -/
def column (name : String) (s : Select) : String :=
  let field := (beforeStar? s.field).getD (qualified name s.field)
  match s.function? with
  | some f => f.apply field
  | none => field

/-- A column and its alias, which whole rows do without unless it was asked for. -/
def aliasedColumn (name : String) (s : Select) : String :=
  let rows := s.isRoot || (beforeStar? s.field).isSome
  if rows && s.function?.isNone && s.alias?.isNone then column name s
  else column name s ++ " as " ++ s.resultAlias

/-- A nested relationship starts with a name already, and any other is one of the root. -/
def fetchText (name : String) (f : JoinFetch) : String :=
  let relationship := if f.nested then f.relationship else name ++ "." ++ f.relationship
  let asAlias := match f.alias? with
    | some s => " as " ++ s
    | none => ""
  f.operator.spelling ++ " join fetch " ++ relationship ++ asAlias

/-- Without selections a query is for the rows themselves, and a sub query for their names. -/
def selectText (purpose : Purpose) (name : String) (selects : List Select) :
    Result (Option String) :=
  match purpose, selects with
  | .rows, [] => .ok none
  | .rows, s :: ss =>
    .ok (some ("select " ++ Text.commaSeparated ((s :: ss).map (aliasedColumn name))))
  | .count, _ => .ok (some ("select " ++ Aggregate.count.apply name))
  | .column, [] => .ok (some ("select " ++ name))
  | .column, [s] => .ok (some ("select " ++ column name s))
  | .column, _ => .error .subQueryNotOneColumn

variable {E : Type} [Schema E]

/-- The statement of one level.  Relationships are fetched only along with whole rows, and a count
has no order. -/
def ofLevel (purpose : Purpose) (o : Outline E) (conditions : List TextClause) :
    Binding Statement := do
  let name := o.acronym?.getD (Schema.acronym o.root)
  let select? ← selectText purpose name o.selects
  let (joins, names) ← Join.writeAll name ⟨name, some o.root⟩ (Names.ofRoot o.root name) o.joins
  let conditions ← TextClause.foldTokens name names conditions
  return {
    select? := select?
    entity := Schema.name o.root
    name := name
    joins := joins
    fetches := if purpose = .rows ∧ o.selects = [] then o.fetches.map (fetchText name) else []
    conditions := conditions
    groups := o.groups.map (qualified name)
    orders := if purpose = .count then []
      else o.orders.map fun r => qualified name r.field ++ " " ++ r.sort.spelling }

/-- A level as a sub query. -/
def subQuery (o : Outline E) (conditions : List TextClause) : Binding Phrase := do
  return (← ofLevel .column o conditions).phrase

end Statement

end EntityQuery
