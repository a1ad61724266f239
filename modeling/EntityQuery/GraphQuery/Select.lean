import EntityQuery.Clause.Select
import EntityQuery.GraphQuery.Query
import EntityQuery.GraphQuery.Scope

/-! # Selections in a graph

`*` selects the root, `a.*` the rows called `a`, and every other field its path. -/

namespace EntityQuery

variable {E : Type}

namespace Selection

/-- The root itself, which is selected if nothing else is. -/
def root (scope : Scope E) : Selection := ⟨.path scope.rootPath, none⟩

/-- How many rows there are, which is what a count selects. -/
def countOfRoot (scope : Scope E) : Selection := ⟨.aggregate .count (.path scope.rootPath), none⟩

end Selection

variable [Schema E]

namespace Select

/-- What a selection is taken from, before a function is applied. -/
def path (s : Select) (scope : Scope E) : Result Path :=
  if s.field.toList.contains '*' then
    match Text.splitFirst? '.' s.field with
    | some (name, "*") =>
      match scope.rows? name with
      | some rows => .ok rows
      | none => .error (.selectAliasUnknown name)
    | _ => .ok scope.rootPath
  else scope.resolve s.field

/-- A function is applied to whatever the field leads to. -/
def expression (s : Select) (scope : Scope E) : Result Expression :=
  (s.path scope).map fun p =>
    match s.function? with
    | some f => .aggregate f (.path p)
    | none => .path p

/-- A column of a query for rows; the bare root has no alias. -/
def selection (s : Select) (scope : Scope E) : Result Selection :=
  (s.expression scope).map fun e =>
    ⟨e, if s.isRoot && s.alias?.isNone && s.function?.isNone then none else some s.resultAlias⟩

end Select

namespace Selection

/-- Without selections the root is selected. -/
def ofRows (scope : Scope E) : List Select → Result (List Selection)
  | [] => .ok [root scope]
  | s :: ss => (s :: ss).mapM fun s => s.selection scope

/-- The only column of a sub query, which needs no alias. -/
def ofColumn (scope : Scope E) : List Select → Result Selection
  | [] => .ok (root scope)
  | [s] => (s.expression scope).map fun e => ⟨e, none⟩
  | _ => .error .subQueryNotOneColumn

end Selection

end EntityQuery
