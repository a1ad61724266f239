/-! # Lists sorted by name

Named items in the order of their names, each name once. -/

namespace EntityQuery.Keyed

variable {α : Type}

/-- Stores an item at its place in the order of names, over the one it had. -/
def put (name : String) (a : α) : List (String × α) → List (String × α)
  | [] => [(name, a)]
  | p :: ps =>
    if name < p.1 then (name, a) :: p :: ps
    else if p.1 = name then (name, a) :: ps
    else p :: put name a ps

/-- The items by their names, a repeated name keeping its last item. -/
def ofList (ps : List (String × α)) : List (String × α) :=
  ps.foldl (fun sorted p => put p.1 p.2 sorted) []

end EntityQuery.Keyed
