import EntityQuery.GraphQuery.Scope
import EntityQuery.Proofs.Kennel
import EntityQuery.Proofs.Schema
import EntityQuery.Proofs.Success
import EntityQuery.Proofs.Text.Pieces

/-! # Paths of fields and paths of attributes

A scope and a schema follow a dotted path each in its own way: the scope carries a type along and
gives its reasons where it stops, the schema looks for the last attribute.  They accept the same
paths and find the same types (`Entry.resolve_agrees`). -/

namespace EntityQuery

variable {E : Type} [Schema E]

namespace Schema

@[simp] theorem follow?_singleton (e : E) (segment : String) :
    follow? e [segment] = attribute? e segment := rfl

/-- A path of two segments or more goes on at the target of the first. -/
theorem follow?_cons_cons (e : E) (segment next : String) (rest : List String) :
    follow? e (segment :: next :: rest) =
      ((attribute? e segment).bind Attribute.target?).bind fun target =>
        follow? target (next :: rest) := by
  rw [follow?]
  · cases attribute? e segment <;> rfl
  · exact List.cons_ne_nil next rest

end Schema

/-- The walk that carries a type along ends exactly where there is an attribute, and with its type.
-/
theorem Scope.typeAlong_eq_ok_iff {e : E} {segments : List String} {type? : Option ScalarType}
    (h : segments ≠ []) :
    typeAlong e segments = .ok type? ↔
      ∃ a, Schema.follow? e segments = some a ∧ a.type? = type? := by
  induction segments generalizing e with
  | nil => exact absurd rfl h
  | cons segment rest ih =>
    rw [typeAlong]
    cases rest with
    | nil =>
      rw [Schema.follow?_singleton]
      cases Schema.attribute? e segment with
      | none => simp
      | some a =>
        obtain ⟨name, kind⟩ := a
        cases kind <;> simp [typeAlong, Attribute.type?]
    | cons next rest =>
      rw [Schema.follow?_cons_cons]
      cases Schema.attribute? e segment with
      | none => simp
      | some a =>
        obtain ⟨name, kind⟩ := a
        cases kind with
        | basic type nullable => simp [Attribute.target?]
        | relation target many => exact ih (List.cons_ne_nil next rest)

namespace Entry

theorem split_ne_nil (field : String) : Text.split '.' field ≠ [] :=
  mt List.map_eq_nil_iff.1 (Text.pieces_ne_nil '.' field.toList)

/-- The empty path has an error of its own. -/
theorem resolve_empty (entry : Entry E) :
    entry.resolve "" = .error (.pathEmpty (Schema.name entry.entity)) := rfl

/-- A field of rows that is not empty is a path if there is an attribute at its end. -/
theorem resolve_eq_ok_iff {entry : Entry E} {field : String} (h : field ≠ "") {p : Path} :
    entry.resolve field = .ok p ↔ ∃ a, Schema.resolvePath? entry.entity field = some a ∧
      p = ⟨entry.origin, Text.split '.' field, a.type?⟩ := by
  rw [resolve, if_neg h, Result.map_eq_ok]
  constructor
  · rintro ⟨type?, htype, rfl⟩
    obtain ⟨a, ha, rfl⟩ := (Scope.typeAlong_eq_ok_iff (split_ne_nil field)).1 htype
    exact ⟨a, ha, rfl⟩
  · rintro ⟨a, ha, rfl⟩
    exact ⟨a.type?, (Scope.typeAlong_eq_ok_iff (split_ne_nil field)).2 ⟨a, ha, rfl⟩, rfl⟩

/-- A field of rows is a path exactly if the schema finds an attribute at its end.  The path has the
type of the attribute and is written as the field.  The empty field is no path of rows, and no
attribute either, since attributes are called by identifiers. -/
theorem resolve_agrees (entry : Entry E) (field : String) :
    ((∃ p, entry.resolve field = .ok p) ↔
      ∃ a, Schema.resolvePath? entry.entity field = some a) ∧
    ∀ p a, entry.resolve field = .ok p → Schema.resolvePath? entry.entity field = some a →
      p.origin = entry.origin ∧ p.type? = a.type? ∧ ".".intercalate p.attributes = field := by
  by_cases hfield : field = ""
  · subst hfield
    have hnone : Schema.resolvePath? entry.entity "" = none :=
      Schema.attribute?_eq_none fun h => h.ne_empty rfl
    rw [resolve_empty, hnone]
    exact ⟨⟨nofun, nofun⟩, nofun⟩
  · refine ⟨⟨?_, ?_⟩, ?_⟩
    · rintro ⟨p, hp⟩
      obtain ⟨a, ha, -⟩ := (resolve_eq_ok_iff hfield).1 hp
      exact ⟨a, ha⟩
    · rintro ⟨a, ha⟩
      exact ⟨_, (resolve_eq_ok_iff hfield).2 ⟨a, ha, rfl⟩⟩
    · intro p a hp ha
      obtain ⟨a', ha', rfl⟩ := (resolve_eq_ok_iff hfield).1 hp
      obtain rfl := Option.some.inj (ha.symm.trans ha')
      exact ⟨rfl, rfl, Text.intercalate_split_self '.' field⟩

end Entry

namespace Kennel

def ownerRows : Entry Kennel := (Scope.ofRoot owner).rootEntry

/-- The names of the dogs whose owner an owner's dogs have. -/
def circle : String := "dogs.owner.dogs.name"

theorem resolvePath?_circle :
    Schema.resolvePath? ownerRows.entity circle = some ⟨"name", .basic .string false⟩ := by
  rfl

/-- A path around the circle is a path of both, one that ends in a point of neither. -/
theorem resolve_agrees_of_circle :
    (∃ p, ownerRows.resolve circle = .ok p ∧ p.type? = some .string ∧
      ".".intercalate p.attributes = circle) ∧
    ¬∃ p, ownerRows.resolve "dogs.owner." = .ok p := by
  constructor
  · obtain ⟨hpath, hsame⟩ := Entry.resolve_agrees ownerRows circle
    obtain ⟨p, hp⟩ := hpath.2 ⟨_, resolvePath?_circle⟩
    obtain ⟨-, htype, htext⟩ := hsame p _ hp resolvePath?_circle
    exact ⟨p, hp, htype, htext⟩
  · intro hp
    have hnone : Schema.resolvePath? ownerRows.entity "dogs.owner." = none := by rfl
    obtain ⟨a, ha⟩ := (Entry.resolve_agrees ownerRows "dogs.owner.").1.1 hp
    exact absurd (ha.symm.trans hnone) nofun

end Kennel

end EntityQuery
