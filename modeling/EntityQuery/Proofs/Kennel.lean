import EntityQuery.Schema

/-! # A small schema

Owners and their dogs, related in a circle: the entities of the queries that statements are shown
at. -/

namespace EntityQuery

/-- Owners and dogs, on which statements are tried out. -/
inductive Kennel where
  | owner
  | dog
deriving DecidableEq

namespace Kennel

/-- An owner has any number of dogs, and a dog has one owner at most. -/
def attributes : Kennel → List (Attribute Kennel)
  | .owner => [⟨"id", .basic (.integer .long) false⟩, ⟨"name", .basic .string false⟩,
      ⟨"age", .basic (.integer .int) true⟩, ⟨"dogs", .relation .dog true⟩]
  | .dog => [⟨"id", .basic (.integer .long) false⟩, ⟨"name", .basic .string false⟩,
      ⟨"owner", .relation .owner false⟩]

instance : Schema Kennel where
  name
    | .owner => "Owner"
    | .dog => "Dog"
  attributes := attributes

end Kennel

end EntityQuery
