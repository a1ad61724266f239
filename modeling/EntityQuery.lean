import EntityQuery.Value.Text
import EntityQuery.Value.Order
import EntityQuery.Projection
import EntityQuery.Arena.Conditions
import EntityQuery.Arena.Joins
import EntityQuery.Draft
import EntityQuery.Page
import EntityQuery.Draft.Meaning
import EntityQuery.TextQuery
import EntityQuery.GraphQuery
import EntityQuery.Evaluation
import EntityQuery.Fixture
import EntityQuery.Session.Script
import EntityQuery.Session.Memory
import EntityQuery.Settings
import EntityQuery.Proofs.Success
import EntityQuery.Proofs.Condition.LeftFold
import EntityQuery.Proofs.TextQuery.Grammar
import EntityQuery.Proofs.Condition.Grouping
import EntityQuery.Proofs.TextQuery.Placeholders
import EntityQuery.Proofs.TextQuery.ValueConditions
import EntityQuery.Proofs.TextQuery.Colonless
import EntityQuery.Proofs.TextQuery.Spelling
import EntityQuery.Proofs.TextQuery.Parameters
import EntityQuery.Proofs.GraphQuery.Scope
import EntityQuery.Proofs.Scalar
import EntityQuery.Proofs.Schema
import EntityQuery.Proofs.GraphQuery.Joins
import EntityQuery.Proofs.GraphQuery.Compilation
import EntityQuery.Proofs.Evaluation.Typing
import EntityQuery.Proofs.Evaluation.Progress
import EntityQuery.Proofs.Evaluation.Soundness
import EntityQuery.Proofs.Evaluation.Counting
import EntityQuery.Proofs.Session.Exchange
import EntityQuery.Proofs.Session.Refusals
import EntityQuery.Proofs.GraphQuery.Lookup
import EntityQuery.Proofs.Projection.Path
import EntityQuery.Proofs.Projection.Alias
import EntityQuery.Proofs.Evaluation.Semijoin
import EntityQuery.Proofs.Condition.OrderingOperands
import EntityQuery.Proofs.GraphQuery.JoinLevels
import EntityQuery.Proofs.TextQuery.JoinNames
import EntityQuery.Proofs.Evaluation.Conditions
import EntityQuery.Proofs.Session.Pages
import EntityQuery.Proofs.Evaluation.MappedTuples
import EntityQuery.Proofs.Evaluation.LeftJoin
import EntityQuery.Proofs.Projection.DottedPath
import EntityQuery.Proofs.Projection.Hydration
import EntityQuery.Proofs.Evaluation.FetchPaths
import EntityQuery.Proofs.Evaluation.Membership
import EntityQuery.Proofs.Evaluation.NullOperands
import EntityQuery.Proofs.Number.Digits
import EntityQuery.Proofs.Evaluation.Sums
import EntityQuery.Proofs.Arena.Joins
import EntityQuery.Proofs.GraphQuery.DeepJoins
import EntityQuery.Proofs.Fixture.Loading
import EntityQuery.Proofs.Fixture.Typing
import EntityQuery.Proofs.Document.Numbers
import EntityQuery.Proofs.Number.Shortest
import EntityQuery.Proofs.Fixture.Integers
import EntityQuery.Proofs.Number.Rational
import EntityQuery.Proofs.Value.TypedOrder
import EntityQuery.Proofs.Value.Equality
import EntityQuery.Proofs.Evaluation.Sorting
import EntityQuery.Proofs.Evaluation.Aggregates
import EntityQuery.Proofs.Evaluation.Groups
import EntityQuery.Proofs.Evaluation.OuterJoins
import EntityQuery.Proofs.Evaluation.Opposites
import EntityQuery.Proofs.Number.Rounding
import EntityQuery.Proofs.Value.ExactOrder
import EntityQuery.Proofs.Scalar.IntegerCasts
import EntityQuery.Proofs.GraphQuery.Selections
import EntityQuery.Proofs.Scalar.TextCasts
import EntityQuery.Proofs.Text.Patterns
import EntityQuery.Proofs.Condition.ClosureGroups
import EntityQuery.Proofs.Arena.Links
import EntityQuery.Proofs.Arena.Conditions
import EntityQuery.Proofs.Arena.JoinTrees
import EntityQuery.Proofs.Text.Pieces
import EntityQuery.Proofs.GraphQuery.SchemaPaths
import EntityQuery.Proofs.GraphQuery.Translations
import EntityQuery.Proofs.GraphQuery.ColumnTypes
import EntityQuery.Proofs.Projection.Listings
