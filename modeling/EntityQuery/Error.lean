import EntityQuery.Operator
import EntityQuery.Scalar

/-! # Errors

An error is the cause for which a query, a cast, a projection or a run was refused.  Its kind, its
message and its advice are functions of the cause.  One cause is no refusal: an addition that leaves
its register stops the whole program, and nobody handles it on the way out. -/

namespace EntityQuery

/-- What an error is about; each kind has its words, its code and its advice. -/
inductive ErrorKind where
  | query
  | unsupportedOperation
  | invalidArgument
  | coercion
  | unsupportedCast
  | projection
  | execution
  | session
  | tomlSerialize
  | tomlDeserialize
  | io
  | logging
  /-- No refusal: the program stops. -/
  | abort
deriving DecidableEq, Repr

namespace ErrorKind

/-- The words in front of the reason; an abort has none. -/
def label : ErrorKind → String
  | .query => "Query construction failed"
  | .unsupportedOperation => "Unsupported operation"
  | .invalidArgument => "Invalid argument"
  | .coercion => "Cannot cast"
  | .unsupportedCast => "Unsupported casting type"
  | .projection => "Projection failed"
  | .execution => "Query execution failed"
  | .session => "Session error"
  | .tomlSerialize => "TOML serialization error"
  | .tomlDeserialize => "TOML deserialization error"
  | .io => "IO error"
  | .logging => "Logging setup failed"
  | .abort => ""

/-- The kind in words and the reason; a coercion is one sentence, and an abort is its reason. -/
def sentence (kind : ErrorKind) (reason : String) : String :=
  match kind with
  | .coercion => kind.label ++ " " ++ reason
  | .abort => reason
  | kind => kind.label ++ ": " ++ reason

/-- The last part of the diagnostic code; an abort has none. -/
def code : ErrorKind → String
  | .query => "query"
  | .unsupportedOperation => "unsupported_operation"
  | .invalidArgument => "invalid_argument"
  | .coercion => "coercion"
  | .unsupportedCast => "unsupported_cast"
  | .projection => "projection"
  | .execution => "execution"
  | .session => "session"
  | .tomlSerialize => "toml_serialize"
  | .tomlDeserialize => "toml_deserialize"
  | .io => "io"
  | .logging => "logging"
  | .abort => ""

/-- What to check when such an error arises. -/
def help? : ErrorKind → Option String
  | .query => some "Check the clauses added to the builder before the terminal call"
  | .unsupportedOperation => some "The operator is not valid for this kind of clause"
  | .coercion => some "The value must be parseable as the type of the compared field"
  | .projection => some "Register a constructor or a setter for every selected alias"
  | .tomlSerialize => some "Check your configuration structure for invalid values"
  | .tomlDeserialize => some "Check your hefesto.toml syntax and structure"
  | .io => some "Check file permissions and path"
  | .invalidArgument | .unsupportedCast | .execution | .session | .logging | .abort => none

end ErrorKind

/-- Why a query is refused or fails, with what its message names. -/
inductive Error where
  /-- A segment of a joined table's path is empty. -/
  | joinPathInvalid (table : String)
  | joinPathInvalidOn (table entity : String)
  | pathEmpty (entity : String)
  | attributeMissing (segment entity : String)
  /-- A path goes on through an attribute that is no relationship. -/
  | notARelationship (segment entity : String)
  | relationshipMissing (relationship entity : String)
  | fetchNotARelationship (relationship entity : String)
  | subQueryNotOneColumn
  | subQuerySelectCount
  | subQueryUntyped
  | selectAliasUnknown (name : String)
  | selectsMissing
  | listOperandExpected
  | joinConditionOperator (operator : Operator)
  | subQueryOperator (operator : Operator)
  | fieldOperator (operator : Operator)
  | twoFieldOperator (operator : Operator)
  | joinOperandNull (operator : Operator) (field : String)
  | operandNull (operator : Operator) (field : String)
  | comparedWithNull (path : String)
  | fixtureSyntax
  | fixturesNotArray (entity : String)
  | fixtureNotObject (entity json : String)
  | fixtureNotList (entity relationship json : String)
  | fixtureNotScalar (type : ScalarType) (json : String)
  /-- The text of a scalar cannot be read as the target type. -/
  | coercion (text : String) (target : ScalarType)
  /-- A value that is no scalar cannot be cast. -/
  | unsupportedCast (target : ScalarType) (source : String)
  | constructorMissing (type : String) (columns : List String)
  | defaultMissing (type : String)
  | columnUnaliased (index : Nat) (type : String)
  | setterMissing (path type : String)
  | setterRefused (property type : String) (cause : Error)
  | throughCollection (path property type : String)
  | rowEmpty (type : String)
  | averageNotNumeric
  | sumNotNumeric (type : String)
  | aggregateOutsideGroup (function : Aggregate)
  | functionUnknown (name : String) (arguments : Nat)
  | patternTooLarge (pattern : String)
  | sessionMissing (entity : String)
  /-- A sum of integers left the 64 bits it is kept in. -/
  | overflow
  /-- An error reported by a collaborator in its own words. -/
  | stated (kind : ErrorKind) (reason : String)
deriving DecidableEq

namespace Error

/-- Each cause is of one kind. -/
def kind : Error → ErrorKind
  | .joinPathInvalid _ | .joinPathInvalidOn .. | .pathEmpty _ | .attributeMissing ..
  | .notARelationship .. | .relationshipMissing .. | .fetchNotARelationship ..
  | .subQueryNotOneColumn | .subQuerySelectCount | .subQueryUntyped | .selectAliasUnknown _
  | .selectsMissing | .sessionMissing _ => .query
  | .listOperandExpected | .joinConditionOperator _ | .subQueryOperator _ | .fieldOperator _
  | .twoFieldOperator _ => .unsupportedOperation
  | .joinOperandNull .. | .operandNull .. | .comparedWithNull _ | .fixtureSyntax
  | .fixturesNotArray _ | .fixtureNotObject .. | .fixtureNotList .. | .fixtureNotScalar .. =>
    .invalidArgument
  | .coercion .. => .coercion
  | .unsupportedCast .. => .unsupportedCast
  | .constructorMissing .. | .defaultMissing _ | .columnUnaliased .. | .setterMissing ..
  | .setterRefused .. | .throughCollection .. | .rowEmpty _ => .projection
  | .averageNotNumeric | .sumNotNumeric _ | .aggregateOutsideGroup _ | .functionUnknown ..
  | .patternTooLarge _ => .execution
  | .overflow => .abort
  | .stated kind _ => kind

def quote (s : String) : String := "'" ++ s ++ "'"

/-- The reason alone, without the words that name the kind. -/
def reason : Error → String
  | .joinPathInvalid table => "Invalid join path " ++ quote table
  | .joinPathInvalidOn table entity =>
    "Invalid join path " ++ quote table ++ " on entity " ++ quote entity
  | .pathEmpty entity => "Empty attribute path on entity " ++ quote entity
  | .attributeMissing segment entity =>
    "Attribute " ++ quote segment ++ " not found on entity " ++ quote entity
  | .notARelationship segment entity =>
    "Attribute " ++ quote segment ++ " of entity " ++ quote entity ++ " is not a relationship"
  | .relationshipMissing relationship entity =>
    "Relationship " ++ quote relationship ++ " not found on entity " ++ quote entity
  | .fetchNotARelationship relationship entity =>
    "Cannot fetch " ++ quote relationship ++ ": not a relationship of " ++ quote entity
  | .subQueryNotOneColumn =>
    "Sub-query must have only one select when is using Where IN operation"
  | .subQuerySelectCount =>
    "The quantity of select for sub-query must be 1 for Where IN operation"
  | .subQueryUntyped => "The sub-query must have custom result for Where IN operation"
  | .selectAliasUnknown name => "Unknown join alias " ++ quote name ++ " in select"
  | .selectsMissing => "You need put at least one select"
  | .listOperandExpected => "Invalid value for Where IN operation"
  | .joinConditionOperator operator =>
    "Unsupported operator for join condition: " ++ operator.name
  | .subQueryOperator operator =>
    "Sub-query values are only supported by IN and NOT_IN, got " ++ operator.name
  | .fieldOperator operator => "Unsupported operator: " ++ operator.name
  | .twoFieldOperator operator =>
    "Operator " ++ operator.name ++ " is not supported between two fields"
  | .joinOperandNull operator field =>
    "Null value for " ++ operator.name ++ " on join field " ++ quote field
  | .operandNull operator field =>
    "Null value for " ++ operator.name ++ " on field " ++ quote field
  | .comparedWithNull path => "Null value cannot be compared with " ++ quote path
  | .fixtureSyntax => "invalid fixture JSON"
  | .fixturesNotArray entity => "fixtures for " ++ quote entity ++ " must be a JSON array"
  | .fixtureNotObject entity json =>
    "fixture for " ++ quote entity ++ " must be a JSON object, got " ++ json
  | .fixtureNotList entity relationship json =>
    quote (entity ++ "." ++ relationship) ++ " expects a list of records, got " ++ json
  | .fixtureNotScalar type json => "expected a " ++ type.name ++ " fixture value, got " ++ json
  | .coercion text target => quote text ++ " to " ++ target.name
  | .unsupportedCast target source => target.name ++ " from " ++ source
  | .constructorMissing type columns =>
    type ++ " has no constructor for (" ++ String.intercalate ", " columns ++
      ") and no default constructor"
  | .defaultMissing type => type ++ " has no default constructor"
  | .columnUnaliased index type =>
    "column " ++ toString index ++ " projected onto " ++ type ++ " has no alias"
  | .setterMissing path type => "no setter for " ++ quote path ++ " on " ++ type
  | .setterRefused property type cause =>
    "cannot set " ++ quote property ++ " on " ++ type ++ ": " ++ cause.kind.sentence (reason cause)
  | .throughCollection path property type =>
    "cannot set " ++ quote path ++ " through collection " ++ quote property ++ " on " ++ type
  | .rowEmpty type => "empty row projected onto " ++ type
  | .averageNotNumeric => "avg over non numeric values"
  | .sumNotNumeric type => "cannot sum a " ++ type ++ " value"
  | .aggregateOutsideGroup function =>
    function.spelling ++ " can only be evaluated over a group"
  | .functionUnknown name arguments =>
    "function " ++ quote name ++ " with " ++ toString arguments ++ " argument(s) is not supported"
  | .patternTooLarge pattern =>
    "invalid LIKE pattern " ++ quote pattern ++
      ": Compiled regex exceeds size limit of 10485760 bytes."
  | .sessionMissing entity =>
    "No session set for the query on " ++ quote entity ++ "; use with_session or a HefestoFactory"
  | .overflow => "attempt to add with overflow"
  | .stated _ reason => reason

/-- The whole message: the sentence of its kind around the reason. -/
def message (e : Error) : String := e.kind.sentence e.reason

end Error

/-- What the partial operations of the library return. -/
abbrev Result (α : Type) := Except Error α

end EntityQuery
