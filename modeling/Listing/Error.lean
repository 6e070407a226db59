import Listing.Value.Text

/-!
# Errors

`QueryFault` lists what can be wrong with a request, `SpecificationFault` what can be wrong with a
declaration or with the use of a source; both have a message. The other errors come from an
operation on a value that its kind does not have, or from the data behind a source.
-/

namespace Listing

/-- What a request can be at fault for. -/
inductive QueryFault
  /-- A parameter does not hold a list of `things`. -/
  | notAList (keyword : String) (things : String)
  /-- A field that is not declared at this place. -/
  | unsupportedField (name : Value) (location : String)
  /-- A relation or include that is not declared at this place. -/
  | unsupportedInclude (name : Value) (location : String)
  /-- A filter that is not declared. -/
  | unsupportedFilter (name : Value)
  /-- A filter value that has to be a scalar. -/
  | scalarRequired (name : Value)
  /-- A filter value that has to be a scalar or a collection. -/
  | membersRequired (name : Value)
  | multipleSort
  | unsupportedSort (tokens : String)
  | integerRequired (keyword : Value)
  | pageSizeOutOfRange (keyword least greatest : Value)
  | pageNotPositive (keyword : Value)
  | cursorParameterMissing (name : Value)
  | invalidCursor

namespace QueryFault

/-- The message for a fault. -/
def message : QueryFault → String
  | .notAList keyword things => "\"" ++ keyword ++ "\" should be a list of " ++ things ++ "."
  | .unsupportedField name location =>
    "Unsupported field \"" ++ name.toText ++ "\" in \"" ++ location ++ "\"."
  | .unsupportedInclude name location =>
    "Unsupported include \"" ++ name.toText ++ "\" in \"" ++ location ++ "\"."
  | .unsupportedFilter name => "Filter \"" ++ name.toText ++ "\" is not supported."
  | .scalarRequired name => "Filter \"" ++ name.toText ++ "\" requires scalar value."
  | .membersRequired name => "Filter \"" ++ name.toText ++ "\" requires a list of values."
  | .multipleSort => "Sort by multiple fields is not supported."
  | .unsupportedSort tokens => "Sort by " ++ tokens ++ " is not supported."
  | .integerRequired keyword => "\"" ++ keyword.toText ++ "\" should be an integer."
  | .pageSizeOutOfRange keyword least greatest =>
    "\"" ++ keyword.toText ++ "\" should be in range: " ++ least.toText ++ ".." ++ greatest.toText
  | .pageNotPositive keyword => "\"" ++ keyword.toText ++ "\" should be > 0."
  | .cursorParameterMissing name => "Cursor is missing parameter \"" ++ name.toText ++ "\"."
  | .invalidCursor => "Invalid pagination cursor."

/-- The values that the message for a fault writes. -/
def values : QueryFault → List Value
  | .unsupportedField name _ | .unsupportedInclude name _ | .unsupportedFilter name
  | .scalarRequired name | .membersRequired name | .cursorParameterMissing name => [name]
  | .integerRequired keyword | .pageNotPositive keyword => [keyword]
  | .pageSizeOutOfRange keyword least greatest => [keyword, least, greatest]
  | _ => []

end QueryFault

/-- What a declaration or the use of a source can be at fault for. -/
inductive SpecificationFault
  /-- A declaration that is neither a mapping nor a list. -/
  | notADeclaration (typeName : String)
  /-- An operation without a name. -/
  | unnamedOperation (kind spelling : String)
  /-- A callback without a name. -/
  | unnamedCallback (kind entry : String)
  /-- A group without a name. -/
  | unnamedGroup (kind entry : String)
  | unsupportedEntry (kind entry : String)
  | unsupportedCompareOperator (operator : Value)
  | unsupportedLikeOperator (operator : Value)
  | emptySearch
  | unsupportedDirection (direction : String) (column : Value)
  | unsupportedOrder (typeName : String)
  /-- The default order uses attributes that are not declared. -/
  | undeclaredDefault (tokens : String)
  | unsupportedRequest (typeName : String)
  | unsupportedSource (typeName : String)
  /-- A select that narrows the columns of an entity. -/
  | entityRequired
  | singleTargetRequired
  | sessionRequired
  | unknownAttribute (name : Value) (entity : String)
  | unknownRelation (relation : String) (entity : String)
  | relationsUnsupported (table : String)
  | unknownScope (name : Value) (entity : String)
  | softDeleteUnsupported (entity : String)
  | unsupportedAggregate (function : String)
  /-- A relation is refined by an order or an aggregate. -/
  | refinementLimited

namespace SpecificationFault

/-- A word with its first letter in upper case, for the kinds of declarations. -/
def capitalized (word : String) : String :=
  match word.toList with
  | [] => ""
  | c :: cs => String.ofList (c.toUpper :: cs)

/-- The message for a fault. -/
def message : SpecificationFault → String
  | .notADeclaration typeName =>
    "Declaration should be a mapping or a list, " ++ typeName ++ " given."
  | .unnamedOperation kind spelling =>
    capitalized kind ++ " " ++ spelling ++ " should be indexed by name."
  | .unnamedCallback kind entry =>
    capitalized kind ++ " callback should be indexed by name, " ++ entry ++ " given."
  | .unnamedGroup kind entry =>
    capitalized kind ++ " group should be indexed by name, " ++ entry ++ " given."
  | .unsupportedEntry kind entry => "Unsupported " ++ kind ++ " specification: " ++ entry
  | .unsupportedCompareOperator operator =>
    "Unsupported compare operator \"" ++ operator.toText ++ "\"."
  | .unsupportedLikeOperator operator =>
    "Unsupported like operator \"" ++ operator.toText ++ "\"."
  | .emptySearch => "FilterSearch requires at least one attribute."
  | .unsupportedDirection direction column =>
    "Unsupported sort direction \"" ++ direction ++ "\" for \"" ++ column.toText ++ "\"."
  | .unsupportedOrder typeName => "Unsupported order specification: " ++ typeName
  | .undeclaredDefault tokens =>
    "Default sort references undeclared attributes: " ++ tokens ++ "."
  | .unsupportedRequest typeName => "Unsupported request type: " ++ typeName
  | .unsupportedSource typeName => "Unsupported source type: " ++ typeName
  | .entityRequired =>
    "Select source should select the mapped entity itself; narrow columns with load_only()."
  | .singleTargetRequired => "Select source should target a single mapped entity or table."
  | .sessionRequired => "A session is required to execute a SQLAlchemy source."
  | .unknownAttribute name entity =>
    "Unknown attribute \"" ++ name.toText ++ "\" of " ++ entity ++ "."
  | .unknownRelation relation entity =>
    "Unknown relation \"" ++ relation ++ "\" of " ++ entity ++ "."
  | .relationsUnsupported table =>
    "Relations are not supported by table source \"" ++ table ++ "\"."
  | .unknownScope name entity =>
    "Scope \"" ++ name.toText ++ "\" is not defined on " ++ entity ++ "."
  | .softDeleteUnsupported entity => entity ++ " does not support soft delete."
  | .unsupportedAggregate function => "Unsupported aggregate function \"" ++ function ++ "\"."
  | .refinementLimited =>
    "Relation refinements support only fields, filters and nested relations; " ++
      "declare ordering on the relationship instead."

/-- The values that the message for a fault writes. -/
def values : SpecificationFault → List Value
  | .unsupportedCompareOperator v | .unsupportedLikeOperator v | .unsupportedDirection _ v
  | .unknownAttribute v _ | .unknownScope v _ => [v]
  | _ => []

end SpecificationFault

/-- Why an operation has no result. -/
inductive Error
  /-- The request is at fault. -/
  | query (fault : QueryFault)
  /-- The declaration, or the way a source is used, is at fault. -/
  | specification (fault : SpecificationFault)
  /-- A value of this kind does not take part in the operation. -/
  | wrongKind
  /-- The value has the right kind and no meaning for the operation. -/
  | badValue
  /-- The object has no member of this name. -/
  | noMember
  /-- The map has no such key. -/
  | noKey
  /-- The position lies outside the list. -/
  | noPosition
  /-- A number is divided by zero. -/
  | divisionByZero
  /-- A number is too large. -/
  | overflow
  /-- The source does not have this capability. -/
  | notSupported
  /-- A decimal that is not a number has no place in an order. -/
  | undefinedOrder
  /-- Data is nested too deeply. -/
  | tooDeep
  /-- A comparison cannot be written as a query. -/
  | badComparison
  /-- A relation to any number of rows is compared with something. -/
  | badCollection
  /-- A relation is fetched as if it were a column. -/
  | badSelection
  /-- A parameter of a query cannot hold a value. -/
  | badParameter
  /-- A database takes no value of this kind. -/
  | badBinding
  /-- A database refuses a query. -/
  | badOperation

/-- The text of a value, which an integer with too many digits has not. -/
def Value.asText (v : Value) : Except Error String :=
  if v.hasText then .ok v.toText else .error .badValue

/-- The error as it is reported: a message that would write a value without a text is none. -/
def Error.reported : Error → Error
  | .query fault => if Value.allHaveText fault.values then .query fault else .badValue
  | .specification fault =>
    if Value.allHaveText fault.values then .specification fault else .badValue
  | e => e

end Listing
