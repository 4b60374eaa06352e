import TableOps.Number.Integer
import TableOps.Problem
import TableOps.Value.Written

/-!
# Failures

What can go wrong, by cause. Each family of causes has its wording in one function.

* `Malformed` — commands, expressions, joins and filters that cannot be understood.
* `SchemaFault`, `ConfigurationFault`, `TransactionFault`, `InputFault` — the other families.
* `Failure` — all of them, with the failures that only have a kind.
* `Integer.digits`, `Value.asText` — numbers and values as a part of a text, which may be refused.
-/

namespace TableOps

/-- A command, expression, join or filter that cannot be understood or does not fit. -/
inductive Malformed where
  | unreadableFilter (filter : Value)
  | unknownConnective (name : Value)
  | membersNotList (members : Value)
  | emptyMembership (column : String) (value : Value)
  | joinWithoutTable (join : Value)
  | joinWithoutClause (join : Value)
  | expressionWithoutTable (expression : Value)
  | columnsNotList
  | notATransformer (column : String)
  | unreadableColumn
  | commandNotMapping (command : Value)
  | incompleteCommand (command : Value)
  | unknownOperation (name : Value)
  | foreignColumn (reference table key : String)
  | noStoredExpressions (database : String)
  | unknownStoredExpression (path : String)
  | missingData (operation : String)
  | conditionWithoutValue (column operator : String) (condition : Value)
  deriving Repr

/-- The wording of a malformed input. -/
def Malformed.message : Malformed → String
  | .unreadableFilter filter => "Cannot interpret filter: " ++ filter.written
  | .unknownConnective name => "Unknown boolean operator: " ++ name.written
  | .membersNotList _ => "Group filters must be a list"
  | .emptyMembership _ _ => "Parameters for the IN clause should be a non-empty array"
  | .joinWithoutTable _ => "Joined table name is missing"
  | .joinWithoutClause _ => "Missing join clause"
  | .expressionWithoutTable _ => "Expression table is missing"
  | .columnsNotList => "The table column is not in correct format."
  | .notATransformer column =>
    "Transformer for column " ++ Text.written column ++ " is not callable"
  | .unreadableColumn => "Some table columns are not in correct format."
  | .commandNotMapping _ => "A command must be a mapping"
  | .incompleteCommand _ => "The command is missing the sql expression or operator."
  | .unknownOperation name => "Unknown operation: " ++ name.written
  | .foreignColumn reference table _ =>
    "Column reference `" ++ reference ++ "` is outside table `" ++ table ++
      "` and cannot be used in a write"
  | .noStoredExpressions database =>
    "No stored expressions configured for database `" ++ database ++ "`"
  | .unknownStoredExpression path => "Unknown stored expression: " ++ path
  | .missingData operation => "Missing " ++ operation ++ " data"
  | .conditionWithoutValue column operator _ =>
    "Missing value for " ++ column ++ " " ++ operator

/-- The parts of the input that a malformed input is about. -/
def Malformed.details : Malformed → Entries Value
  | .unreadableFilter filter => [("filter", filter)]
  | .membersNotList members => [("filters", members)]
  | .emptyMembership column value => [("column", .text column), ("value", value)]
  | .joinWithoutTable join => [("join", join)]
  | .joinWithoutClause join => [("join", join)]
  | .expressionWithoutTable expression => [("expression", expression)]
  | .commandNotMapping command => [("command", command)]
  | .incompleteCommand command => [("command", command)]
  | .foreignColumn _ _ key => [("key", .text key)]
  | .conditionWithoutValue column _ condition => [(column, condition)]
  | _ => []

/-- A schema that cannot be written or read. -/
inductive SchemaFault where
  | noTitle
  | noColumns
  | noPrimaryKey
  | unqualifiedForeignKey (reference : String)
  | noSuchTable (table : String)
  deriving Repr

/-- The wording of a schema fault. -/
def SchemaFault.message : SchemaFault → String
  | .noTitle => "Missing table name"
  | .noColumns => "No table columns"
  | .noPrimaryKey => "Primary key not specified."
  | .unqualifiedForeignKey reference =>
    "Foreign key reference must be 'Table.column': " ++ Text.written reference
  | .noSuchTable table => "Table '" ++ table ++ "' does not exist"

/-- An unknown database or a configuration that cannot be used. -/
inductive ConfigurationFault where
  | unsupportedScheme (scheme : String)
  | noSource
  | noDialect
  | closedDown (database : String)
  | unknownDatabase (name : Option String)
  | noStoredDirectory (path : String)
  | invalidStored (path : String) (cause : Malformed)
  | unsupportedFile (path : String)
  | invalidSettings (problems : List Problem)
  deriving Repr

/-- The wording of a configuration fault. -/
def ConfigurationFault.message : ConfigurationFault → String
  | .unsupportedScheme scheme => "Unsupported database scheme: " ++ scheme
  | .noSource => "A database needs either a URL or a connection factory"
  | .noDialect => "A dialect is required when using a connection factory"
  | .closedDown database => "Database `" ++ database ++ "` has been closed down"
  | .unknownDatabase name =>
    "No database configured with name=`" ++ (Value.ofText? name).plainText ++ "`"
  | .noStoredDirectory path => "Stored expression directory not found: " ++ path
  | .invalidStored path cause => "Invalid stored expression in " ++ path ++ ": " ++ cause.message
  | .unsupportedFile path => "Unsupported stored expression file: " ++ path
  | .invalidSettings _ => "Invalid database configuration"

/-- A call that does not fit the state of a connection. -/
inductive TransactionFault where
  | released
  | noneInProgress
  deriving DecidableEq, Repr

/-- The wording of a transaction fault. -/
def TransactionFault.message : TransactionFault → String
  | .released => "Connection has already been released"
  | .noneInProgress => "No transaction in progress"

/-- A text or value that is refused for what it says. -/
inductive InputFault where
  | emptyTableReference
  | unreadableTableReference (text : String)
  | unreadableInteger (value : String)
  /-- A number of so many digits is not read. -/
  | longInteger (digits : Nat)
  /-- A number has too many digits to be written. -/
  | unwritableInteger
  /-- What is not a number is to be a whole one. -/
  | notANumber
  | unknownConnective (name : String)
  | membersNotList
  | unsupportedStyle (dialect style : String)
  | noLocation
  /-- A URL that cannot be split, with the reason. -/
  | badUrl (reason : String)
  /-- An item of a list of pairs that is none, with its position and its length. -/
  | notAPair (position length : Nat)
  deriving DecidableEq, Repr

/-- A number is longer than whole numbers may be as text. -/
def digitLimitText : String :=
  "Exceeds the limit (" ++ toString Integer.digitLimit ++ " digits) for integer string conversion"

/-- What helps against the limit on digits. -/
def digitLimitAdvice : String :=
  "; use sys.set_int_max_str_digits() to increase the limit"

/-- The fault of a text that is not read as a whole number. -/
def InputFault.ofRefusal (text : String) : Integer.Refusal → InputFault
  | .notANumber => .unreadableInteger text
  | .tooLong digits => .longInteger digits

/-- The wording of a refused input. -/
def InputFault.message : InputFault → String
  | .emptyTableReference => "Empty table reference"
  | .unreadableTableReference text => "Cannot parse table reference: " ++ Text.written text
  | .unreadableInteger value => "invalid literal for int() with base 10: " ++ Text.written value
  | .longInteger digits =>
    digitLimitText ++ ": value has " ++ toString digits ++ " digits" ++ digitLimitAdvice
  | .unwritableInteger => digitLimitText ++ digitLimitAdvice
  | .notANumber => "cannot convert float NaN to integer"
  | .unknownConnective name => "Unknown boolean operator: " ++ Text.written name
  | .membersNotList => "Group filters must be a list"
  | .unsupportedStyle dialect style => "Unsupported paramstyle for " ++ dialect ++ ": " ++ style
  | .noLocation => "Cannot find database configuration: give a url or a database name"
  | .badUrl reason => reason
  | .notAPair position length =>
    "dictionary update sequence element #" ++ toString position ++ " has length " ++
      toString length ++ "; 2 is required"

/-- How a call can end without a result, by cause. All but one of the causes are errors; the other is
that the caller is broken off. -/
inductive Failure where
  | malformed (cause : Malformed)
  /-- An insert or update is left without a column to write. -/
  | noWritableColumns (table operation : String)
  /-- No statement can be composed for a command. -/
  | notComposable
  | schema (cause : SchemaFault)
  | configuration (cause : ConfigurationFault)
  | transaction (cause : TransactionFault)
  | input (cause : InputFault)
  /-- Plain data does not fit a model. -/
  | invalid (problems : List Problem)
  /-- The server refused a statement. -/
  | driver (reason : String)
  /-- An error of some kind that a function of the caller raises, or the block of a transaction. -/
  | raised (kind reason : String)
  /-- The caller is broken off: from the keyboard, by the end of the program or by the end of its
  task. This is no error, and what handles errors lets it pass. -/
  | interrupted (kind reason : String)
  /-- The table of an expression was to be changed. -/
  | fixedTable
  /-- A value lacks an operation that is asked of it. -/
  | unsupportedValue
  /-- A value of the wrong kind. -/
  | wrongKind
  /-- A name is not present. -/
  | noSuchMember
  /-- A row is not present. -/
  | noRow
  /-- A row has no value. -/
  | emptyRow
  /-- A number without bound is to be a whole number. -/
  | unbounded
  | unreadableJson
  | fileNotFound
  /-- A directory stands where a file is needed. -/
  | isDirectory
  /-- A file stands where a directory is needed. -/
  | notDirectory
  deriving Repr

namespace Failure

/-- The failure is an error, which is handled where errors are. -/
def isError : Failure → Bool
  | .interrupted _ _ => false
  | _ => true

/-- The wording of a failure; failures that only have a kind have none. -/
def message? : Failure → Option String
  | .malformed cause => some cause.message
  | .noWritableColumns table operation =>
    some ("No data for " ++ operation ++ " on table '" ++ table ++ "'.")
  | .notComposable => some "Fail to compose the sql statement."
  | .schema cause => some cause.message
  | .configuration cause => some cause.message
  | .transaction cause => some cause.message
  | .input cause => some cause.message
  | .driver reason => some reason
  | .raised _ reason => some reason
  | .interrupted _ reason => some reason
  | .fixedTable => some "The table of a query expression cannot be changed"
  | _ => none

/-- The parts of the input that a failure is about. -/
def details : Failure → Entries Value
  | .malformed cause => cause.details
  | _ => []

/-- The problems that a failure lists. -/
def problems : Failure → List Problem
  | .invalid problems => problems
  | .configuration (.invalidSettings problems) => problems
  | _ => []

/-- The problems a failure makes inside a check: a failure about the data itself becomes a problem,
any other ends the check. -/
def asProblems? : Failure → Option (List Problem)
  | .invalid problems => some problems
  | .malformed cause => some [⟨[], .refused cause.message⟩]
  | .noWritableColumns table operation =>
    some [⟨[], .refused ("No data for " ++ operation ++ " on table '" ++ table ++ "'.")⟩]
  | .configuration cause => some [⟨[], .refused cause.message⟩]
  | .input cause => some [⟨[], .refused cause.message⟩]
  | _ => none

end Failure

/-- The digits of a whole number with its sign, as a text is made of them. -/
def Integer.digits (n : Int) : Except Failure String :=
  match Integer.text? n with
  | some s => .ok s
  | none => .error (.input .unwritableInteger)

/-- A value as a text is made of it. -/
def Value.asText (v : Value) : Except Failure String :=
  if v.writable then .ok v.plainText else .error (.input .unwritableInteger)

end TableOps
