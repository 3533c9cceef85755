import TableStore.Statement.Kind
import TableStore.Value

/-!
# Faults

Everything that can go wrong, by cause. A fault carries what its message
needs, and the message is computed from it in one place. Faults of stored
data, of number ranges and of the store itself carry no message of their own.

The causes fall into families. A text that is no statement is a `ParseError`,
found before the store is touched. A statement that conflicts with the catalog
names the table, column or index it conflicts with. The remaining causes can
arise only from arithmetic beyond the range of numbers, from stored data that
was not written by statements, or from a store that does not answer.

## Main definitions

* `ParseError`: Why a text is not a statement.
* `Fault`: Why an operation failed.
* `ParseError.message`, `Fault.message?`: The texts shown to the user.
* `ParseError.source?`: The text that a parse error is about.
* `ErrorCode`: The stable codes of statement errors.
-/

namespace TableStore

/-- Why a text is not a statement. -/
inductive ParseError where
  | emptyStatement (sql : Option String)
  | unsupportedStatement (sql : String)
  | malformed (kind : StatementKind) (sql : String)
  | unterminatedLiteral (sql : String)
  | unbalancedParentheses (part : String)
  | emptyColumnDefinition (sql : String)
  | invalidColumnDefinition (definition sql : String)
  | unsupportedConstraint (constraint definition sql : String)
  | invalidPrimaryKeyClause (definition sql : String)
  | repeatedPrimaryKeyClause (sql : String)
  | noColumns (sql : String)
  | repeatedColumn (sql : String)
  | multiplePrimaryKeys (columns : List String) (sql : String)
  | undeclaredPrimaryKey (column sql : String)
  | invalidColumnName (name list : String)
  | repeatedInsertColumn (sql : String)
  | noValues (list : String)
  | emptyValue (list : String)
  | unsupportedSelectItem (item sql : String)
  | invalidOrderItem (item sql : String)
  | disjunction (condition : String)
  | parentheses (condition : String)
  | negation (condition : String)
  | invalidCondition (part condition : String)
  | textAfterLiteral (part condition : String)
  | invalidAssignment (part sql : String)
  | repeatedAssignment (column sql : String)
  | foreignArithmetic (column expression sql : String)
  deriving DecidableEq

namespace ParseError

/-- How a malformed statement of each kind is described. -/
def describe : StatementKind → String
  | .createTable => "CREATE TABLE"
  | .dropTable => "DROP TABLE"
  | .createIndex => "CREATE INDEX syntax"
  | .dropIndex => "DROP INDEX syntax"
  | .insert => "INSERT"
  | .select => "SELECT"
  | .update => "UPDATE"
  | .delete => "DELETE"

/-- The message of a parse error. -/
def message : ParseError → String
  | emptyStatement _ => "Empty SQL statement"
  | unsupportedStatement sql => s!"Unsupported SQL statement: {String.ofList (sql.toList.take 50)}"
  | malformed kind sql => s!"Invalid {describe kind}: {sql}"
  | unterminatedLiteral sql => s!"Unterminated string literal: {sql}"
  | unbalancedParentheses part => s!"Unbalanced parentheses: {part}"
  | emptyColumnDefinition sql => s!"Empty column definition in: {sql}"
  | invalidColumnDefinition definition _ => s!"Invalid column definition: {definition}"
  | unsupportedConstraint constraint definition _ =>
    s!"Unsupported column constraint '{constraint}' in: {definition}"
  | invalidPrimaryKeyClause definition _ => s!"Invalid PRIMARY KEY clause: {definition}"
  | repeatedPrimaryKeyClause sql => s!"Multiple PRIMARY KEY clauses: {sql}"
  | noColumns sql => s!"CREATE TABLE needs at least one column: {sql}"
  | repeatedColumn sql => s!"Duplicate column name in: {sql}"
  | multiplePrimaryKeys columns _ => "Multiple primary keys: " ++ String.intercalate ", " columns
  | undeclaredPrimaryKey column _ => s!"PRIMARY KEY column '{column}' is not declared"
  | invalidColumnName name list => s!"Invalid column name: '{name}' in '{list}'"
  | repeatedInsertColumn sql => s!"Duplicate column in INSERT: {sql}"
  | noValues _ => "Empty VALUES list"
  | emptyValue list => s!"Empty value in VALUES ({list})"
  | unsupportedSelectItem item sql => s!"Unsupported select item '{item}' in: {sql}"
  | invalidOrderItem item sql => s!"Invalid ORDER BY item '{item}' in: {sql}"
  | disjunction condition => s!"OR is not supported in WHERE: {condition}"
  | parentheses condition => s!"Parentheses are not supported in WHERE: {condition}"
  | negation condition => s!"NOT is only supported as NOT LIKE: {condition}"
  | invalidCondition part _ => s!"Invalid WHERE condition: '{part}'"
  | textAfterLiteral part _ => s!"Unexpected text after literal in: '{part}'"
  | invalidAssignment part sql => s!"Invalid SET item '{part}' in: {sql}"
  | repeatedAssignment column sql => s!"Column '{column}' assigned twice in: {sql}"
  | foreignArithmetic column expression _ =>
    s!"Arithmetic in SET must reference the assigned column: {column} = {expression}"

/-- The text that a parse error is about: the whole statement, or the list or
    condition that is at fault. -/
def source? : ParseError → Option String
  | emptyStatement sql => sql
  | unsupportedStatement sql => some sql
  | malformed _ sql => some sql
  | unterminatedLiteral sql => some sql
  | unbalancedParentheses part => some part
  | emptyColumnDefinition sql => some sql
  | invalidColumnDefinition _ sql => some sql
  | unsupportedConstraint _ _ sql => some sql
  | invalidPrimaryKeyClause _ sql => some sql
  | repeatedPrimaryKeyClause sql => some sql
  | noColumns sql => some sql
  | repeatedColumn sql => some sql
  | multiplePrimaryKeys _ sql => some sql
  | undeclaredPrimaryKey _ sql => some sql
  | invalidColumnName _ list => some list
  | repeatedInsertColumn sql => some sql
  | noValues list => some list
  | emptyValue list => some list
  | unsupportedSelectItem _ sql => some sql
  | invalidOrderItem _ sql => some sql
  | disjunction condition => some condition
  | parentheses condition => some condition
  | negation condition => some condition
  | invalidCondition _ condition => some condition
  | textAfterLiteral _ condition => some condition
  | invalidAssignment _ sql => some sql
  | repeatedAssignment _ sql => some sql
  | foreignArithmetic _ _ sql => some sql

end ParseError

/-- Why an operation failed. -/
inductive Fault where
  /-- The text is not a statement. -/
  | parse (error : ParseError)
  | tableNotFound (table : String)
  | tableExists (table : String)
  | columnNotFound (column table : String)
  | indexExists (index table : String)
  | indexNotFound (index table : String)
  | typeMismatch (column expected : String) (value : Value)
  | duplicateKey (table rowId : String)
  | primaryKeyAssigned (column table : String)
  | arityMismatch (columns values : Nat)
  /-- A condition has an operator that orders nothing. -/
  | unknownOperator (operator : String)
  /-- Null has no place in an index. -/
  | nullInIndex
  | truncatedComponent (offset : Int)
  /-- An offset from the end leaves no room for a length. -/
  | offsetOutOfRange
  /-- The length of a key component takes more than four bytes. -/
  | componentTooLong
  | emptyRoot
  | unknownSettings (names : List String)
  | invalidFlag (name : String) (value : Value)
  | emptyRootSetting
  | unknownIdStrategy (name : String)
  /-- The name is no level of the log. -/
  | unknownLogLevel
  /-- The setting is not of a kind that the operation applies to. -/
  | settingWithoutText
  | settingNotUsable
  | missingMethod (object name : String)
  | missingScan (object : String)
  | unknownFormat (name : String)
  /-- An integer is beyond the range of doubles. -/
  | beyondDouble
  /-- An integer has more digits than are read or written. -/
  | digitLimit
  /-- Arithmetic met an operand that is no number. -/
  | notArithmetic
  /-- A stored row id is neither text nor bytes. -/
  | unusableRowId
  /-- A stored row id is bytes where text is needed. -/
  | rowIdNotText
  /-- A stored object lacks a member. -/
  | missingMember (name : String)
  /-- A stored member is not of the kind it has to be. -/
  | misfitMember
  | malformedJson
  | notAnObject
  | malformedBase64
  | base64NotAscii
  | base64NotText
  | malformedUtf8
  /-- A default value has no place in a stored schema. -/
  | unstorableDefault
  /-- The source of ids gave only ids that are taken. -/
  | idsExhausted
  /-- The store does not answer. -/
  | storeUnavailable
  /-- A key that a store lists has no value. -/
  | keyWithoutValue
  /-- A key with a value has no place in the list of a store. -/
  | keyNotListed
  deriving DecidableEq

/-- The stable codes of statement errors. -/
inductive ErrorCode where
  | parseError
  | tableNotFound
  | tableExists
  | columnNotFound
  | indexExists
  | indexNotFound
  | typeMismatch
  | duplicateKey
  | arityMismatch
  deriving DecidableEq

/-- The name of an error code. -/
def ErrorCode.name : ErrorCode → String
  | parseError => "parse_error"
  | tableNotFound => "table_not_found"
  | tableExists => "table_exists"
  | columnNotFound => "column_not_found"
  | indexExists => "index_exists"
  | indexNotFound => "index_not_found"
  | typeMismatch => "type_mismatch"
  | duplicateKey => "duplicate_key"
  | arityMismatch => "arity_mismatch"

namespace Fault

/-- The code of a statement error. -/
def code? : Fault → Option ErrorCode
  | parse _ => some .parseError
  | tableNotFound _ => some .tableNotFound
  | tableExists _ => some .tableExists
  | columnNotFound _ _ => some .columnNotFound
  | indexExists _ _ => some .indexExists
  | indexNotFound _ _ => some .indexNotFound
  | typeMismatch _ _ _ => some .typeMismatch
  | duplicateKey _ _ => some .duplicateKey
  | primaryKeyAssigned _ _ => some .parseError
  | arityMismatch _ _ => some .arityMismatch
  | _ => none

/-- The message of a fault that has one. -/
def message? : Fault → Option String
  | parse error => some error.message
  | tableNotFound table => some s!"Table not found: '{table}'"
  | tableExists table => some s!"Table exists: '{table}'"
  | columnNotFound column table =>
    some s!"Column '{column}' does not exist in table '{table}'"
  | indexExists index table => some s!"Index '{index}' already exists on table '{table}'"
  | indexNotFound index table => some s!"Index '{index}' does not exist on table '{table}'"
  | typeMismatch column expected value =>
    some s!"Column '{column}' expects {expected}, got {value.typeName} {value.quoted}"
  | duplicateKey table rowId => some s!"Duplicate primary key '{rowId}' in table '{table}'"
  | primaryKeyAssigned column table =>
    some s!"Cannot update primary key column '{column}' of table '{table}'"
  | arityMismatch columns values =>
    some s!"Column count ({columns}) doesn't match value count ({values})"
  | unknownOperator operator => some s!"Unknown operator: {operator}"
  | nullInIndex => some "NULL values are not indexed"
  | truncatedComponent offset => some s!"Truncated key component at offset {offset}"
  | emptyRoot => some "Key root must not be empty"
  | unknownSettings names => some ("Unknown config keys: " ++ String.intercalate ", " names)
  | invalidFlag name value => some s!"Invalid boolean for {name}: {value.quoted}"
  | emptyRootSetting => some "root_prefix must not be empty"
  | unknownIdStrategy name => some s!"Unknown id_strategy '{name}'. Valid: uuid, counter"
  | missingMethod object name => some s!"{object} has no '{name}' method"
  | missingScan object => some s!"{object} has no 'scan_prefix' or 'scan' method"
  | unknownFormat name =>
    some s!"Cannot convert {name} to WireFormat: Unknown format '{name}'. Valid: toon, json"
  | _ => none

end Fault

/-- The fault of a value that does not fit a column. A value without a text
    cannot be shown, so it is reported as what it is. -/
def typeMismatch (column expected : String) (value : Value) : Fault :=
  if value.hasText then .typeMismatch column expected value else .digitLimit

end TableStore
