import TableStore.Schema
import TableStore.Statement.Kind

/-!
# Statements

The statements of the query language, as data. A condition compares a column
with a literal, and the conditions of a statement all have to hold. An
assignment gives a column a literal, or adds a number to the column or takes
one from it.

## Main definitions

* `ComparisonOperator`, `Condition`: Conditions.
* `SelectItem`, `OrderItem`: What a query returns, and in which order.
* `Arithmetic`, `Assignment`: Assignments.
* `Statement`: A statement.
-/

namespace TableStore

/-- How a condition compares. An operator that is not among the known ones
    compares nothing, and is kept by its text. -/
inductive ComparisonOperator where
  | equal
  | notEqual
  | greater
  | greaterOrEqual
  | less
  | lessOrEqual
  | like
  | notLike
  | unknown (symbol : String)
  deriving DecidableEq

namespace ComparisonOperator

/-- The text of an operator. -/
def symbol : ComparisonOperator → String
  | equal => "="
  | notEqual => "!="
  | greater => ">"
  | greaterOrEqual => ">="
  | less => "<"
  | lessOrEqual => "<="
  | like => "LIKE"
  | notLike => "NOT LIKE"
  | unknown s => s

/-- The operator with a text. -/
def ofSymbol (s : String) : ComparisonOperator :=
  if s = "=" then equal
  else if s = "!=" then notEqual
  else if s = ">" then greater
  else if s = ">=" then greaterOrEqual
  else if s = "<" then less
  else if s = "<=" then lessOrEqual
  else if s = "LIKE" then like
  else if s = "NOT LIKE" then notLike
  else unknown s

/-- Whether the operator matches a pattern instead of comparing with a value of
    the column's type. -/
def isPattern : ComparisonOperator → Bool
  | like => true
  | notLike => true
  | _ => false

end ComparisonOperator

/-- A comparison of a column with a value. -/
structure Condition where
  column : String
  operator : ComparisonOperator
  value : Value
  deriving DecidableEq

/-- A column that a query returns, perhaps under another name. -/
structure SelectItem where
  column : String
  label : Option String := none
  deriving DecidableEq

/-- The name under which a query returns a column. -/
def SelectItem.outputName (item : SelectItem) : String :=
  item.label.getD item.column

/-- A column that a query sorts by. -/
structure OrderItem where
  column : String
  descending : Bool := false
  deriving DecidableEq

/-- The arithmetic of an assignment. -/
inductive Arithmetic where
  | plus
  | minus
  deriving DecidableEq

/-- An assignment to a column: of a value, or of the column's own value
    changed by a value. -/
structure Assignment where
  column : String
  value : Value
  arithmetic : Option Arithmetic := none
  deriving DecidableEq

/-- A statement. A query without items returns all columns of the table, and
    an insert without columns gives values to all of them in order. -/
inductive Statement where
  | createTable (table : String) (columns : List Column) (primaryKey : Option String)
      (ifNotExists : Bool)
  | dropTable (table : String) (ifExists : Bool)
  | createIndex (index table column : String) (ifNotExists : Bool)
  | dropIndex (index table : String) (ifExists : Bool)
  | insert (table : String) (columns : Option (List String)) (values : List Value)
  | select (table : String) (items : List SelectItem) (conditions : List Condition)
      (order : List OrderItem) (limit offset : Option Nat)
  | update (table : String) (assignments : List Assignment) (conditions : List Condition)
  | delete (table : String) (conditions : List Condition)
  deriving DecidableEq

namespace Statement

/-- The kind of a statement. -/
def kind : Statement → StatementKind
  | createTable _ _ _ _ => .createTable
  | dropTable _ _ => .dropTable
  | createIndex _ _ _ _ => .createIndex
  | dropIndex _ _ _ => .dropIndex
  | insert _ _ _ => .insert
  | select _ _ _ _ _ _ => .select
  | update _ _ _ => .update
  | delete _ _ => .delete

/-- The table that a statement names. -/
def table : Statement → String
  | createTable table _ _ _ => table
  | dropTable table _ => table
  | createIndex _ table _ _ => table
  | dropIndex _ table _ => table
  | insert table _ _ => table
  | select table _ _ _ _ _ => table
  | update table _ _ => table
  | delete table _ => table

end Statement

end TableStore
