import TableStore.Engine.Manipulation
import TableStore.Statement.Reader

/-!
# Executing Statements

## Main definitions

* `Engine.executeStatement`: Executes a statement.
* `Engine.execute`: Executes the statement that a text is. A text that is no
  statement is refused before the store is asked for anything.
-/

namespace TableStore

namespace Engine

/-- Executes a statement. -/
def executeStatement (engine : Engine) : Statement → Access QueryResult
  | .createTable table columns primaryKey ifNotExists =>
    engine.createTable table columns primaryKey ifNotExists
  | .dropTable table ifExists => engine.dropTable table ifExists
  | .createIndex index table column ifNotExists =>
    engine.createIndex index table column ifNotExists
  | .dropIndex index table ifExists => engine.dropIndex index table ifExists
  | .insert table columns values => engine.insert table columns values
  | .select table items conditions order limit offset =>
    engine.select table items conditions order limit offset
  | .update table assignments conditions => engine.update table assignments conditions
  | .delete table conditions => engine.delete table conditions

/-- Executes the statement that a text is. -/
def execute (engine : Engine) (sql : Option String) : Access QueryResult := do
  let statement ← Access.lift (Statement.ofText sql)
  engine.executeStatement statement

end Engine

end TableStore
