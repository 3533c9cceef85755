/-!
# Statement Kinds

## Main definitions

* `StatementKind`: The kinds of statements.
* `StatementKind.name`: The name of a kind.
-/

namespace TableStore

/-- The kinds of statements. -/
inductive StatementKind where
  | createTable
  | dropTable
  | createIndex
  | dropIndex
  | insert
  | select
  | update
  | delete
  deriving DecidableEq

/-- The name of a statement kind. -/
def StatementKind.name : StatementKind → String
  | createTable => "CREATE_TABLE"
  | dropTable => "DROP_TABLE"
  | createIndex => "CREATE_INDEX"
  | dropIndex => "DROP_INDEX"
  | insert => "INSERT"
  | select => "SELECT"
  | update => "UPDATE"
  | delete => "DELETE"

end TableStore
