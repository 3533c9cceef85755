import TableStore.Proofs.Statement.Literals
import TableStore.Value.ColumnType

/-!
# Statements as Texts

The text of a statement: its clauses in order, with single blanks between
words, a comma and a blank between the items of a list, and the keywords in
capitals. A statement has such a text if its names are plain and its values
are those that a literal of a few simple forms denotes.

A plain name is an ASCII name that is no keyword in any case. The words TRUE
and FALSE are literals and not keywords, so they are plain names too.

Some statements can be said in more than one way: the direction of an order may
be left out if it is ascending, a default of null need not be written, the
primary key is declared at its column or in a clause of its own, and its column
need not be said to have no nulls. `Style` settles these, and whether there is
a semicolon at the end.

What is printed are marked characters and not plain ones, for it is these that
the clauses are read from. The text is what is left without the marks.

## Main definitions

* `isPlainName`: Whether a text is a plain name.
* `Value.isLiteral`: Whether a value has a literal.
* `Style`: What is left open by a statement.
* `Statement.isPrintable`: Whether a statement has a text.
* `Statement.cells`, `Statement.text`: The text of a statement, with and
  without marks.
-/

namespace TableStore

/-- The words that clauses are made of. -/
def keywords : List String :=
  ["CREATE", "TABLE", "INDEX", "DROP", "IF", "NOT", "EXISTS", "PRIMARY", "KEY", "NULL", "DEFAULT",
    "ON", "INSERT", "INTO", "VALUES", "SELECT", "AS", "FROM", "WHERE", "AND", "OR", "LIKE", "ORDER",
    "BY", "ASC", "DESC", "LIMIT", "OFFSET", "UPDATE", "SET", "DELETE"]

/-- Whether a character can be part of a plain name. -/
def isNameChar (c : Char) : Bool :=
  c.isAlphanum || c == '_'

/-- Whether a text is one word of ASCII characters. -/
def isWord (w : String) : Bool :=
  !w.toList.isEmpty && w.toList.all isNameChar

/-- The capitals of a word of ASCII characters. -/
def capitals (w : String) : String :=
  String.ofList (w.toList.map Char.toUpper)

/-- Whether a text is an ASCII name that is no keyword in any case. -/
def isPlainName (w : String) : Bool :=
  isWord w && !w.toList.head?.any Char.isDigit && !keywords.contains (capitals w)

/-- Text outside of literals. -/
def plain (w : String) : List Cell :=
  w.toList.map fun c => ⟨c, false⟩

/-- The items of a list, with a text between any two. -/
def listed (between : String) : List (List Cell) → List Cell
  | [] => []
  | u :: us => u ++ us.flatMap (plain between ++ ·)

/-- What is left open by a statement. -/
structure Style where
  /-- Whether a semicolon ends the text. -/
  semicolon : Bool := false
  /-- Whether the ascending order of a column is written. -/
  writesAscending : String → Bool := fun _ => false
  /-- Whether the default of a column is written if it is null. -/
  writesNull : String → Bool := fun _ => false
  /-- Whether the primary key is declared in a clause of its own. -/
  keyClause : Bool := false
  /-- Whether the primary key is said to have no nulls. -/
  writesNotNull : Bool := false

section Parts

/-- Whether a value has a literal: it is null, a truth value, an integer with a
    text, or a text without a backslash. -/
def Value.isLiteral : Value → Bool
  | null => true
  | bool _ => true
  | int n => Text.withinDigitLimit n
  | text s => !s.toList.contains '\\'
  | _ => false

/-- The literal of a value. -/
def Value.cells : Value → List Cell
  | null => plain "NULL"
  | bool b => plain (if b then "TRUE" else "FALSE")
  | int n => plain (toString n)
  | text s => literalCells '\'' (doubled '\'' s.toList)
  | _ => []

/-- Whether an operator has a symbol of its own. -/
def ComparisonOperator.isKnown : ComparisonOperator → Bool
  | unknown _ => false
  | _ => true

def Condition.isPrintable (condition : Condition) : Bool :=
  isPlainName condition.column && condition.operator.isKnown && condition.value.isLiteral

def Condition.cells (condition : Condition) : List Cell :=
  plain (condition.column ++ " " ++ condition.operator.symbol ++ " ") ++ condition.value.cells

def SelectItem.isPrintable (item : SelectItem) : Bool :=
  isPlainName item.column && item.label.all isPlainName

def SelectItem.cells (item : SelectItem) : List Cell :=
  match item.label with
  | none => plain item.column
  | some label => plain (item.column ++ " AS " ++ label)

def OrderItem.cells (style : Style) (item : OrderItem) : List Cell :=
  plain item.column
    ++ if item.descending then plain " DESC"
      else if style.writesAscending item.column then plain " ASC" else []

/-- Whether an assignment has a text. A column is only changed by an integer. -/
def Assignment.isPrintable (assignment : Assignment) : Bool :=
  isPlainName assignment.column && assignment.value.isLiteral
    && match assignment.arithmetic, assignment.value with
      | none, _ => true
      | some _, .int _ => true
      | some _, _ => false

/-- The sign of an arithmetic. -/
def Arithmetic.sign : Arithmetic → String
  | plus => "+"
  | minus => "-"

def Assignment.cells (assignment : Assignment) : List Cell :=
  plain (assignment.column ++ " = ")
    ++ (match assignment.arithmetic with
      | none => []
      | some arithmetic => plain (assignment.column ++ " " ++ arithmetic.sign ++ " "))
    ++ assignment.value.cells

/-- Whether a column has a text. A primary key is never null. -/
def Column.isPrintable (column : Column) : Bool :=
  isPlainName column.name && isPlainName column.typeName
    && canonicalTypeName column.typeName == column.typeName
    && column.default.isLiteral && !(column.primaryKey && column.nullable)

/-- The constraints of a column in the order in which they are written. -/
def Column.constraints (style : Style) (column : Column) : List Constraint :=
  (if column.primaryKey && !style.keyClause then [.primaryKey] else [])
    ++ (if !column.nullable && (!column.primaryKey || style.writesNotNull) then [.notNull] else [])
    ++ if !column.default.isNull || style.writesNull column.name then
        [.default column.default.cells]
      else []

def Constraint.cells : Constraint → List Cell
  | primaryKey => plain " PRIMARY KEY"
  | notNull => plain " NOT NULL"
  | null => plain " NULL"
  | default literal => plain " DEFAULT " ++ literal

def Column.cells (style : Style) (column : Column) : List Cell :=
  plain (column.name ++ " " ++ column.typeName)
    ++ (column.constraints style).flatMap Constraint.cells

end Parts

section Clauses

/-- A clause with a list of items, which is absent if there are none. -/
def clauseCells (opening between : String) : List (List Cell) → List Cell
  | [] => []
  | us => plain opening ++ listed between us

def whereCells (conditions : List Condition) : List Cell :=
  clauseCells " WHERE " " AND " (conditions.map Condition.cells)

def orderCells (style : Style) (order : List OrderItem) : List Cell :=
  clauseCells " ORDER BY " ", " (order.map (OrderItem.cells style))

/-- A clause with a number, which may be absent. -/
def countCells (w : String) : Option Nat → List Cell
  | none => []
  | some n => plain (" " ++ w ++ " " ++ toString n)

def itemCells : List SelectItem → List Cell
  | [] => plain "*"
  | items => listed ", " (items.map SelectItem.cells)

/-- The columns of a table and perhaps the clause of its primary key. -/
def definitionCells (style : Style) (columns : List Column) (primaryKey : Option String) :
    List (List Cell) :=
  columns.map (Column.cells style)
    ++ if style.keyClause then
        primaryKey.toList.map fun column => plain ("PRIMARY KEY(" ++ column ++ ")")
      else []

def columnListCells : Option (List String) → List Cell
  | none => []
  | some names => plain " (" ++ listed ", " (names.map plain) ++ plain ")"

/-- Whether a limit or an offset has few enough digits to be read. -/
def countWithinLimit (n : Nat) : Bool :=
  Text.withinDigitLimit n

end Clauses

namespace Statement

/-- Whether a statement has a text: its names are plain, its values have
    literals, and it could have been read. -/
def isPrintable : Statement → Bool
  | createTable table columns primaryKey _ =>
    isPlainName table && !columns.isEmpty && columns.all Column.isPrintable
      && decide (columns.map Column.name).Nodup
      && (columns.filter Column.primaryKey).map Column.name == primaryKey.toList
  | dropTable table _ => isPlainName table
  | createIndex index table column _ =>
    isPlainName index && isPlainName table && isPlainName column
  | dropIndex index table _ => isPlainName index && isPlainName table
  | insert table columns values =>
    isPlainName table && !values.isEmpty && values.all Value.isLiteral
      && columns.all fun names => !names.isEmpty && names.all isPlainName && decide names.Nodup
  | select table items conditions order _ _ =>
    isPlainName table && items.all SelectItem.isPrintable && conditions.all Condition.isPrintable
      && order.all fun item => isPlainName item.column
  | update table assignments conditions =>
    isPlainName table && !assignments.isEmpty && assignments.all Assignment.isPrintable
      && decide (assignments.map Assignment.column).Nodup && conditions.all Condition.isPrintable
  | delete table conditions => isPlainName table && conditions.all Condition.isPrintable

/-- Whether the limit and the offset of a statement have few enough digits to
    be read. -/
def countsWithinLimit : Statement → Bool
  | select _ _ _ _ limit offset => limit.all countWithinLimit && offset.all countWithinLimit
  | _ => true

/-- The text of a statement with its literals marked, but for a semicolon at
    the end. -/
def cells (style : Style) : Statement → List Cell
  | createTable table columns primaryKey mayExist =>
    plain ("CREATE TABLE " ++ (if mayExist then "IF NOT EXISTS " else "") ++ table ++ " (")
      ++ listed ", " (definitionCells style columns primaryKey) ++ plain ")"
  | dropTable table mayLack =>
    plain ("DROP TABLE " ++ (if mayLack then "IF EXISTS " else "") ++ table)
  | createIndex index table column mayExist =>
    plain ("CREATE INDEX " ++ (if mayExist then "IF NOT EXISTS " else "") ++ index ++ " ON "
      ++ table ++ "(" ++ column ++ ")")
  | dropIndex index table mayLack =>
    plain ("DROP INDEX " ++ (if mayLack then "IF EXISTS " else "") ++ index ++ " ON " ++ table)
  | insert table columns values =>
    plain ("INSERT INTO " ++ table) ++ columnListCells columns ++ plain " VALUES ("
      ++ listed ", " (values.map Value.cells) ++ plain ")"
  | select table items conditions order limit offset =>
    plain "SELECT " ++ itemCells items ++ plain (" FROM " ++ table) ++ whereCells conditions
      ++ orderCells style order ++ countCells "LIMIT" limit ++ countCells "OFFSET" offset
  | update table assignments conditions =>
    plain ("UPDATE " ++ table ++ " SET ") ++ listed ", " (assignments.map Assignment.cells)
      ++ whereCells conditions
  | delete table conditions => plain ("DELETE FROM " ++ table) ++ whereCells conditions

/-- The text of a statement. -/
def text (style : Style) (statement : Statement) : String :=
  cellText (statement.cells style) ++ if style.semicolon then ";" else ""

example : (select "users" [⟨"name", none⟩, ⟨"age", some "years"⟩]
      [⟨"age", .greater, .int (-25)⟩, ⟨"name", .notLike, .text "O'%"⟩] [⟨"age", true⟩] (some 10)
      (some 5)).text { semicolon := true }
    = "SELECT name, age AS years FROM users WHERE age > -25 AND name NOT LIKE 'O''%' "
      ++ "ORDER BY age DESC LIMIT 10 OFFSET 5;" := by
  decide +kernel

example : (createTable "t" [⟨"a", "INTEGER", false, true, .null⟩,
      ⟨"b", "TEXT", false, false, .text "x, y"⟩] (some "a") true).text { keyClause := true }
    = "CREATE TABLE IF NOT EXISTS t (a INTEGER, b TEXT NOT NULL DEFAULT 'x, y', "
      ++ "PRIMARY KEY(a))" := by
  decide +kernel

end Statement

end TableStore
