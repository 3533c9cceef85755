import TableStore.Statement
import TableStore.Statement.Recognizer

/-!
# Reading Definitions

The statements that change the catalog. A table is defined by a list of column
definitions; a column has a name, a type with an optional length that is
ignored, and constraints in any order. The primary key is named at its column
or in a clause of its own, and a table has at most one.

## Main definitions

* `Constraint`, `constraint?`: A constraint of a column.
* `readColumn`: A column definition.
* `keyColumn?`: The column of a primary key clause.
* `readCreateTable`, `dropTable?`, `createIndex?`, `dropIndex?`: The
  statements.
-/

namespace TableStore

/-- A constraint of a column. -/
inductive Constraint where
  | primaryKey
  | notNull
  | null
  | default (literal : List Cell)

/-- The text before the next blank, and the rest. -/
def untilBlank (s : List Cell) : List Cell × List Cell :=
  (s.takeWhile fun c => !c.isBlank, s.dropWhile fun c => !c.isBlank)

/-- The default that a text starts with. -/
def default? (s : List Cell) : Option (Constraint × List Cell) := do
  let s ← keyword? "DEFAULT" s
  let s ← blanks? s
  let (literal, rest) := untilBlank s
  if literal.isEmpty then none else some (.default literal, rest)

/-- A phrase that stands for a constraint and has to end at a blank or at the
    end of the text. -/
def constraintPhrase? (words : List String) (constraint : Constraint) (s : List Cell) :
    Option (Constraint × List Cell) := do
  let rest ← phrase? words s
  match rest with
  | [] => some (constraint, rest)
  | c :: _ => if c.isBlank then some (constraint, rest) else none

/-- The constraint that a text starts with, after blanks. -/
def constraint? (s : List Cell) : Option (Constraint × List Cell) := do
  let s ← blanks? s
  constraintPhrase? ["PRIMARY", "KEY"] .primaryKey s
    <|> constraintPhrase? ["NOT", "NULL"] .notNull s
    <|> constraintPhrase? ["NULL"] .null s
    <|> default? s

/-- A column with one more constraint. -/
def applyConstraint (column : Column) : Constraint → Except Fault Column
  | .primaryKey => .ok { column with primaryKey := true }
  | .notNull => .ok { column with nullable := false }
  | .null => .ok { column with nullable := true }
  | .default literal => do
    let v ← Value.ofLiteral (cellChars literal)
    .ok { column with default := v }

/-- A column with the constraints that a text consists of. Each constraint
    takes at least one character, so the length of the text is enough steps.
    The texts of the definition and of the statement are for the message. -/
def readConstraints (definition sql : String) :
    (steps : Nat) → Column → List Cell → Except Fault Column
  | 0, column, _ => .ok column
  | steps + 1, column, s =>
    if s.isEmpty then .ok column
    else
      match constraint? s with
      | none =>
        .error (.parse (.unsupportedConstraint (cellText (trimCells s)) definition sql))
      | some (constraint, rest) => do
        let column ← applyConstraint column constraint
        readConstraints definition sql steps column rest

/-- The text after the length in parentheses that a type may have. -/
def skipLength (s : List Cell) : List Cell :=
  match (mark? '(' (skipBlanks s)).bind untilClosing? with
  | some (_, rest) => rest
  | none => s

/-- The name and the type that a column definition starts with. -/
def nameAndType? (s : List Cell) : Option (String × String × List Cell) := do
  let (name, s) ← word? s
  let s ← blanks? s
  let (typeName, s) ← word? s
  some (name, typeName, skipLength s)

/-- A column definition. A primary key is never null. -/
def readColumn (sql : String) (definition : List Cell) : Except Fault Column :=
  match nameAndType? definition with
  | none => .error (.parse (.invalidColumnDefinition (cellText definition) sql))
  | some (name, typeName, rest) => do
    let column ← readConstraints (cellText definition) sql rest.length
      { name := name, typeName := canonicalTypeName typeName } rest
    .ok { column with nullable := column.nullable && !column.primaryKey }

/-- Whether a definition is a primary key clause. -/
def isKeyClause (definition : List Cell) : Bool :=
  match phrase? ["PRIMARY", "KEY"] definition with
  | some rest => atWordEnd rest
  | none => false

/-- The column of a primary key clause. -/
def keyColumn? (definition : List Cell) : Option String := do
  let s ← phrase? ["PRIMARY", "KEY"] definition
  let s ← mark? '(' (skipBlanks s)
  let (column, s) ← word? (skipBlanks s)
  let s ← mark? ')' (skipBlanks s)
  atEnd? s
  some column

/-- The columns of a list of definitions, and the column of its primary key
    clause. `clause` is the column of a clause that came before. -/
def readDefinitions (sql : String) :
    (clause : Option String) → List (List Cell) → Except Fault (List Column × Option String)
  | clause, [] => .ok ([], clause)
  | clause, definition :: rest =>
    if definition.isEmpty then .error (.parse (.emptyColumnDefinition sql))
    else if isKeyClause definition then
      match keyColumn? definition with
      | none => .error (.parse (.invalidPrimaryKeyClause (cellText definition) sql))
      | some column =>
        -- The clause may stand anywhere among the definitions, but only once.
        if clause.isSome then .error (.parse (.repeatedPrimaryKeyClause sql))
        else readDefinitions sql (some column) rest
    else do
      let column ← readColumn sql definition
      let (columns, clause) ← readDefinitions sql clause rest
      .ok (column :: columns, clause)

/-- A column marked as the primary key. -/
def markPrimaryKey (name : String) (column : Column) : Column :=
  if column.name = name then { column with primaryKey := true, nullable := false } else column

/-- The columns and the primary key that the columns' own marks and a primary
    key clause give. -/
def settlePrimaryKey (sql : String) (columns : List Column) (clause : Option String) :
    Except Fault (List Column × Option String) :=
  let names := columns.map Column.name
  let marked := (columns.filter Column.primaryKey).map Column.name
  if columns.isEmpty then .error (.parse (.noColumns sql))
  else if hasRepeats names then .error (.parse (.repeatedColumn sql))
  else if 1 < marked.length then .error (.parse (.multiplePrimaryKeys marked sql))
  else
    match clause with
    | none => .ok (columns, marked.head?)
    | some column =>
      if !names.contains column then .error (.parse (.undeclaredPrimaryKey column sql))
      else
        match marked.head? with
        -- A mark and a clause may both stand if they name the same column.
        | some other =>
          if other = column then .ok (columns.map (markPrimaryKey column), some column)
          else .error (.parse (.multiplePrimaryKeys [other, column] sql))
        | none => .ok (columns.map (markPrimaryKey column), some column)

/-- The parts of a table definition: whether the table may exist, its name,
    and the list in parentheses. -/
def createTableParts? (s : List Cell) : Option (Bool × String × List Cell) := do
  let s ← phrase? ["CREATE", "TABLE"] s
  let s ← blanks? s
  let (mayExist, s) := option? ["IF", "NOT", "EXISTS"] s
  let (table, s) ← word? s
  let s ← mark? '(' (skipBlanks s)
  let body ← enclosed? s
  some (mayExist, table, body)

/-- A table definition. -/
def readCreateTable (sql : String) (s : List Cell) : Except Fault Statement :=
  match createTableParts? s with
  | none => .error (.parse (.malformed .createTable sql))
  | some (mayExist, table, body) => do
    let definitions ← splitAtCommas body
    let (columns, clause) ← readDefinitions sql none definitions
    let (columns, primaryKey) ← settlePrimaryKey sql columns clause
    .ok (.createTable table columns primaryKey mayExist)

/-- The removal of a table. -/
def dropTable? (s : List Cell) : Option Statement := do
  let s ← phrase? ["DROP", "TABLE"] s
  let s ← blanks? s
  let (mayLack, s) := option? ["IF", "EXISTS"] s
  let (table, s) ← word? s
  atEnd? s
  some (.dropTable table mayLack)

/-- An index definition. -/
def createIndex? (s : List Cell) : Option Statement := do
  let s ← phrase? ["CREATE", "INDEX"] s
  let s ← blanks? s
  let (mayExist, s) := option? ["IF", "NOT", "EXISTS"] s
  let (index, s) ← word? s
  let s ← spacedPhrase? ["ON"] s
  let (table, s) ← word? s
  let s ← mark? '(' (skipBlanks s)
  let (column, s) ← word? (skipBlanks s)
  let s ← mark? ')' (skipBlanks s)
  atEnd? s
  some (.createIndex index table column mayExist)

/-- The removal of an index. -/
def dropIndex? (s : List Cell) : Option Statement := do
  let s ← phrase? ["DROP", "INDEX"] s
  let s ← blanks? s
  let (mayLack, s) := option? ["IF", "EXISTS"] s
  let (index, s) ← word? s
  let s ← spacedPhrase? ["ON"] s
  let (table, s) ← word? s
  atEnd? s
  some (.dropIndex index table mayLack)

/-- A statement that is read as a whole or is malformed. -/
def readWhole (kind : StatementKind) (sql : String) (found : Option Statement) :
    Except Fault Statement :=
  match found with
  | some statement => .ok statement
  | none => .error (.parse (.malformed kind sql))

end TableStore
