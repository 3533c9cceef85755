import TableStore.Statement.Definition
import TableStore.Statement.Manipulation

/-!
# Reading Statements

A statement is known by its first one or two words in any case. Blanks around
it and one semicolon at its end do not count.

## Main definitions

* `Statement.kindOf?`: The kind of statement that words begin.
* `Statement.ofText`: The statement that a text is.
-/

namespace TableStore

namespace Statement

/-- The kind of statement that begins with the given words in capitals. -/
def kindOf? (words : List String) : Option StatementKind :=
  match words with
  | [] => none
  | first :: rest =>
    let second := rest.head?.getD ""
    if first = "CREATE" && second = "TABLE" then some .createTable
    else if first = "CREATE" && second = "INDEX" then some .createIndex
    else if first = "DROP" && second = "TABLE" then some .dropTable
    else if first = "DROP" && second = "INDEX" then some .dropIndex
    else if first = "INSERT" then some .insert
    else if first = "SELECT" then some .select
    else if first = "UPDATE" then some .update
    else if first = "DELETE" then some .delete
    else none

/-- The first two words of a statement in capitals. -/
def leadingWords (s : List Cell) : List String :=
  ((Text.splitWords (s.map Cell.visible)).take 2).map fun word =>
    String.ofList (Text.toUpper word)

/-- The statement of a kind that a text is. -/
def readAs (kind : StatementKind) (sql : String) (s : List Cell) : Except Fault Statement :=
  match kind with
  | .createTable => readCreateTable sql s
  | .dropTable => readWhole kind sql (dropTable? s)
  | .createIndex => readWhole kind sql (createIndex? s)
  | .dropIndex => readWhole kind sql (dropIndex? s)
  | .insert => readInsert sql s
  | .select => readSelect sql s
  | .update => readUpdate sql s
  | .delete => readDelete sql s

/-- The statement that a text without outer blanks and without a semicolon at
    its end is. -/
def ofChars (s : List Char) : Except Fault Statement :=
  let sql := String.ofList s
  match hideLiterals s with
  | none => .error (.parse (.unterminatedLiteral sql))
  | some cells =>
    match kindOf? (leadingWords cells) with
    | none => .error (.parse (.unsupportedStatement sql))
    | some kind => readAs kind sql cells

/-- The text without a semicolon at its end. -/
def dropSemicolon (s : List Char) : List Char :=
  if s.getLast? = some ';' then Text.trimEnd Text.isBlank s.dropLast else s

/-- The statement that a text is. -/
def ofText (sql : Option String) : Except Fault Statement :=
  match sql with
  | none => .error (.parse (.emptyStatement none))
  | some text =>
    let s := Text.trimBlanks text.toList
    if s.isEmpty then .error (.parse (.emptyStatement (some text)))
    else
      let s := dropSemicolon s
      if s.isEmpty then .error (.parse (.emptyStatement (some ""))) else ofChars s

end Statement

end TableStore
