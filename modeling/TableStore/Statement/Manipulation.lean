import TableStore.Statement.Where

/-!
# Reading Queries and Changes

The statements that read and change rows. A query names its items, its table
and up to four more clauses in a fixed order; each clause runs up to the first
place where the clauses after it can be read to the end of the statement.

An assignment is either a literal or the assigned column plus or minus a
number; any other sum is refused.

## Main definitions

* `SelectParts`, `selectParts?`: The clauses of a query.
* `readInsert`, `readSelect`, `readUpdate`, `readDelete`: The statements.
-/

namespace TableStore

/-- The list in parentheses that a text may start with, and the text after it
    and after blanks. -/
def columnList (s : List Cell) : Option (List Cell) × List Cell :=
  match (mark? '(' s).bind untilClosing? with
  | some (names, rest) => (some names, skipBlanks rest)
  | none => (none, s)

/-- The column list and the values of an insertion, read after the name of its
    table. -/
def insertLists? (s : List Cell) : Option (Option (List Cell) × List Cell) := do
  let (columns, s) := columnList (skipBlanks s)
  let s ← keyword? "VALUES" s
  let s ← mark? '(' (skipBlanks s)
  let values ← enclosed? s
  some (columns, values)

/-- The table, the column list and the values of an insertion. -/
def insertParts? (s : List Cell) : Option (String × Option (List Cell) × List Cell) := do
  let s ← phrase? ["INSERT", "INTO"] s
  let s ← blanks? s
  someWordSplit? (fun table rest =>
    (insertLists? rest).map fun (columns, values) => (table, columns, values)) s

/-- The pieces of a list of names, without outer blanks. -/
def nameList : List Cell → List (List Cell)
  | [] => [[]]
  | c :: s => if c.shows ',' then [] :: nameList s else Text.consWord c (nameList s)

/-- The names of a column list. -/
def readNames (list : List Cell) : Except Fault (List String) :=
  ((nameList list).map trimCells).mapM fun name =>
    if !name.isEmpty && name.all Cell.isWordChar then .ok (visibleText name)
    else .error (.parse (.invalidColumnName (visibleText name) (visibleText list)))

/-- The columns of an insertion, each of which is named once. -/
def readInsertColumns (sql : String) : Option (List Cell) → Except Fault (Option (List String))
  | none => .ok none
  | some list => do
    let names ← readNames list
    if hasRepeats names then .error (.parse (.repeatedInsertColumn sql)) else .ok (some names)

/-- The values of an insertion. -/
def readValues (list : List Cell) : Except Fault (List Value) := do
  if (trimCells list).isEmpty then .error (.parse (.noValues (cellText list)))
  else
    let pieces ← splitAtCommas list
    if pieces.any List.isEmpty then .error (.parse (.emptyValue (cellText list)))
    else pieces.mapM fun piece => Value.ofLiteral (cellChars piece)

/-- An insertion. -/
def readInsert (sql : String) (s : List Cell) : Except Fault Statement :=
  match insertParts? s with
  | none => .error (.parse (.malformed .insert sql))
  | some (table, columns, values) => do
    let columns ← readInsertColumns sql columns
    let values ← readValues values
    .ok (.insert table columns values)

/-- The clauses of a query. -/
structure SelectParts where
  items : List Cell
  table : String
  conditions : Option (List Cell)
  order : Option (List Cell)
  limit : Option (List Nat)
  offset : Option (List Nat)

/-- The number of a clause that may be absent, and the text after it. -/
def count? (w : String) (s : List Cell) : Option (List Nat) × List Cell :=
  match (spacedPhrase? [w] s).bind digits? with
  | some (digits, rest) => (some digits, rest)
  | none => (none, s)

/-- The limit and the offset of a query, up to the end of the text. -/
def counts? (s : List Cell) : Option (Option (List Nat) × Option (List Nat)) := do
  let (limit, s) := count? "LIMIT" s
  let (offset, s) := count? "OFFSET" s
  atEnd? s
  some (limit, offset)

/-- The order clause and the clauses after it, up to the end of the text. -/
def orderAndCounts? (s : List Cell) :
    Option (Option (List Cell) × Option (List Nat) × Option (List Nat)) :=
  match (spacedPhrase? ["ORDER", "BY"] s).bind (shortestPrefix? counts?) with
  | some (order, rest) => some (some order, rest)
  | none => (counts? s).map fun rest => (none, rest)

/-- The condition clause and the clauses after it, up to the end of the
    text. -/
def clauses? (s : List Cell) :
    Option (Option (List Cell) × Option (List Cell) × Option (List Nat) × Option (List Nat)) :=
  match (spacedPhrase? ["WHERE"] s).bind (shortestPrefix? orderAndCounts?) with
  | some (conditions, rest) => some (some conditions, rest)
  | none => (orderAndCounts? s).map fun rest => (none, rest)

/-- The part of a query from the word FROM on. -/
def fromTable? (s : List Cell) : Option SelectParts := do
  let s ← spacedPhrase? ["FROM"] s
  let (table, s) ← word? s
  let (conditions, order, limit, offset) ← clauses? s
  some ⟨[], table, conditions, order, limit, offset⟩

/-- The clauses of a query. The items start after the blanks that follow the
    word SELECT, or, if the query cannot be read that way, among these
    blanks. -/
def selectParts? (s : List Cell) : Option SelectParts := do
  let s ← phrase? ["SELECT"] s
  let blanks := (s.takeWhile Cell.isBlank).length
  (List.range blanks).findSome? fun i =>
    (shortestPrefix? fromTable? (s.drop (blanks - i))).map fun (items, parts) =>
      { parts with items := items }

/-- A column that a query returns. -/
def selectItem? (s : List Cell) : Option SelectItem := do
  let (column, s) ← word? s
  if s.isEmpty then some ⟨column, none⟩
  else
    let s ← spacedPhrase? ["AS"] s
    let (label, s) ← word? s
    if s.isEmpty then some ⟨column, some label⟩ else none

/-- The items of a query; there are none if it asks for all columns. -/
def readItems (sql : String) (list : List Cell) : Except Fault (List SelectItem) := do
  if visibleText (trimCells list) == "*" then .ok []
  else
    let pieces ← splitAtCommas list
    pieces.mapM fun piece =>
      match selectItem? piece with
      | some item => .ok item
      | none => .error (.parse (.unsupportedSelectItem (cellText piece) sql))

/-- A column that a query sorts by. -/
def orderItem? (s : List Cell) : Option OrderItem := do
  let (column, s) ← word? s
  if s.isEmpty then some ⟨column, false⟩
  else
    let s ← blanks? s
    if (keyword? "ASC" s).any List.isEmpty then some ⟨column, false⟩
    else if (keyword? "DESC" s).any List.isEmpty then some ⟨column, true⟩
    else none

/-- The columns that a query sorts by. -/
def readOrder (sql : String) : Option (List Cell) → Except Fault (List OrderItem)
  | none => .ok []
  | some list => do
    let pieces ← splitAtCommas list
    pieces.mapM fun piece =>
      match orderItem? piece with
      | some item => .ok item
      | none => .error (.parse (.invalidOrderItem (cellText piece) sql))

/-- The number of a limit or an offset. -/
def readCount : Option (List Nat) → Except Fault (Option Nat)
  | none => .ok none
  | some digits => (integerOf false digits).map fun n => some n.toNat

/-- A query. -/
def readSelect (sql : String) (s : List Cell) : Except Fault Statement :=
  match selectParts? s with
  | none => .error (.parse (.malformed .select sql))
  | some parts => do
    let items ← readItems sql parts.items
    let conditions ← readOptionalWhere parts.conditions
    let order ← readOrder sql parts.order
    let limit ← readCount parts.limit
    let offset ← readCount parts.offset
    .ok (.select parts.table items conditions order limit offset)

/-- The condition clause that a text consists of. -/
def whereClause? (s : List Cell) : Option (List Cell) := do
  let s ← spacedPhrase? ["WHERE"] s
  if s.isEmpty then none else some s

/-- A clause that runs up to the condition clause or to the end of the
    text. -/
def upToWhere? (s : List Cell) : Option (List Cell × Option (List Cell)) :=
  match shortestPrefix? whereClause? s with
  | some (clause, conditions) => some (clause, some conditions)
  | none => if s.isEmpty then none else some (s, none)

/-- The table, the assignments and the conditions of a change. -/
def updateParts? (s : List Cell) : Option (String × List Cell × Option (List Cell)) := do
  let s ← phrase? ["UPDATE"] s
  let s ← blanks? s
  let (table, s) ← word? s
  let s ← spacedPhrase? ["SET"] s
  let (assignments, conditions) ← upToWhere? s
  some (table, assignments, conditions)

/-- The column and the expression of an assignment. -/
def assignmentParts? (s : List Cell) : Option (String × List Cell) := do
  let (column, s) ← word? s
  let s ← mark? '=' (skipBlanks s)
  let expression := skipBlanks s
  if expression.isEmpty then none else some (column, expression)

/-- The arithmetic that a sign stands for. -/
def arithmetic? : List Cell → Option (Arithmetic × List Cell)
  | [] => none
  | c :: s =>
    if c.shows '+' then some (.plus, s) else if c.shows '-' then some (.minus, s) else none

/-- The text after the places of a number, which may be absent. -/
def skipPlaces (s : List Cell) : List Cell :=
  match (mark? '.' s).bind digits? with
  | some (_, rest) => rest
  | none => s

/-- Whether a text is a number with an optional sign and optional places. -/
def isNumber (s : List Cell) : Bool :=
  let unsigned :=
    match arithmetic? s with
    | some (_, rest) => rest
    | none => s
  match digits? unsigned with
  | some (_, rest) => (skipPlaces rest).isEmpty
  | none => false

/-- The column, the sign and the number of a sum. -/
def sumParts? (s : List Cell) : Option (String × Arithmetic × List Cell) := do
  let (column, s) ← word? s
  let (sign, s) ← arithmetic? (skipBlanks s)
  let number := skipBlanks s
  if isNumber number then some (column, sign, number) else none

/-- The assignment of an expression to a column. -/
def readExpression (sql column : String) (expression : List Cell) : Except Fault Assignment :=
  match sumParts? expression with
  | some (name, sign, number) =>
    if name = column then do
      let v ← Value.ofLiteral (cellChars number)
      .ok ⟨column, v, some sign⟩
    else .error (.parse (.foreignArithmetic column (cellText expression) sql))
  | none => do
    let v ← Value.ofLiteral (cellChars expression)
    .ok ⟨column, v, none⟩

/-- The assignments in a list of pieces. No column may be assigned that is in
    `seen`. -/
def readAssignments (sql : String) :
    (seen : List String) → List (List Cell) → Except Fault (List Assignment)
  | _, [] => .ok []
  | seen, piece :: rest =>
    match assignmentParts? piece with
    | none => .error (.parse (.invalidAssignment (cellText piece) sql))
    | some (column, expression) =>
      if seen.contains column then .error (.parse (.repeatedAssignment column sql))
      else do
        let assignment ← readExpression sql column (trimCells expression)
        let assignments ← readAssignments sql (column :: seen) rest
        .ok (assignment :: assignments)

/-- A change of rows. -/
def readUpdate (sql : String) (s : List Cell) : Except Fault Statement :=
  match updateParts? s with
  | none => .error (.parse (.malformed .update sql))
  | some (table, list, conditions) => do
    let pieces ← splitAtCommas list
    let assignments ← readAssignments sql [] pieces
    let conditions ← readOptionalWhere conditions
    .ok (.update table assignments conditions)

/-- The table and the conditions of a removal of rows. -/
def deleteParts? (s : List Cell) : Option (String × Option (List Cell)) := do
  let s ← phrase? ["DELETE", "FROM"] s
  let s ← blanks? s
  let (table, s) ← word? s
  match whereClause? s with
  | some conditions => some (table, some conditions)
  | none => if (skipBlanks s).isEmpty then some (table, none) else none

/-- A removal of rows. -/
def readDelete (sql : String) (s : List Cell) : Except Fault Statement :=
  match deleteParts? s with
  | none => .error (.parse (.malformed .delete sql))
  | some (table, conditions) => do
    let conditions ← readOptionalWhere conditions
    .ok (.delete table conditions)

end TableStore
