import TableStore.Statement
import TableStore.Statement.Recognizer

/-!
# Reading Conditions

A condition clause is a list of comparisons joined by AND. Each comparison is
a column, an operator and one literal. The words OR and NOT and parentheses are
refused wherever they stand outside a literal, with the exception of NOT
LIKE.

A column name and the word LIKE may run together if no blank separates them;
the name is then the longest one that leaves an operator.

## Main definitions

* `containsWord`: Whether a whole word occurs.
* `splitAtAnd`: The comparisons of a clause.
* `operators`: The operators that a text starts with.
* `readCondition`: One comparison.
* `readWhere`: A condition clause.
-/

namespace TableStore

/-- Whether a keyword occurs as a whole word and is not followed by text that
    `excuse` accepts. `inWord` says whether the text before ends in a word. -/
def containsWord (w : String) (excuse : List Cell → Bool) : (inWord : Bool) → List Cell → Bool
  | _, [] => false
  | inWord, c :: s =>
    let here :=
      match keyword? w (c :: s) with
      | some rest => !inWord && atWordEnd rest && !excuse rest
      | none => false
    here || containsWord w excuse c.isWordChar s

/-- Whether a text continues with the word LIKE. -/
def continuesWithLike (s : List Cell) : Bool :=
  match (blanks? s).bind (keyword? "LIKE") with
  | some rest => atWordEnd rest
  | none => false

/-- The length of the word AND with its blanks, if the text starts with
    these. -/
def andLength? (s : List Cell) : Option Nat :=
  (spacedPhrase? ["AND"] s).map fun rest => s.length - rest.length

/-- The pieces between the words AND. `skip` characters still belong to one of
    these. -/
def splitAtAnd : (skip : Nat) → List Cell → List (List Cell)
  | _, [] => [[]]
  | skip + 1, _ :: s => splitAtAnd skip s
  | 0, c :: s =>
    match andLength? (c :: s) with
    | some n => [] :: splitAtAnd (n - 1) s
    | none => Text.consWord c (splitAtAnd 0 s)

/-- An operator of special characters that a text starts with. -/
def symbolOperator? (symbol : String) (operator : ComparisonOperator) (s : List Cell) :
    Option (ComparisonOperator × List Cell) :=
  (keyword? symbol s).map fun rest => (operator, rest)

/-- An operator of words that a text starts with. A blank or a single quote has
    to follow. The operator is known by its words in capitals. -/
def wordOperator? (words : List String) (s : List Cell) :
    Option (ComparisonOperator × List Cell) := do
  let rest ← phrase? words s
  match rest with
  | [] => none
  | c :: _ =>
    if c.isBlank || c.shows '\'' then
      let written := (s.take (s.length - rest.length)).map Cell.visible
      let capitals := Text.splitWords (Text.toUpper written)
      some (.ofSymbol (String.intercalate " " (capitals.map String.ofList)), rest)
    else none

/-- The operators that a text starts with, in the order in which they are
    tried, each with the text after it. -/
def operators (s : List Cell) : List (ComparisonOperator × List Cell) :=
  [symbolOperator? "<>" .notEqual s, symbolOperator? "!=" .notEqual s,
    symbolOperator? ">=" .greaterOrEqual s, symbolOperator? "<=" .lessOrEqual s,
    symbolOperator? "=" .equal s, symbolOperator? ">" .greater s, symbolOperator? "<" .less s,
    wordOperator? ["NOT", "LIKE"] s, wordOperator? ["LIKE"] s].filterMap id

/-- The first operator that leaves a literal, and the literal. -/
def operatorAndLiteral? (s : List Cell) : Option (ComparisonOperator × List Cell) :=
  (operators s).findSome? fun (operator, rest) =>
    let literal := skipBlanks rest
    if literal.isEmpty then none else some (operator, literal)

/-- The column, the operator and the literal of a comparison. -/
def comparison? (s : List Cell) : Option (String × ComparisonOperator × List Cell) :=
  someWordSplit? (fun column rest =>
    (operatorAndLiteral? (skipBlanks rest)).map fun (operator, literal) =>
      (column, operator, literal)) s

/-- The text after the next occurrence of a character. -/
def afterNext (a : Char) : List Cell → List Cell
  | [] => []
  | c :: s => if c.shows a then s else afterNext a s

/-- Whether text follows the literal that a piece starts with: after the
    closing quote, or after the first word. -/
def hasTextAfterLiteral : List Cell → Bool
  | [] => false
  | c :: s =>
    if isQuote c.visible then !(skipBlanks (afterNext c.visible s)).isEmpty
    else 1 < (Text.splitRuns Cell.isBlank (c :: s)).length

/-- One comparison. The text of the whole clause is for the message. -/
def readCondition (clause : String) (piece : List Cell) : Except Fault Condition :=
  match comparison? piece with
  | none => .error (.parse (.invalidCondition (cellText piece) clause))
  | some (column, operator, literal) =>
    if hasTextAfterLiteral (trimCells literal) then
      .error (.parse (.textAfterLiteral (cellText piece) clause))
    else do
      let v ← Value.ofLiteral (cellChars literal)
      .ok ⟨column, operator, v⟩

/-- A condition clause. -/
def readWhere (s : List Cell) : Except Fault (List Condition) :=
  let clause := cellText s
  if containsWord "OR" (fun _ => false) false s then .error (.parse (.disjunction clause))
  else if s.any fun c => c.shows '(' || c.shows ')' then .error (.parse (.parentheses clause))
  else if containsWord "NOT" continuesWithLike false s then .error (.parse (.negation clause))
  else ((splitAtAnd 0 s).map trimCells).mapM (readCondition clause)

/-- The conditions of a clause that may be absent. -/
def readOptionalWhere : Option (List Cell) → Except Fault (List Condition)
  | none => .ok []
  | some s => readWhere s

end TableStore
