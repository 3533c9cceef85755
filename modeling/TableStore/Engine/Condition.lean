import TableStore.Statement
import TableStore.Value.Compare
import TableStore.Value.Pattern

/-!
# Evaluating Conditions

Whether a row satisfies conditions. Null equals only null, and a comparison
with null that is not about equality fails, except that null is not like
anything. A value and a literal of different classes are unequal and in no
order.

Every condition of a clause is evaluated even after one has failed, so an
operator that orders nothing is reported whenever the values could have been
ordered.

## Main definitions

* `ComparisonOperator.holds`: Whether a comparison of two values holds.
* `satisfies`: Whether a row satisfies all conditions.
* `bindConditions`: Conditions with their literals in the form of the columns.
-/

namespace TableStore

/-- Whether an operator accepts the order of two values. -/
def ComparisonOperator.accepts (op : ComparisonOperator) (order : Ordering) : Except Fault Bool :=
  match op with
  | greater => .ok (order == .gt)
  | greaterOrEqual => .ok (order != .lt)
  | less => .ok (order == .lt)
  | lessOrEqual => .ok (order != .gt)
  | op => .error (.unknownOperator op.symbol)

/-- Whether a value matches a pattern, where null neither matches nor is
    matched. -/
def matchesLike (v pattern : Value) : Except Fault Bool :=
  if v.isNull || pattern.isNull then .ok false else v.like pattern

/-- Whether the comparison of a value with a literal holds. -/
def ComparisonOperator.holds (op : ComparisonOperator) (v literal : Value) : Except Fault Bool :=
  match op with
  | equal => .ok (v.equals literal)
  | notEqual => .ok (!v.equals literal)
  | like => matchesLike v literal
  | notLike => do
    let matched ← matchesLike v literal
    .ok !matched
  | op =>
    match v.compare? literal with
    | some order => op.accepts order
    -- Between values without an order no comparison holds, and none fails.
    | none => .ok false

/-- Whether a row satisfies all conditions. -/
def satisfies (row : Row) : List Condition → Except Fault Bool
  | [] => .ok true
  | condition :: rest => do
    let here ← condition.operator.holds (Row.value row condition.column) condition.value
    let others ← satisfies row rest
    .ok (here && others)

/-- A condition with its literal in the form of the column, unless the column
    is unknown, the operator matches patterns or the literal does not fit. -/
def bindCondition (schema : StoredSchema) (condition : Condition) : Except Fault Condition :=
  match schema.column? condition.column with
  | none => .ok condition
  | some column =>
    if condition.operator.isPattern then .ok condition
    else do
      let v ← column.tryCoerce condition.value
      .ok { condition with value := v }

/-- Conditions with their literals in the form of the columns. -/
def bindConditions (schema : StoredSchema) (conditions : List Condition) :
    Except Fault (List Condition) :=
  conditions.mapM (bindCondition schema)

end TableStore
