import TableStore.Json.Printer
import TableStore.Row
import TableStore.Value.Compare

/-!
# Stored Names

Statements name tables, columns and indexes by texts, and that is what they
store. What is read back from the store is not checked, though: in place of a
name there may be any JSON value. Such a value is carried along, and it serves
as a name as far as it can.

An array or an object cannot be looked up, so it names nothing. Every other
value is a name. Two names are the same if they are equal as values, where a
truth value counts as one or zero; a text is the same as no other kind of
value, so a name that is not a text is out of the reach of statements. A value
that is stored under a name is stored under the text of the name in JSON, and
that is where the difference between names can get lost.

## Main definitions

* `NameKey`: What tells one name from another.
* `Json.nameKey?`: The key of a JSON value that is a name.
* `Json.memberName`: The text that values are stored under.
* `Json.nameText`: The text of a name in messages.
* `Fields`: Values by stored names.
-/

namespace TableStore

/-- What tells one stored name from another. -/
inductive NameKey where
  | null
  | number (q : Quantity)
  | text (s : String)
  deriving DecidableEq

namespace Json

/-- The key of a JSON value that is a name. -/
def nameKey? : Json → Option NameKey
  | null => some .null
  | bool b => some (.number (.rational b.toInt))
  | int n => some (.number (.rational n))
  | float d => some (.number (.ofDouble d))
  | string s => some (.text s)
  | array _ => none
  | object _ => none

/-- The key of a JSON value that has to be a name. -/
def requireKey (name : Json) : Except Fault NameKey :=
  match name.nameKey? with
  | some key => .ok key
  | none => .error .misfitMember

/-- The text that a JSON value has to be. -/
def requireText : Json → Except Fault String
  | string s => .ok s
  | _ => .error .misfitMember

/-- The text that values are stored under if they have the name. -/
def memberName : Json → String
  | string s => s
  | name => name.toText .spaced

/-- The text of a name in messages. -/
def nameText (name : Json) : String :=
  (Value.ofPlain name).toText

/-- Whether two names can be ordered. -/
def isOrderedWith (a b : Json) : Bool :=
  match a.nameKey?, b.nameKey? with
  | some (.text _), some (.text _) => true
  | some (.number _), some (.number _) => true
  | _, _ => false

/-- Whether one name comes before another. Names are ordered as texts or as
    numbers. -/
def isBefore (a b : Json) : Bool :=
  match a.nameKey?, b.nameKey? with
  | some (.text a), some (.text b) => decide (a < b)
  | some (.number x), some (.number y) => x.below y
  | _, _ => false

end Json

/-- Values by stored names, in the order in which the names were first given. -/
abbrev Fields (α : Type) := List (Json × α)

namespace Fields

/-- The value under the name with a key. -/
def get? {α : Type} : Fields α → NameKey → Option α
  | [], _ => none
  | (name, a) :: rest, key => if name.nameKey? = some key then some a else get? rest key

/-- The fields with a value given anew, in its place if there is one under the
    same name and at the end if there is none. -/
def set {α : Type} : Fields α → Json → NameKey → α → Fields α
  | [], name, _, a => [(name, a)]
  | (other, b) :: rest, name, key, a =>
    if other.nameKey? = some key then (other, a) :: rest
    else (other, b) :: set rest name key a

/-- The value under a name, if there is one. -/
def find {α : Type} (fields : Fields α) (name : Json) : Except Fault (Option α) := do
  let key ← name.requireKey
  .ok (fields.get? key)

/-- The fields with a value given under a name. -/
def give {α : Type} (fields : Fields α) (name : Json) (a : α) : Except Fault (Fields α) := do
  let key ← name.requireKey
  .ok (fields.set name key a)

/-- The fields that giving each pair in turn leaves. -/
def ofList {α : Type} (pairs : List (Json × α)) : Except Fault (Fields α) :=
  pairs.foldlM (fun fields pair => fields.give pair.1 pair.2) []

/-- The names of the fields in order. -/
def names {α : Type} (fields : Fields α) : List Json :=
  fields.map Prod.fst

/-- The members under which the fields are stored. -/
def toMembers {α : Type} (fields : Fields α) : Members α :=
  fields.map fun field => (field.1.memberName, field.2)

end Fields

/-- The value of the column with a stored name. A row is stored under texts, so
    it has no value for another name. -/
def Row.valueOf (row : Row) (name : Json) : Except Fault Value :=
  match name with
  | .string column => .ok (Row.value row column)
  | name => do
    let _ ← name.requireKey
    .ok .null

end TableStore
