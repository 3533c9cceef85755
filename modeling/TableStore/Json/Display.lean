import TableStore.Double.Decimal
import TableStore.Json
import TableStore.Text.Digit
import TableStore.Text.Quoted

/-!
# JSON Values in Messages

A value that is nested in a row is shown to the user in the notation of
messages, which differs from JSON: the three words of JSON start with a
capital, text is quoted as messages quote it, and a blank follows each comma
and colon.

## Main definitions

* `Json.shown`: The text of a JSON value in messages.
* `Json.hasText`: Whether the value has a text.
-/

namespace TableStore

namespace Json

mutual

/-- The text of a JSON value in messages. -/
def shown : Json → List Char
  | null => "None".toList
  | bool b => (if b then "True" else "False").toList
  | int n => (toString n).toList
  | float d => d.text.toList
  | string s => (Text.quoteText s).toList
  | array [] => ['[', ']']
  | array (item :: items) => '[' :: shown item ++ shownItems items ++ [']']
  | object [] => ['{', '}']
  | object ((name, item) :: members) =>
    '{' :: (Text.quoteText name).toList ++ ':' :: ' ' :: shown item
      ++ shownMembers members ++ ['}']

/-- The items of an array after the first, each with a comma before it. -/
def shownItems : List Json → List Char
  | [] => []
  | item :: items => ',' :: ' ' :: shown item ++ shownItems items

/-- The members of an object after the first, each with a comma before it. -/
def shownMembers : List (String × Json) → List Char
  | [] => []
  | (name, item) :: members =>
    ',' :: ' ' :: (Text.quoteText name).toList ++ ':' :: ' ' :: shown item
      ++ shownMembers members

end

mutual

/-- Whether the value has a text, which it has not if there is an integer
    beyond the digit limit in it. -/
def hasText : Json → Bool
  | int n => Text.withinDigitLimit n
  | array items => itemsHaveText items
  | object members => membersHaveText members
  | _ => true

/-- Whether all items of an array have a text. -/
def itemsHaveText : List Json → Bool
  | [] => true
  | item :: items => hasText item && itemsHaveText items

/-- Whether all members of an object have a text. -/
def membersHaveText : List (String × Json) → Bool
  | [] => true
  | (_, item) :: members => hasText item && membersHaveText members

end

end Json

end TableStore
