import TableStore.Fault

/-!
# Values in Index Keys

The bytes that stand for a value in the key of an index entry. Equal values
have equal bytes: a float without a fraction is written as the integer it is,
so that both kinds of number share one form, while a tag keeps truth values,
numbers, bytes and text apart. An array or an object stands under its text.

## Main definitions

* `encodeIndexValue`: The bytes of a value that is not null.
-/

namespace TableStore

namespace Key

/-- The bytes of an integer. -/
def encodeInteger (n : Int) : Bytes :=
  Text.encode "n:" ++ Text.encode (toString n)

/-- The bytes of a value in the key of an index entry. -/
def encodeIndexValue : Value → Except Fault Bytes
  | .null => .error .nullInIndex
  | .bool b => .ok (Text.encode (if b then "b:1" else "b:0"))
  | .int n =>
    if Text.withinDigitLimit n then .ok (encodeInteger n) else .error .digitLimit
  | .float d =>
    match d.toInt? with
    -- A float without a fraction has the bytes of the integer that it equals.
    | some n => .ok (encodeInteger n)
    | none => .ok (Text.encode "n:" ++ Text.encode d.text)
  | .bytes b => .ok (Text.encode "x:" ++ b)
  | .text s => .ok (Text.encode "s:" ++ Text.encode s)
  | v =>
    if v.hasText then .ok (Text.encode "s:" ++ Text.encode v.toText) else .error .digitLimit

end Key

end TableStore
