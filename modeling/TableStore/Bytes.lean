/-!
# Byte Strings

Keys and values of the store are finite sequences of bytes. They are kept as
lists, so that the order of keys is the lexicographic order of lists and a key
carries a prefix exactly when the list does.

## Main definitions

* `Bytes`: A byte string.
* `Bytes.carries`: Whether a byte string starts with another.
-/

namespace TableStore

/-- A byte string. -/
abbrev Bytes := List UInt8

namespace Bytes

/-- Whether `key` starts with `start`. -/
def carries (start key : Bytes) : Bool :=
  start.isPrefixOf key

end Bytes

end TableStore
