import TableStore.Fault

/-!
# Key Components

A key is put together from components that may hold any bytes, so each one is
written with its length in front, as four bytes with the most significant one
first. Reading a component therefore never looks for an end mark, and a shorter
component always sorts before a longer one. A component whose length takes
more than four bytes has no place in a key.

## Main definitions

* `encodeComponent`: A component with its length in front.
* `fits`, `ofComponents`: Whether a component has a place in a key, and the
  key of components that all have one.
* `splitComponent`: The component that a byte string starts with, and the
  rest.
* `decodeComponent`: The component at an offset, and the offset after it.
* `decodeComponentFrom`: The same for an offset that may count from the end.
-/

namespace TableStore

namespace Key

/-- A length as four bytes, the most significant one first. -/
def encodeLength (n : Nat) : Bytes :=
  [UInt8.ofNat (n / 16777216), UInt8.ofNat (n / 65536), UInt8.ofNat (n / 256), UInt8.ofNat n]

/-- A component with its length in front. -/
def encodeComponent (data : Bytes) : Bytes :=
  encodeLength data.length ++ data

/-- The length of the shortest component that has no place in a key. -/
def componentLimit : Nat := 4294967296

/-- Whether a component has a place in a key. -/
def fits (data : Bytes) : Bool :=
  decide (data.length < componentLimit)

/-- A key that holds components, unless one of them has no place in it. -/
def ofComponents (components : List Bytes) (key : Bytes) : Except Fault Bytes :=
  if components.all fits then .ok key else .error .componentTooLong

/-- The component of a text. -/
def encodeName (name : String) : Bytes :=
  encodeComponent (Text.encode name)

/-- The length that four bytes stand for. -/
def decodeLength (a b c d : UInt8) : Nat :=
  ((a.toNat * 256 + b.toNat) * 256 + c.toNat) * 256 + d.toNat

/-- The component that a byte string starts with, and the rest. -/
def splitComponent : Bytes → Option (Bytes × Bytes)
  | a :: b :: c :: d :: s =>
    let length := decodeLength a b c d
    if length ≤ s.length then some (s.take length, s.drop length) else none
  | _ => none

/-- The component at an offset of a byte string, and the offset after it. -/
def decodeComponent (data : Bytes) (offset : Nat) : Except Fault (Bytes × Nat) :=
  match splitComponent (data.drop offset) with
  | some (component, _) => .ok (component, offset + 4 + component.length)
  | none => .error (.truncatedComponent offset)

/-- The bytes between two positions, either of which counts from the end if it
    is below zero. -/
def slice (data : Bytes) (start stop : Int) : Bytes :=
  let position (i : Int) : Nat := if i < 0 then (i + data.length).toNat else i.toNat
  (data.take (position stop)).drop (position start)

/-- The component at an offset of a byte string, and the offset after it. An
    offset below zero counts from the end, and the offset after the component
    goes on from it; the component is what lies between the two. -/
def decodeComponentFrom (data : Bytes) (offset : Int) : Except Fault (Bytes × Int) :=
  let size : Int := data.length
  if 0 ≤ offset then
    (decodeComponent data offset.toNat).map fun found => (found.1, (found.2 : Int))
  else if size < offset + 4 then .error (.truncatedComponent offset)
  -- The length has to lie before the end as a whole, and not before the start.
  else if 0 < offset + 4 || offset + size < 0 then .error .offsetOutOfRange
  else
    match data.drop (offset + size).toNat with
    | a :: b :: c :: d :: _ =>
      let stop := offset + 4 + decodeLength a b c d
      if size < stop then .error (.truncatedComponent offset)
      else .ok (slice data (offset + 4) stop, stop)
    | _ => .error .offsetOutOfRange

end Key

end TableStore
