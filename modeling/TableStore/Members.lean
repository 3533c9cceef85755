/-!
# Ordered Members

A row, a JSON object and a set of settings are all lists of named members. A
name occurs once, and the members keep the order in which their names were
first given: giving a name again replaces the value where it stands.

## Main definitions

* `Members`: Named members in order.
* `Members.get?`: The member of a name.
* `Members.set`: The members with one given anew.
* `Members.ofList`: The members that a sequence of assignments leaves.
-/

namespace TableStore

/-- Named members in the order in which the names were first given. -/
abbrev Members (α : Type) := List (String × α)

namespace Members

/-- The member of a name. -/
def get? {α : Type} : Members α → String → Option α
  | [], _ => none
  | (key, a) :: rest, name => if key = name then some a else get? rest name

/-- The members with the one of a name given anew, in its place if the name
    is there and at the end if it is not. -/
def set {α : Type} : Members α → String → α → Members α
  | [], name, a => [(name, a)]
  | (key, b) :: rest, name, a =>
    if key = name then (key, a) :: rest else (key, b) :: set rest name a

/-- The members that giving each pair in turn leaves. -/
def ofList {α : Type} (pairs : List (String × α)) : Members α :=
  pairs.foldl (fun members pair => set members pair.1 pair.2) []

/-- The names of the members in order. -/
def names {α : Type} (members : Members α) : List String :=
  members.map Prod.fst

end Members

end TableStore
