import TableStore.Double

/-!
# JSON Values

Rows, schemas and index definitions are stored as JSON, and results can be
rendered as JSON. Numbers without a fraction or an exponent are integers of
any size; the others are doubles, and the three doubles that JSON has no
number for have words of their own.

## Main definitions

* `Json`: A JSON value.
* `Json.same`: Whether two JSON values are the same value.

## Theorems

* `Json.same_eq_true`: Two values are the same exactly if they are equal.
-/

namespace TableStore

/-- A JSON value. The members of an object are in the order of its text. -/
inductive Json where
  | null
  | bool (b : Bool)
  | int (n : Int)
  | float (d : Double)
  | string (s : String)
  | array (items : List Json)
  | object (members : List (String × Json))

namespace Json

mutual

/-- Whether two JSON values are the same value. -/
def same : (a b : Json) → Bool
  | null, null => true
  | bool a, bool b => a == b
  | int a, int b => a == b
  | float a, float b => a == b
  | string a, string b => a == b
  | array a, array b => sameItems a b
  | object a, object b => sameMembers a b
  | _, _ => false

/-- Whether the items of two arrays are the same. -/
def sameItems : (a b : List Json) → Bool
  | [], [] => true
  | a :: as, b :: bs => same a b && sameItems as bs
  | _, _ => false

/-- Whether the members of two objects are the same, in the same order. -/
def sameMembers : (a b : List (String × Json)) → Bool
  | [], [] => true
  | (name, a) :: as, (other, b) :: bs => name == other && same a b && sameMembers as bs
  | _, _ => false

end

mutual

theorem eq_of_same : ∀ {a b : Json}, same a b = true → a = b
  | null, b, h => by cases b <;> simp_all [same]
  | bool _, b, h => by cases b <;> simp_all [same]
  | int _, b, h => by cases b <;> simp_all [same]
  | float _, b, h => by cases b <;> simp_all [same]
  | string _, b, h => by cases b <;> simp_all [same]
  | array as, b, h => by
    cases b with
    | array bs =>
      rw [same] at h
      rw [eq_of_sameItems h]
    | _ => simp [same] at h
  | object as, b, h => by
    cases b with
    | object bs =>
      rw [same] at h
      rw [eq_of_sameMembers h]
    | _ => simp [same] at h

theorem eq_of_sameItems : ∀ {a b : List Json}, sameItems a b = true → a = b
  | [], [], _ => rfl
  | [], _ :: _, h => by simp [sameItems] at h
  | _ :: _, [], h => by simp [sameItems] at h
  | a :: as, b :: bs, h => by
    rw [sameItems, Bool.and_eq_true] at h
    rw [eq_of_same h.1, eq_of_sameItems h.2]

theorem eq_of_sameMembers : ∀ {a b : List (String × Json)}, sameMembers a b = true → a = b
  | [], [], _ => rfl
  | [], _ :: _, h => by simp [sameMembers] at h
  | _ :: _, [], h => by simp [sameMembers] at h
  | (name, a) :: as, (other, b) :: bs, h => by
    rw [sameMembers, Bool.and_eq_true, Bool.and_eq_true, beq_iff_eq] at h
    rw [h.1.1, eq_of_same h.1.2, eq_of_sameMembers h.2]

end

mutual

theorem same_self : ∀ a : Json, same a a = true
  | null => rfl
  | bool _ => by simp [same]
  | int _ => by simp [same]
  | float _ => by simp [same]
  | string _ => by simp [same]
  | array as => by rw [same, sameItems_self as]
  | object as => by rw [same, sameMembers_self as]

theorem sameItems_self : ∀ a : List Json, sameItems a a = true
  | [] => rfl
  | a :: as => by rw [sameItems, same_self a, sameItems_self as]; rfl

theorem sameMembers_self : ∀ a : List (String × Json), sameMembers a a = true
  | [] => rfl
  | (name, a) :: as => by
    rw [sameMembers, same_self a, sameMembers_self as, beq_self_eq_true]; rfl

end

/-- Two values are the same exactly if they are equal. -/
theorem same_eq_true {a b : Json} : same a b = true ↔ a = b :=
  ⟨eq_of_same, fun h => h ▸ same_self a⟩

instance : DecidableEq Json := fun _ _ => decidable_of_iff _ same_eq_true

end Json

end TableStore
