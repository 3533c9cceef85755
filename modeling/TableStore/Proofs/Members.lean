import Mathlib.Data.List.Induction
import Mathlib.Data.List.Nodup
import TableStore.Proofs.Except
import TableStore.Schema.Name

/-!
# Members and Fields

Giving a member anew changes that member only, and it keeps the names and their
order if the name is there already. A row is put together from fields, whose
names could be any JSON values. When all of them are texts, fields are members
in another notation, and what is done to the one is done to the other.

## Main definitions

* `Members.toFields`: Members as fields.

## Theorems

* `Members.get?_set`: What a change of a member leaves.
* `Members.names_set_of_mem`: A change keeps the names.
* `Members.ofList_of_nodup`: Members with different names stay as they are.
* `Members.names_ofList`, `get?_ofList_eq`: What giving members anew leaves.
* `Members.get?_toFields`, `set_toFields`: Fields whose names are texts.
* `Fields.ofList_toFields`: Fields whose names are different texts.
-/

namespace TableStore

namespace Members

variable {α : Type}

theorem get?_set (members : Members α) (name other : String) (a : α) :
    get? (set members name a) other = if other = name then some a else get? members other := by
  induction members with
  | nil =>
    rw [set, get?, get?]
    by_cases h : other = name
    · rw [if_pos h.symm, if_pos h]
    · rw [if_neg (Ne.symm h), if_neg h]
      rfl
  | cons member members ih =>
    rcases member with ⟨key, b⟩
    rw [set]
    by_cases hkey : key = name
    · rw [if_pos hkey, get?, get?, hkey]
      by_cases h : name = other
      · rw [if_pos h, if_pos h.symm]
      · rw [if_neg h, if_neg h, if_neg (Ne.symm h)]
    · rw [if_neg hkey, get?, get?, ih]
      by_cases h : key = other
      · rw [if_pos h, if_pos h, if_neg (fun ho => hkey (h.trans ho))]
      · rw [if_neg h, if_neg h]

/-- Of two changes of a member the second one counts. -/
theorem set_set (members : Members α) (name : String) (a b : α) :
    set (set members name a) name b = set members name b := by
  induction members with
  | nil => rw [set, set, set, if_pos rfl]
  | cons member members ih =>
    rcases member with ⟨key, c⟩
    by_cases h : key = name
    · rw [set, if_pos h, set, if_pos h, set, if_pos h]
    · rw [set, if_neg h, set, if_neg h, ih, set, if_neg h]

/-- A change of a member that is there keeps the names. -/
theorem names_set_of_mem {members : Members α} {name : String} (h : name ∈ names members) (a : α) :
    names (set members name a) = names members := by
  induction members with
  | nil => exact absurd h (by simp [names])
  | cons member members ih =>
    rcases member with ⟨key, b⟩
    rw [set]
    by_cases hkey : key = name
    · rw [if_pos hkey]
      rfl
    · rw [if_neg hkey]
      simp only [names, List.map_cons, List.mem_cons] at h ih ⊢
      rw [ih (h.resolve_left (Ne.symm hkey))]

theorem set_of_not_mem {members : Members α} {name : String} (h : name ∉ names members) (a : α) :
    set members name a = members ++ [(name, a)] := by
  induction members with
  | nil => rfl
  | cons member members ih =>
    rcases member with ⟨key, b⟩
    simp only [names, List.map_cons, List.mem_cons, not_or] at h ih
    rw [set, if_neg (Ne.symm h.1), ih h.2, List.cons_append]

/-- Giving members with different names one after the other leaves them as
    they are. -/
theorem ofList_of_nodup (members : List (String × α)) (h : (names members).Nodup) :
    ofList members = members := by
  -- What has been given so far stands in front and has other names.
  have hfold : ∀ (todo done : Members α), (names (done ++ todo)).Nodup →
      todo.foldl (fun members pair => set members pair.1 pair.2) done = done ++ todo := by
    intro todo
    induction todo with
    | nil => intro done _; rw [List.foldl_nil, List.append_nil]
    | cons pair todo ih =>
      intro done hnodup
      have hfresh : pair.1 ∉ names done := by
        rw [names, List.map_append, List.map_cons] at hnodup
        intro hmem
        exact (List.disjoint_of_nodup_append hnodup) hmem List.mem_cons_self
      rw [List.foldl_cons, set_of_not_mem hfresh, ih]
      · rw [List.append_assoc, List.singleton_append]
      · rw [List.append_assoc, List.singleton_append]
        exact hnodup
  exact hfold members [] h

theorem ofList_concat (pairs : List (String × α)) (pair : String × α) :
    ofList (pairs ++ [pair]) = set (ofList pairs) pair.1 pair.2 := by
  rw [ofList, List.foldl_append]
  rfl

/-- Members are in the order in which their names are given for the first time. -/
theorem names_ofList (pairs : List (String × α)) :
    names (ofList pairs) = (pairs.map Prod.fst).eraseDups := by
  induction pairs using List.reverseRecOn with
  | nil => rfl
  | append_singleton pairs pair ih =>
    rw [ofList_concat, List.map_append, List.eraseDups_append]
    -- A name that is given again keeps its place, and a new one comes last.
    by_cases hmem : pair.1 ∈ names (ofList pairs)
    · have hgiven : pair.1 ∈ pairs.map Prod.fst := by
        rw [ih, List.mem_eraseDups] at hmem
        exact hmem
      rw [names_set_of_mem hmem, ih]
      simp [List.removeAll, hgiven]
    · have hgiven : pair.1 ∉ pairs.map Prod.fst := by
        rw [ih, List.mem_eraseDups] at hmem
        exact hmem
      have hsingle : [pair.1].eraseDups = [pair.1] := by simp [List.eraseDups_cons]
      rw [set_of_not_mem hmem, names, List.map_append, ← names, ih]
      simp [List.removeAll, hgiven, hsingle]

/-- Of the values that are given under a name the last is kept. -/
theorem get?_ofList_eq (pairs : List (String × α)) (name : String) :
    get? (ofList pairs) name = ((pairs.filter fun pair => pair.1 = name).map Prod.snd).getLast? := by
  induction pairs using List.reverseRecOn with
  | nil => rfl
  | append_singleton pairs pair ih =>
    rw [ofList_concat, get?_set, ih, List.filter_append, List.map_append]
    by_cases h : pair.1 = name
    · simp [h]
    · simp [h, Ne.symm h]

theorem get?_ofList (before after : List (String × α)) {pair : String × α}
    (h : pair.1 ∉ after.map Prod.fst) :
    get? (ofList (before ++ pair :: after)) pair.1 = some pair.2 := by
  have hafter : after.filter (fun other => other.1 = pair.1) = [] := by
    rw [List.filter_eq_nil_iff]
    intro other hother hname
    exact h (List.mem_map.mpr ⟨other, hother, of_decide_eq_true hname⟩)
  rw [get?_ofList_eq, List.filter_append, List.filter_cons, if_pos (decide_eq_true rfl), hafter,
    List.map_append, List.map_cons, List.map_nil, List.getLast?_concat]

theorem mem_of_mem_set {members : Members α} {name : String} {a : α} {member : String × α}
    (h : member ∈ set members name a) : member.2 = a ∨ member ∈ members := by
  induction members with
  | nil =>
    rw [set, List.mem_singleton] at h
    exact Or.inl (by rw [h])
  | cons first members ih =>
    rcases first with ⟨key, b⟩
    rw [set] at h
    split at h
    · rcases List.mem_cons.mp h with rfl | hmem
      · exact Or.inl rfl
      · exact Or.inr (List.mem_cons_of_mem _ hmem)
    · rcases List.mem_cons.mp h with rfl | hmem
      · exact Or.inr List.mem_cons_self
      · exact (ih hmem).imp_right (List.mem_cons_of_mem _)

theorem mem_of_get? {members : Members α} {name : String} {a : α} (h : get? members name = some a) :
    (name, a) ∈ members := by
  induction members with
  | nil => exact absurd h (by simp [get?])
  | cons member members ih =>
    rcases member with ⟨key, b⟩
    rw [get?] at h
    split at h
    · rename_i hkey
      rw [hkey, ← Option.some.inj h]
      exact List.mem_cons_self
    · exact List.mem_cons_of_mem _ (ih h)

theorem exists_of_mem_names {members : Members α} {name : String} (h : name ∈ names members) :
    ∃ a, get? members name = some a := by
  induction members with
  | nil => exact absurd h (by simp [names])
  | cons member members ih =>
    rcases member with ⟨key, b⟩
    rw [get?]
    split
    · exact ⟨b, rfl⟩
    · rename_i hkey
      rw [names, List.map_cons, List.mem_cons] at h
      exact ih (h.resolve_left fun hname => hkey hname.symm)

theorem get?_of_mem {members : Members α} (hnodup : (names members).Nodup) {name : String} {a : α}
    (h : (name, a) ∈ members) : get? members name = some a := by
  induction members with
  | nil => exact absurd h (by simp)
  | cons member members ih =>
    rcases member with ⟨key, b⟩
    rw [names, List.map_cons, List.nodup_cons] at hnodup
    rw [get?]
    rcases List.mem_cons.mp h with heq | hmem
    · rw [Prod.mk.injEq] at heq
      rw [if_pos heq.1.symm, heq.2]
    · rw [if_neg (fun hkey => hnodup.1 ?_), ih hnodup.2 hmem]
      rw [show key = name from hkey]
      exact List.mem_map.mpr ⟨_, hmem, rfl⟩

/-- Members as fields. -/
def toFields (members : Members α) : Fields α :=
  members.map fun member => (.string member.1, member.2)

theorem get?_toFields (members : Members α) (name : String) :
    Fields.get? members.toFields (.text name) = get? members name := by
  induction members with
  | nil => rfl
  | cons member members ih =>
    rcases member with ⟨key, b⟩
    simp only [toFields, List.map_cons, Fields.get?, get?, Json.nameKey?, Option.some.injEq,
      NameKey.text.injEq] at ih ⊢
    rw [ih]

theorem set_toFields (members : Members α) (name : String) (a : α) :
    Fields.set members.toFields (.string name) (.text name) a = (set members name a).toFields := by
  induction members with
  | nil => rfl
  | cons member members ih =>
    rcases member with ⟨key, b⟩
    simp only [toFields, List.map_cons, Fields.set, set, Json.nameKey?, Option.some.injEq,
      NameKey.text.injEq] at ih ⊢
    split
    · rfl
    · rw [ih, List.map_cons]

theorem toMembers_toFields (members : Members α) : Fields.toMembers members.toFields = members := by
  simp only [Fields.toMembers, toFields, List.map_map]
  exact List.map_id'' (fun _ => rfl) members

end Members

namespace Fields

variable {α : Type}

theorem mem_of_mem_set {fields : Fields α} {name : Json} {key : NameKey} {a : α} {field : Json × α}
    (h : field ∈ set fields name key a) : field.2 = a ∨ field ∈ fields := by
  induction fields with
  | nil =>
    rw [set, List.mem_singleton] at h
    exact Or.inl (by rw [h])
  | cons first fields ih =>
    rcases first with ⟨other, b⟩
    rw [set] at h
    split at h
    · rcases List.mem_cons.mp h with rfl | hmem
      · exact Or.inl rfl
      · exact Or.inr (List.mem_cons_of_mem _ hmem)
    · rcases List.mem_cons.mp h with rfl | hmem
      · exact Or.inr List.mem_cons_self
      · exact (ih hmem).imp_right (List.mem_cons_of_mem _)

theorem mem_of_get? {fields : Fields α} {key : NameKey} {a : α} (h : get? fields key = some a) :
    ∃ field ∈ fields, field.2 = a := by
  induction fields with
  | nil => exact absurd h (by simp [get?])
  | cons first fields ih =>
    rcases first with ⟨other, b⟩
    rw [get?] at h
    split at h
    · exact ⟨_, List.mem_cons_self, Option.some.inj h⟩
    · rcases ih h with ⟨field, hfield, ha⟩
      exact ⟨field, List.mem_cons_of_mem _ hfield, ha⟩

theorem give_toFields (members : Members α) (name : String) (a : α) :
    give members.toFields (.string name) a = .ok (Members.set members name a).toFields := by
  rw [give, Json.requireKey, Json.nameKey?, ok_bind, Members.set_toFields]

/-- Fields whose names are different texts stay as they are. -/
theorem ofList_toFields {members : Members α} (hnodup : (Members.names members).Nodup) :
    ofList members.toFields = .ok members.toFields := by
  have hfold : ∀ (todo done : Members α),
      todo.toFields.foldlM (fun fields pair => give fields pair.1 pair.2) done.toFields
        = .ok (todo.foldl (fun members pair => Members.set members pair.1 pair.2) done).toFields := by
    intro todo
    induction todo with
    | nil => exact fun done => rfl
    | cons pair todo ih =>
      intro done
      have hcons : Members.toFields (pair :: todo)
          = (.string pair.1, pair.2) :: Members.toFields todo := rfl
      rw [hcons, List.foldlM_cons, give_toFields, ok_bind]
      exact ih _
  have hlist := Members.ofList_of_nodup members hnodup
  rw [Members.ofList] at hlist
  exact (hfold members []).trans (by rw [hlist])

end Fields

end TableStore
