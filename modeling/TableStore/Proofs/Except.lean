import Mathlib.Data.List.Forall2

/-!
# Steps That May Fail

Most functions of the store are chains of steps, each of which gives a result
or fails. A proof follows such a chain step by step: a step that has given its
result is replaced by it, and a chain that has given a result is split into
the results of its steps.

## Theorems

* `ok_bind`, `error_bind`: The step after a result, and after a failure.
* `exists_of_bind_eq_ok`: The steps of a chain that has given a result.
* `bind_eq_error`: The step that a chain has failed in.
* `mapM_eq_ok`: The results of steps that all succeed.
* `mapM_map_eq_ok`: Steps that undo what was done to the items of a list.
* `forall₂_of_mapM_eq_ok`: The results of a list of steps are those of each.
* `exists_of_forall₂`: The item that an item of a related list is related to.
* `exists_map_of_forall`: A list of items that each come from another.
-/

namespace TableStore

variable {ε α β : Type}

@[simp] theorem ok_bind (a : α) (f : α → Except ε β) : (Except.ok a >>= f) = f a :=
  rfl

@[simp] theorem error_bind (e : ε) (f : α → Except ε β) :
    ((Except.error e : Except ε α) >>= f) = .error e :=
  rfl

@[simp] theorem ok_map (f : α → β) (a : α) : (Except.ok a : Except ε α).map f = .ok (f a) :=
  rfl

/-- The steps of a chain that has given a result. -/
theorem exists_of_bind_eq_ok {x : Except ε α} {f : α → Except ε β} {b : β} (h : (x >>= f) = .ok b) :
    ∃ a, x = .ok a ∧ f a = .ok b := by
  cases x with
  | ok a => exact ⟨a, rfl, h⟩
  | error e => exact absurd h (by simp)

/-- The step that a chain has failed in. -/
theorem bind_eq_error {x : Except ε α} {f : α → Except ε β} {e : ε} (h : (x >>= f) = .error e) :
    x = .error e ∨ ∃ a, x = .ok a ∧ f a = .error e := by
  cases x with
  | ok a => exact Or.inr ⟨a, rfl, h⟩
  | error other => exact Or.inl (congrArg Except.error (Except.error.inj h))

theorem exists_of_map_eq_ok {x : Except ε α} {f : α → β} {b : β} (h : x.map f = .ok b) :
    ∃ a, x = .ok a ∧ f a = b := by
  cases x with
  | ok a => exact ⟨a, rfl, Except.ok.inj h⟩
  | error e => exact absurd h (by simp [Except.map])

/-- The results of steps that all succeed. -/
theorem mapM_eq_ok {f : α → Except ε β} {g : α → β} {s : List α} (h : ∀ a ∈ s, f a = .ok (g a)) :
    s.mapM f = .ok (s.map g) := by
  induction s with
  | nil => rfl
  | cons a s ih =>
    rw [List.mapM_cons, h a List.mem_cons_self, ok_bind,
      ih fun b hb => h b (List.mem_cons_of_mem a hb), ok_bind]
    rfl

/-- Steps that each undo what was done to an item give the items. -/
theorem mapM_map_eq_ok {f : α → Except ε β} {g : β → α} {s : List β}
    (h : ∀ b ∈ s, f (g b) = .ok b) : (s.map g).mapM f = .ok s := by
  rw [List.mapM_map, mapM_eq_ok (f := f ∘ g) (g := id) h, List.map_id]

/-- The results of a list of steps are those of each. -/
theorem forall₂_of_mapM_eq_ok {f : α → Except ε β} {s : List α} {t : List β} (h : s.mapM f = .ok t) :
    List.Forall₂ (fun a b => f a = .ok b) s t := by
  induction s generalizing t with
  | nil =>
    rw [List.mapM_nil] at h
    rw [← Except.ok.inj h]
    exact .nil
  | cons a s ih =>
    rw [List.mapM_cons] at h
    rcases exists_of_bind_eq_ok h with ⟨b, hb, h⟩
    rcases exists_of_bind_eq_ok h with ⟨t, ht, h⟩
    rw [← Except.ok.inj h]
    exact .cons hb (ih ht)

/-- What is in one of two related lists is related to something in the other. -/
theorem exists_of_forall₂ {R : α → β → Prop} {s : List α} {t : List β} (h : List.Forall₂ R s t) {a : α}
    (ha : a ∈ s) : ∃ b ∈ t, R a b := by
  induction h with
  | nil => exact absurd ha (by simp)
  | @cons first second s t hfirst _ ih =>
    rcases List.mem_cons.mp ha with rfl | hmem
    · exact ⟨second, List.mem_cons_self, hfirst⟩
    · rcases ih hmem with ⟨b, hb, hab⟩
      exact ⟨b, List.mem_cons_of_mem _ hb, hab⟩

/-- Items that each come from one with a property are the list of what they come from. -/
theorem exists_map_of_forall {f : α → β} {p : α → Prop} {t : List β}
    (h : ∀ b ∈ t, ∃ a, p a ∧ b = f a) : ∃ s : List α, t = s.map f ∧ ∀ a ∈ s, p a := by
  induction t with
  | nil => exact ⟨[], rfl, fun a ha => absurd ha List.not_mem_nil⟩
  | cons b t ih =>
    rcases h b List.mem_cons_self with ⟨a, ha, rfl⟩
    rcases ih fun c hc => h c (List.mem_cons_of_mem _ hc) with ⟨s, rfl, hs⟩
    exact ⟨a :: s, rfl, List.forall_mem_cons.mpr ⟨ha, hs⟩⟩

end TableStore
