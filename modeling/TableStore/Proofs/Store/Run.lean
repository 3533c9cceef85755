import TableStore.Proofs.Except
import TableStore.Proofs.Store.Backend
import TableStore.Proofs.Store.Contents

/-!
# Running Dialogues on Contents

A store in memory counts its operations, and nothing that a dialogue does
depends on the counts. Dialogues are therefore run on bare contents, where two
runs with the same answers end in the very same surroundings, and `run_memory`
carries what is proved back to the store in memory.

A run is followed from step to step: `run_bind` splits it, and a step that
asks the store for something is replaced by its answer. A step that only looks
something up leaves the surroundings as they are, so a chain of such steps
comes down to their outcomes.

## Main definitions

* `Contents.backend`: Contents as a store.
* `World`: The surroundings of a run on contents.
* `Surroundings.Shows`: Surroundings in memory with the same contents.
* `Access.Looks`: A dialogue with a known outcome that changes nothing.

## Theorems

* `memoryBackend_answersAs`: The counts change no answer.
* `run_memory`: A store in memory answers as its contents do.
* `ids_run`: What every draw keeps of the source of ids, a run keeps.
* `run_bind`: A run of two dialogues, one after the other.
* `Looks.bind`: What is looked up is what the rest goes on with.
-/

namespace TableStore

/-- Contents as a store that always answers. -/
def Contents.backend : Backend Contents where
  get key c := (.ok (c.get? key), c)
  put key value c := (.ok (), c.insert key value)
  delete key c := (.ok (), c.erase key)
  scan start c := (.ok (scanEntries start c.entries), c)
  size c := c.entries.length

/-- The surroundings of a run on contents. -/
abbrev World := Surroundings Contents

/-- Surroundings in memory that show bare ones: the same entries, ids and
    lines. -/
structure Surroundings.Shows (s : Surroundings Memory) (w : World) : Prop where
  entries : s.store.entries = w.store.entries
  ids : s.ids = w.ids
  notes : s.notes = w.notes

/-- The counts of a store in memory change no answer. -/
theorem memoryBackend_answersAs :
    memoryBackend.AnswersAs Contents.backend fun m c => m.entries = c.entries where
  get h key := ⟨congrArg (fun s => Except.ok (lookupEntry key s)) h, h⟩
  put h key value := ⟨rfl, congrArg (insertEntry key value) h⟩
  delete h key := ⟨rfl, congrArg (eraseEntry key) h⟩
  scan h start := ⟨congrArg (fun s => Except.ok (scanEntries start s)) h, h⟩
  size h := congrArg List.length h

namespace Access

variable {α β : Type}

/-- The outcome of a dialogue on contents, and the surroundings after it. -/
abbrev on (x : Access α) (w : World) : Except Fault α × World :=
  x.run Contents.backend w

/-- A store in memory answers as its contents do. -/
theorem run_memory (x : Access α) {s : Surroundings Memory} {w : World} (h : s.Shows w) :
    (x.run memoryBackend s).1 = (x.on w).1 ∧ (x.run memoryBackend s).2.Shows (x.on w).2 := by
  have hrun := memoryBackend_answersAs.run x ⟨h.entries, h.ids, h.notes⟩
  exact ⟨hrun.outcome, hrun.state.store, hrun.state.ids, hrun.state.notes⟩

theorem run_contents (x : Access α) {m : Memory} {c : Contents} (h : m.entries = c.entries)
    (ids : IdSource) (notes : List String) :
    (x.run memoryBackend ⟨m, ids, notes⟩).1 = (x.on ⟨c, ids, notes⟩).1
      ∧ (x.run memoryBackend ⟨m, ids, notes⟩).2.Shows (x.on ⟨c, ids, notes⟩).2 :=
  x.run_memory ⟨h, rfl, rfl⟩

/-- A drawn id, and the source afterwards. -/
theorem drawId_on (table : String) (w : World) : (drawId table).on w
    = ((w.ids.next table).1, { w with ids := (w.ids.next table).2 }) := by
  rcases h : w.ids.next table with ⟨fault | id, ids⟩ <;> simp [on, drawId, run, h]

/-- What every draw keeps of the source of ids, a run keeps. -/
theorem ids_run {P : IdSource → Prop} (hdraw : ∀ ids name, P ids → P (ids.next name).2)
    (x : Access α) {w : World} (hw : P w.ids) : P (x.on w).2.ids := by
  -- No other step of a dialogue touches the source.
  induction x generalizing w with
  | done a => exact hw
  | fail fault => exact hw
  | get key next ih => exact ih _ hw
  | put key value next ih => exact ih () hw
  | delete key next ih => exact ih () hw
  | scan start next ih => exact ih _ hw
  | size next ih => exact ih _ hw
  | newId name next ih =>
    have hnext := hdraw w.ids name hw
    simp only [on, run]
    rcases h : w.ids.next name with ⟨fault | id, after⟩ <;> rw [h] at hnext
    · exact hnext
    · exact ih id hnext
  | note line next ih => exact ih () hw

/-- A run of two dialogues, one after the other. -/
theorem run_bind (x : Access α) (f : α → Access β) (w : World) :
    (x >>= f).on w = match x.on w with
      | (.ok a, w') => (f a).on w'
      | (.error fault, w') => (.error fault, w') := by
  change (x.bind f).on w = _
  induction x generalizing w with
  | done a => rfl
  | fail fault => rfl
  | get key next ih => exact ih _ _
  | put key value next ih => exact ih () _
  | delete key next ih => exact ih () _
  | scan start next ih => exact ih _ _
  | size next ih => exact ih _ _
  | newId table next ih =>
    simp only [on, bind, run]
    rcases w.ids.next table with ⟨_ | id, after⟩
    · rfl
    · exact ih id _
  | note line next ih => exact ih () _

theorem run_bind_ok {x : Access α} {f : α → Access β} {w w' : World} {a : α}
    (h : x.on w = (.ok a, w')) : (x >>= f).on w = (f a).on w' := by
  rw [run_bind, h]

theorem run_bind_error {x : Access α} {f : α → Access β} {w w' : World} {fault : Fault}
    (h : x.on w = (.error fault, w')) : (x >>= f).on w = (.error fault, w') := by
  rw [run_bind, h]

/-- How a run of two dialogues can end: in the first one, or after it. -/
theorem run_bind_cases (x : Access α) (f : α → Access β) (w : World) :
    (∃ fault w', x.on w = (.error fault, w') ∧ (x >>= f).on w = (.error fault, w'))
      ∨ ∃ a w', x.on w = (.ok a, w') ∧ (x >>= f).on w = (f a).on w' := by
  rcases h : x.on w with ⟨fault | a, w'⟩
  · exact Or.inl ⟨fault, w', rfl, run_bind_error h⟩
  · exact Or.inr ⟨a, w', rfl, run_bind_ok h⟩

/-- A run that does not fail, of two dialogues that do not. -/
theorem exists_of_run_bind_ok {x : Access α} {f : α → Access β} {w w' : World} {b : β}
    (h : (x >>= f).on w = (.ok b, w')) :
    ∃ a w₁, x.on w = (.ok a, w₁) ∧ (f a).on w₁ = (.ok b, w') := by
  rcases run_bind_cases x f w with ⟨fault, w₁, -, hfault⟩ | ⟨a, w₁, hx, hrest⟩
  · exact absurd (congrArg Prod.fst (hfault.symm.trans h)) (by simp)
  · exact ⟨a, w₁, hx, hrest.symm.trans h⟩

theorem run_lift (r : Except Fault α) (w : World) : (lift r).on w = (r, w) := by
  cases r <;> rfl

/-- A dialogue with a known outcome that changes nothing. -/
def Looks (x : Access α) (w : World) (r : Except Fault α) : Prop :=
  x.on w = (r, w)

theorem looks_pure (a : α) (w : World) : (pure a : Access α).Looks w (.ok a) :=
  rfl

theorem looks_fail (fault : Fault) (w : World) : (fail fault : Access α).Looks w (.error fault) :=
  rfl

theorem looks_lift (r : Except Fault α) (w : World) : (lift r).Looks w r :=
  run_lift r w

theorem looks_fetch (key : Bytes) (w : World) : (fetch key).Looks w (.ok (w.store.get? key)) :=
  rfl

theorem looks_entries (start : Bytes) (w : World) : (entries start).Looks w
    (.ok (w.store.entries.filter fun e => Bytes.carries start e.1)) := by
  rw [← scanEntries_eq_filter w.store.ascending]
  rfl

theorem looks_keyCount (w : World) : keyCount.Looks w (.ok w.store.entries.length) :=
  rfl

/-- What is looked up is what the rest goes on with. -/
theorem Looks.bind {x : Access α} {f : α → Access β} {w : World} {r : Except Fault α}
    {g : α → Except Fault β} (hx : x.Looks w r) (hf : ∀ a, r = .ok a → (f a).Looks w (g a)) :
    (x >>= f).Looks w (r >>= g) := by
  cases r with
  | ok a => exact (run_bind_ok hx).trans (hf a rfl)
  | error fault => exact run_bind_error hx

/-- After something is looked up the run goes on with it. -/
theorem Looks.run_bind {x : Access α} {f : α → Access β} {w : World} {a : α}
    (hx : x.Looks w (.ok a)) : (x >>= f).on w = (f a).on w :=
  run_bind_ok hx

theorem Looks.run_bind_error {x : Access α} {f : α → Access β} {w : World} {fault : Fault}
    (hx : x.Looks w (.error fault)) : (x >>= f).on w = (.error fault, w) :=
  Access.run_bind_error hx

theorem Looks.map {x : Access α} {w : World} {r : Except Fault α} (hx : x.Looks w r) (g : α → β) :
    (g <$> x).Looks w (r.map g) := by
  change (x >>= fun a => pure (g a)).Looks w _
  cases r with
  | ok a => exact run_bind_ok hx
  | error fault => exact Access.run_bind_error hx

theorem lift_ok_bind (a : α) (f : α → Access β) : (lift (.ok a) >>= f) = f a :=
  rfl

theorem lift_error_bind (fault : Fault) (f : α → Access β) :
    (lift (.error fault) >>= f) = fail fault :=
  rfl

theorem pure_bind (a : α) (f : α → Access β) : (pure a >>= f) = f a :=
  rfl

theorem forList_map {γ δ : Type} (f : δ → Access Unit) (g : γ → δ) (s : List γ) :
    forList f (s.map g) = forList (fun a => f (g a)) s := by
  induction s with
  | nil => rfl
  | cons a s ih => rw [List.map_cons, forList, forList, ih]

theorem forList_congr {γ : Type} {f g : γ → Access Unit} {s : List γ} (h : ∀ a ∈ s, f a = g a) :
    forList f s = forList g s := by
  induction s with
  | nil => rfl
  | cons a s ih =>
    rw [forList, forList, h a List.mem_cons_self, ih fun b hb => h b (List.mem_cons_of_mem a hb)]

end Access

end TableStore
