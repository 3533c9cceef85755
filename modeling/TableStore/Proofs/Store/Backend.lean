import Mathlib.Logic.Relation
import TableStore.Store.Access

/-!
# Stores That Answer Alike

Two stores cannot be told apart by a dialogue if there is a relation between
their states that each request keeps, and under which they give the same answer
to it. That is asked of single requests only. A run is nothing but requests, so
related states lead to the same outcome and to related states, whatever the
dialogue does with the answers.

The relation is where an ordered store, one that finds places by halving and a
database that scans in any order differ. Nothing else has to be said about how
a store works.

## Main definitions

* `SameAnswer`: Two answers with the same outcome and related states.
* `Backend.AnswersAs`: Two stores that answer each request alike.
* `Surroundings.Alike`: Surroundings that differ in related stores only.

## Theorems

* `AnswersAs.run`: Stores that answer alike run every dialogue alike.
* `AnswersAs.trans`, `AnswersAs.symm`: One store after the other.
* `AnswersAs.keyless`: The same without keys.
-/

namespace TableStore

variable {σ τ υ α : Type}

/-- The same outcome, and related states after it. -/
structure SameAnswer (R : σ → τ → Prop) (x : Except Fault α × σ) (y : Except Fault α × τ) :
    Prop where
  outcome : x.1 = y.1
  state : R x.2 y.2

/-- In related states two stores answer each request alike. -/
structure Backend.AnswersAs (b : Backend σ) (b' : Backend τ) (R : σ → τ → Prop) : Prop where
  get : ∀ {s t}, R s t → ∀ key, SameAnswer R (b.get key s) (b'.get key t)
  put : ∀ {s t}, R s t → ∀ key value, SameAnswer R (b.put key value s) (b'.put key value t)
  delete : ∀ {s t}, R s t → ∀ key, SameAnswer R (b.delete key s) (b'.delete key t)
  scan : ∀ {s t}, R s t → ∀ start, SameAnswer R (b.scan start s) (b'.scan start t)
  size : ∀ {s t}, R s t → b.size s = b'.size t

/-- Surroundings with related stores that are otherwise the same. -/
structure Surroundings.Alike (R : σ → τ → Prop) (w : Surroundings σ) (w' : Surroundings τ) :
    Prop where
  store : R w.store w'.store
  ids : w.ids = w'.ids
  notes : w.notes = w'.notes

/-- A request changes the stores and nothing else. -/
theorem Surroundings.Alike.change {R : σ → τ → Prop} {w : Surroundings σ} {w' : Surroundings τ}
    (hw : w.Alike R w') {s : σ} {t : τ} (hst : R s t) :
    { w with store := s }.Alike R { w' with store := t } :=
  ⟨hst, hw.ids, hw.notes⟩

theorem SameAnswer.symm {R : σ → τ → Prop} {p : Except Fault α × σ} {q : Except Fault α × τ}
    (h : SameAnswer R p q) : SameAnswer (fun t s => R s t) q p :=
  ⟨h.outcome.symm, h.state⟩

theorem SameAnswer.trans {R : σ → τ → Prop} {S : τ → υ → Prop} {p : Except Fault α × σ}
    {q : Except Fault α × τ} {r : Except Fault α × υ} (h : SameAnswer R p q)
    (h' : SameAnswer S q r) : SameAnswer (Relation.Comp R S) p r :=
  ⟨h.outcome.trans h'.outcome, q.2, h.state, h'.state⟩

/-- Two answers with the same outcome: the same value, or the same fault. -/
@[elab_as_elim]
theorem SameAnswer.elim {R : σ → τ → Prop} {motive : Except Fault α × σ → Except Fault α × τ → Prop}
    {p : Except Fault α × σ} {q : Except Fault α × τ} (h : SameAnswer R p q)
    (ok : ∀ a s t, R s t → motive (.ok a, s) (.ok a, t))
    (error : ∀ fault s t, R s t → motive (.error fault, s) (.error fault, t)) : motive p q := by
  rcases p with ⟨_ | a, s⟩ <;> rcases q with ⟨r, t⟩ <;> rcases h with ⟨rfl, hstate⟩
  · exact error _ s t hstate
  · exact ok a s t hstate

/-- A run that ends alike as one with a known end. -/
theorem SameAnswer.eq_ok {R : σ → τ → Prop} {p : Except Fault α × Surroundings σ} {a : α} {t : τ}
    {ids : IdSource} {notes : List String}
    (h : SameAnswer (Surroundings.Alike R) p (.ok a, ⟨t, ids, notes⟩)) :
    ∃ s, p = (.ok a, ⟨s, ids, notes⟩) ∧ R s t := by
  rcases p with ⟨r, s, ids', notes'⟩
  have houtcome : r = .ok a := h.outcome
  have hids : ids' = ids := h.state.ids
  have hnotes : notes' = notes := h.state.notes
  rw [houtcome, hids, hnotes]
  exact ⟨s, rfl, h.state.store⟩

namespace Backend.AnswersAs

variable {b : Backend σ} {b' : Backend τ} {b'' : Backend υ} {R : σ → τ → Prop} {S : τ → υ → Prop}

/-- Stores that answer alike run every dialogue alike. -/
theorem run (h : b.AnswersAs b' R) (x : Access α) {w : Surroundings σ} {w' : Surroundings τ}
    (hw : w.Alike R w') : SameAnswer (Surroundings.Alike R) (x.run b w) (x.run b' w') := by
  induction x generalizing w w' with
  | done a => exact ⟨rfl, hw⟩
  | fail fault => exact ⟨rfl, hw⟩
  | get key next ih =>
    rw [Access.run, Access.run]
    refine (h.get hw.store key).elim (fun a s t hst => ?_) fun fault s t hst => ?_
    · exact ih a (hw.change hst)
    · exact ⟨rfl, hw.change hst⟩
  | put key value next ih =>
    rw [Access.run, Access.run]
    refine (h.put hw.store key value).elim (fun a s t hst => ?_) fun fault s t hst => ?_
    · exact ih a (hw.change hst)
    · exact ⟨rfl, hw.change hst⟩
  | delete key next ih =>
    rw [Access.run, Access.run]
    refine (h.delete hw.store key).elim (fun a s t hst => ?_) fun fault s t hst => ?_
    · exact ih a (hw.change hst)
    · exact ⟨rfl, hw.change hst⟩
  | scan start next ih =>
    rw [Access.run, Access.run]
    refine (h.scan hw.store start).elim (fun a s t hst => ?_) fun fault s t hst => ?_
    · exact ih a (hw.change hst)
    · exact ⟨rfl, hw.change hst⟩
  | size next ih =>
    rw [Access.run, Access.run, h.size hw.store]
    exact ih _ hw
  | newId table next ih =>
    -- The ids are drawn from the same source, so the draw has one outcome.
    rw [Access.run, Access.run, hw.ids]
    rcases w'.ids.next table with ⟨_ | id, after⟩
    · exact ⟨rfl, hw.store, rfl, hw.notes⟩
    · exact ih id ⟨hw.store, rfl, hw.notes⟩
  | note line next ih => exact ih () ⟨hw.store, hw.ids, congrArg (line :: ·) hw.notes⟩

theorem symm (h : b.AnswersAs b' R) : b'.AnswersAs b fun t s => R s t where
  get hts key := (h.get hts key).symm
  put hts key value := (h.put hts key value).symm
  delete hts key := (h.delete hts key).symm
  scan hts start := (h.scan hts start).symm
  size hts := (h.size hts).symm

theorem trans (h : b.AnswersAs b' R) (h' : b'.AnswersAs b'' S) :
    b.AnswersAs b'' (Relation.Comp R S) where
  -- The states of the store in between are what relates the other two.
  get := by
    rintro s u ⟨t, hst, htu⟩ key
    exact (h.get hst key).trans (h'.get htu key)
  put := by
    rintro s u ⟨t, hst, htu⟩ key value
    exact (h.put hst key value).trans (h'.put htu key value)
  delete := by
    rintro s u ⟨t, hst, htu⟩ key
    exact (h.delete hst key).trans (h'.delete htu key)
  scan := by
    rintro s u ⟨t, hst, htu⟩ start
    exact (h.scan hst start).trans (h'.scan htu start)
  size := by
    rintro s u ⟨t, hst, htu⟩
    exact (h.size hst).trans (h'.size htu)

/-- Those who cannot build a key meet related stores alike. -/
theorem keyless (h : b.AnswersAs b' R) : b.keyless.AnswersAs b'.keyless R where
  get hst _ := ⟨rfl, hst⟩
  put hst _ _ := ⟨rfl, hst⟩
  delete hst _ := ⟨rfl, hst⟩
  scan hst _ := ⟨rfl, hst⟩
  size := h.size

end Backend.AnswersAs

end TableStore
