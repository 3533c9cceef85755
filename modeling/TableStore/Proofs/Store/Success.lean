import TableStore.Proofs.Store.Run

/-!
# What a Run Ends In

A run ends in a value or in a fault, and what is known about the surroundings
differs between the two. Both are said at once, so that a chain of dialogues is
followed through all its ends by one rule.

Two limits can stop a change that is otherwise sound: an integer may have more
digits than are written, and a part of a key may be longer than its length
field can say. Both can strike between the write of a row and the write of its
entries, and then the two are out of step. What holds of the entries therefore
holds of the runs that do not hit a limit. A dialogue succeeds in this sense if
a limit is the only thing that can keep it from its end.

## Main definitions

* `Fault.IsLimit`: A limit of the store is hit.
* `WithinLimits`: Outcomes other than that a limit is hit.
* `Access.Yields`: What holds when a dialogue fails, and when it does not.
* `Access.Succeeds`: A dialogue that only a limit can stop.

## Theorems

* `Yields.bind`: One dialogue after the other.
-/

namespace TableStore

/-- A limit of the store is hit: an integer has too many digits, or a part of a
    key is too long. -/
def Fault.IsLimit (fault : Fault) : Prop :=
  fault = .digitLimit ∨ fault = .componentTooLong

instance (fault : Fault) : Decidable fault.IsLimit :=
  inferInstanceAs (Decidable (_ ∨ _))

/-- An outcome that is not that a limit is hit. -/
def WithinLimits {α : Type} (r : Except Fault α) : Prop :=
  ∀ fault, r = .error fault → ¬fault.IsLimit

instance {α : Type} (r : Except Fault α) : Decidable (WithinLimits r) :=
  match r with
  | .ok _ => isTrue fun _ h => absurd h (by simp)
  | .error fault => decidable_of_iff (¬fault.IsLimit)
    ⟨fun h _ heq => Except.error.inj heq ▸ h, fun h => h fault rfl⟩

namespace Access

variable {α β : Type} {w : World} {failed : Fault → World → Prop}

/-- What holds of the fault and the surroundings when a dialogue fails, and of
    the value and the surroundings when it does not. -/
def Yields (x : Access α) (w : World) (failed : Fault → World → Prop)
    (post : α → World → Prop) : Prop :=
  (∃ fault w', x.on w = (.error fault, w') ∧ failed fault w')
    ∨ ∃ a w', x.on w = (.ok a, w') ∧ post a w'

/-- A dialogue that only a limit can stop, with what it ends in otherwise. -/
abbrev Succeeds (x : Access α) (w : World) (post : α → World → Prop) : Prop :=
  x.Yields w (fun fault _ => fault.IsLimit) post

theorem yields_pure {a : α} {post : α → World → Prop} (h : post a w) :
    (pure a : Access α).Yields w failed post :=
  Or.inr ⟨a, w, rfl, h⟩

theorem yields_fail {fault : Fault} {post : α → World → Prop} (h : failed fault w) :
    (fail fault : Access α).Yields w failed post :=
  Or.inl ⟨fault, w, rfl, h⟩

theorem Looks.yields {x : Access α} {r : Except Fault α} (hx : x.Looks w r)
    {post : α → World → Prop} (herror : ∀ fault, r = .error fault → failed fault w)
    (hok : ∀ a, r = .ok a → post a w) : x.Yields w failed post := by
  cases r with
  | ok a => exact Or.inr ⟨a, w, hx, hok a rfl⟩
  | error fault => exact Or.inl ⟨fault, w, hx, herror fault rfl⟩

/-- What holds anyway. -/
theorem yields_of_forall {x : Access α} {post : α → World → Prop}
    (hfailed : ∀ fault w', failed fault w') (hpost : ∀ a w', post a w') : x.Yields w failed post := by
  rcases h : x.on w with ⟨fault | a, w'⟩
  · exact Or.inl ⟨fault, w', h, hfailed fault w'⟩
  · exact Or.inr ⟨a, w', h, hpost a w'⟩

theorem yields_lift {r : Except Fault α} {post : α → World → Prop}
    (herror : ∀ fault, r = .error fault → failed fault w) (hok : ∀ a, r = .ok a → post a w) :
    (lift r).Yields w failed post :=
  (looks_lift r w).yields herror hok

theorem yields_store {key value : Bytes} {post : Unit → World → Prop}
    (h : post () { w with store := w.store.insert key value }) :
    (store key value).Yields w failed post :=
  Or.inr ⟨(), _, rfl, h⟩

theorem yields_remove {key : Bytes} {post : Unit → World → Prop}
    (h : post () { w with store := w.store.erase key }) : (remove key).Yields w failed post :=
  Or.inr ⟨(), _, rfl, h⟩

/-- One dialogue after the other. -/
theorem Yields.bind {x : Access α} {f : α → Access β} {mid : α → World → Prop}
    {post : β → World → Prop} (hx : x.Yields w failed mid)
    (hf : ∀ a w', mid a w' → (f a).Yields w' failed post) : (x >>= f).Yields w failed post := by
  rcases hx with ⟨fault, w', hrun, hfailed⟩ | ⟨a, w', hrun, hmid⟩
  · exact Or.inl ⟨fault, w', run_bind_error hrun, hfailed⟩
  · rcases hf a w' hmid with ⟨fault, w'', hrun', hfailed⟩ | ⟨b, w'', hrun', hpost⟩
    · exact Or.inl ⟨fault, w'', (run_bind_ok hrun).trans hrun', hfailed⟩
    · exact Or.inr ⟨b, w'', (run_bind_ok hrun).trans hrun', hpost⟩

/-- What is looked up, if it is there, is what the rest goes on with. -/
theorem Yields.looked {x : Access α} {r : Except Fault α} {f : α → Access β}
    {post : β → World → Prop} (hx : x.Looks w r) (herror : ∀ fault, r = .error fault → failed fault w)
    (hok : ∀ a, r = .ok a → (f a).Yields w failed post) : (x >>= f).Yields w failed post := by
  cases r with
  | ok a =>
    rw [Yields, hx.run_bind]
    exact hok a rfl
  | error fault => exact Or.inl ⟨fault, w, hx.run_bind_error, herror fault rfl⟩

/-- An outcome that the rest goes on with. -/
theorem Yields.outcome {r : Except Fault α} {f : α → Access β} {post : β → World → Prop}
    (herror : ∀ fault, r = .error fault → failed fault w)
    (hok : ∀ a, r = .ok a → (f a).Yields w failed post) : (lift r >>= f).Yields w failed post :=
  Yields.looked (looks_lift r w) herror hok

/-- What is looked up and then gone on with. -/
theorem Yields.look {x : Access α} {f : α → Access β} {a : α} {post : β → World → Prop}
    (hx : x.Looks w (.ok a)) (hf : (f a).Yields w failed post) : (x >>= f).Yields w failed post := by
  rw [Yields, hx.run_bind]
  exact hf

/-- A step whose run is known. -/
theorem Yields.ran {x : Access α} {f : α → Access β} {a : α} {w' : World} {post : β → World → Prop}
    (hx : x.on w = (.ok a, w')) (hf : (f a).Yields w' failed post) :
    (x >>= f).Yields w failed post := by
  rw [Yields, run_bind_ok hx]
  exact hf

theorem Yields.store {key value : Bytes} {f : Unit → Access β} {post : β → World → Prop}
    (h : (f ()).Yields { w with store := w.store.insert key value } failed post) :
    (Access.store key value >>= f).Yields w failed post :=
  h

theorem Yields.remove {key : Bytes} {f : Unit → Access β} {post : β → World → Prop}
    (h : (f ()).Yields { w with store := w.store.erase key } failed post) :
    (Access.remove key >>= f).Yields w failed post :=
  h

theorem Yields.log {line : String} {f : Unit → Access β} {post : β → World → Prop}
    (h : (f ()).Yields { w with notes := line :: w.notes } failed post) :
    (Access.log line >>= f).Yields w failed post :=
  h

theorem Yields.imp {x : Access α} {failed' : Fault → World → Prop} {post post' : α → World → Prop}
    (hx : x.Yields w failed post) (hfailed : ∀ fault w', failed fault w' → failed' fault w')
    (hpost : ∀ a w', post a w' → post' a w') : x.Yields w failed' post' := by
  rcases hx with ⟨fault, w', hrun, hf⟩ | ⟨a, w', hrun, hp⟩
  · exact Or.inl ⟨fault, w', hrun, hfailed fault w' hf⟩
  · exact Or.inr ⟨a, w', hrun, hpost a w' hp⟩

/-- A run that is kept in mind. -/
theorem Yields.record {x : Access α} {post : α → World → Prop} (hx : x.Yields w failed post) :
    x.Yields w failed fun a w' => post a w' ∧ x.on w = (.ok a, w') := by
  rcases hx with hfailed | ⟨a, w', hrun, hpost⟩
  · exact Or.inl hfailed
  · exact Or.inr ⟨a, w', hrun, hpost, hrun⟩

/-- What holds of a run that has failed. -/
theorem Yields.of_error {x : Access α} {post : α → World → Prop} (hx : x.Yields w failed post)
    {fault : Fault} {w' : World} (hrun : x.on w = (.error fault, w')) : failed fault w' := by
  rcases hx with ⟨other, w₁, hother, hfailed⟩ | ⟨a, w₁, hother, -⟩
  · rcases Prod.mk.inj (hrun.symm.trans hother) with ⟨hfault, rfl⟩
    rw [Except.error.inj hfault]
    exact hfailed
  · exact absurd (Prod.mk.inj (hrun.symm.trans hother)).1 (by simp)

/-- What holds of a run that has not failed. -/
theorem Yields.of_ok {x : Access α} {post : α → World → Prop} (hx : x.Yields w failed post) {a : α}
    {w' : World} (hrun : x.on w = (.ok a, w')) : post a w' := by
  rcases hx with ⟨fault, w₁, hother, -⟩ | ⟨b, w₁, hother, hpost⟩
  · exact absurd (Prod.mk.inj (hrun.symm.trans hother)).1 (by simp)
  · rcases Prod.mk.inj (hrun.symm.trans hother) with ⟨hvalue, rfl⟩
    rw [Except.ok.inj hvalue]
    exact hpost

/-- What is known about a run in two ways. -/
theorem Yields.and {x : Access α} {failed' : Fault → World → Prop} {post post' : α → World → Prop}
    (hx : x.Yields w failed post) (hx' : x.Yields w failed' post') :
    x.Yields w (fun fault w' => failed fault w' ∧ failed' fault w')
      fun a w' => post a w' ∧ post' a w' := by
  rcases hx with ⟨fault, w', hrun, hf⟩ | ⟨a, w', hrun, hp⟩
  · exact Or.inl ⟨fault, w', hrun, hf, hx'.of_error hrun⟩
  · exact Or.inr ⟨a, w', hrun, hp, hx'.of_ok hrun⟩

end Access

end TableStore
