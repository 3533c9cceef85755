import TableStore.Proofs.Store.Run

/-!
# What a Dialogue May Do

Many facts about a run do not depend on what the store holds, only on what a
dialogue is able to ask for: it writes to certain keys, with values of a
certain form, and fails in certain ways. A discipline says which requests are
allowed. Whether a dialogue obeys it is settled by going through the dialogue
once, for every answer the store could give; the answers may be assumed to be
of the form that everything in the store has.

`Obeys.run` turns this into an invariant. It holds for every run, also for one
that fails half way, because it is kept by every single change.

## Main definitions

* `Discipline`: What a dialogue may meet and may do.
* `Access.Obeys`: A dialogue that keeps to a discipline.

## Theorems

* `Obeys.bind`: One dialogue after the other.
* `Obeys.both`: Two disciplines at once.
* `Obeys.run`: What every allowed change keeps, every run keeps.
-/

namespace TableStore

/-- What a dialogue may meet in the store, may change in it, and may fail
    with. -/
structure Discipline where
  meets : Bytes → Bytes → Prop
  puts : Bytes → Bytes → Prop
  deletes : Bytes → Prop
  fails : Fault → Prop

/-- What two disciplines both allow. -/
def Discipline.both (d d' : Discipline) : Discipline where
  meets key value := d.meets key value ∧ d'.meets key value
  puts key value := d.puts key value ∧ d'.puts key value
  deletes key := d.deletes key ∧ d'.deletes key
  fails fault := d.fails fault ∧ d'.fails fault

namespace Access

variable {α β : Type} {d : Discipline}

/-- A dialogue that keeps to a discipline, whatever the store answers within
    it, and whose value has a property. A draw of an id may fail in any way. -/
def Obeys (d : Discipline) (post : α → Prop) : Access α → Prop
  | done a => post a
  | fail fault => d.fails fault
  | get key next => ∀ answer, (∀ v, answer = some v → d.meets key v) → (next answer).Obeys d post
  | put key value next => d.puts key value ∧ (next ()).Obeys d post
  | delete key next => d.deletes key ∧ (next ()).Obeys d post
  | scan start next =>
    ∀ found, (∀ e ∈ found, Bytes.carries start e.1 = true ∧ d.meets e.1 e.2) →
      (next found).Obeys d post
  | size next => ∀ n, (next n).Obeys d post
  | newId _ next => (∀ fault, d.fails fault) ∧ ∀ id, (next id).Obeys d post
  | note _ next => (next ()).Obeys d post

/-- One dialogue after the other. -/
theorem Obeys.bind {x : Access α} {f : α → Access β} {mid : α → Prop} {post : β → Prop}
    (hx : x.Obeys d mid) (hf : ∀ a, mid a → (f a).Obeys d post) : (x >>= f).Obeys d post := by
  change (x.bind f).Obeys d post
  induction x with
  | done a => exact hf a hx
  | fail fault => exact hx
  | get key next ih => exact fun answer ha => ih answer (hx answer ha)
  | put key value next ih => exact ⟨hx.1, ih () hx.2⟩
  | delete key next ih => exact ⟨hx.1, ih () hx.2⟩
  | scan start next ih => exact fun found hfound => ih found (hx found hfound)
  | size next ih => exact fun n => ih n (hx n)
  | newId table next ih => exact ⟨hx.1, fun id => ih id (hx.2 id)⟩
  | note line next ih => exact ih () hx

theorem Obeys.imp {x : Access α} {post post' : α → Prop} (hx : x.Obeys d post)
    (h : ∀ a, post a → post' a) : x.Obeys d post' := by
  induction x with
  | done a => exact h a hx
  | fail fault => exact hx
  | get key next ih => exact fun answer ha => ih answer (hx answer ha)
  | put key value next ih => exact ⟨hx.1, ih () hx.2⟩
  | delete key next ih => exact ⟨hx.1, ih () hx.2⟩
  | scan start next ih => exact fun found hfound => ih found (hx found hfound)
  | size next ih => exact fun n => ih n (hx n)
  | newId table next ih => exact ⟨hx.1, fun id => ih id (hx.2 id)⟩
  | note line next ih => exact ih () hx

theorem obeys_pure {post : α → Prop} {a : α} (h : post a) : (pure a : Access α).Obeys d post :=
  h

theorem obeys_fail {post : α → Prop} {fault : Fault} (h : d.fails fault) :
    (fail fault : Access α).Obeys d post :=
  h

theorem obeys_lift {post : α → Prop} {r : Except Fault α} (hok : ∀ a, r = .ok a → post a)
    (herror : ∀ fault, r = .error fault → d.fails fault) : (lift r).Obeys d post := by
  cases r with
  | ok a => exact hok a rfl
  | error fault => exact herror fault rfl

theorem obeys_fetch (key : Bytes) :
    (fetch key).Obeys d fun answer => ∀ v, answer = some v → d.meets key v :=
  fun _ h => h

theorem obeys_store {key value : Bytes} (h : d.puts key value) :
    (store key value).Obeys d fun _ => True :=
  ⟨h, trivial⟩

theorem obeys_remove {key : Bytes} (h : d.deletes key) : (remove key).Obeys d fun _ => True :=
  ⟨h, trivial⟩

theorem obeys_entries (start : Bytes) :
    (entries start).Obeys d fun found =>
      ∀ e ∈ found, Bytes.carries start e.1 = true ∧ d.meets e.1 e.2 :=
  fun _ h => h

theorem obeys_keyCount : keyCount.Obeys d fun _ => True :=
  fun _ => trivial

theorem obeys_drawId (table : String) (h : ∀ fault, d.fails fault) :
    (drawId table).Obeys d fun _ => True :=
  ⟨h, fun _ => trivial⟩

theorem obeys_log (line : String) : (log line).Obeys d fun _ => True :=
  trivial

theorem obeys_forList {γ : Type} {f : γ → Access Unit} {s : List γ}
    (h : ∀ a ∈ s, (f a).Obeys d fun _ => True) : (forList f s).Obeys d fun _ => True := by
  induction s with
  | nil => exact trivial
  | cons a s ih =>
    exact (h a List.mem_cons_self).bind fun _ _ => ih fun b hb => h b (List.mem_cons_of_mem a hb)

theorem obeys_mapList {γ : Type} {f : γ → Access β} {post : β → Prop} {s : List γ}
    (h : ∀ a ∈ s, (f a).Obeys d post) : (mapList f s).Obeys d fun bs => ∀ b ∈ bs, post b := by
  induction s with
  | nil => exact fun b hb => absurd hb (by simp)
  | cons a s ih =>
    refine (h a List.mem_cons_self).bind fun b hb => ?_
    refine (ih fun e he => h e (List.mem_cons_of_mem a he)).bind fun bs hbs => ?_
    refine obeys_pure fun e he => ?_
    rcases List.mem_cons.mp he with rfl | hmem
    · exact hb
    · exact hbs e hmem

/-- A dialogue that keeps to two disciplines keeps to both at once. -/
theorem Obeys.both {d' : Discipline} {x : Access α} {post post' : α → Prop} (hx : x.Obeys d post)
    (hx' : x.Obeys d' post') : x.Obeys (d.both d') fun a => post a ∧ post' a := by
  induction x with
  | done a => exact ⟨hx, hx'⟩
  | fail fault => exact ⟨hx, hx'⟩
  | get key next ih =>
    exact fun answer ha =>
      ih answer (hx answer fun v hv => (ha v hv).1) (hx' answer fun v hv => (ha v hv).2)
  | put key value next ih => exact ⟨⟨hx.1, hx'.1⟩, ih () hx.2 hx'.2⟩
  | delete key next ih => exact ⟨⟨hx.1, hx'.1⟩, ih () hx.2 hx'.2⟩
  | scan start next ih =>
    exact fun found hfound =>
      ih found (hx found fun e he => ⟨(hfound e he).1, (hfound e he).2.1⟩)
        (hx' found fun e he => ⟨(hfound e he).1, (hfound e he).2.2⟩)
  | size next ih => exact fun n => ih n (hx n) (hx' n)
  | newId table next ih =>
    exact ⟨fun fault => ⟨hx.1 fault, hx'.1 fault⟩, fun id => ih id (hx.2 id) (hx'.2 id)⟩
  | note line next ih => exact ih () hx hx'

/-- What every allowed change keeps, every run keeps. -/
theorem Obeys.run {x : Access α} {post : α → Prop} (hx : x.Obeys d post)
    (invariant : Contents → Prop)
    (hmeets : ∀ c, invariant c → ∀ k v, c.get? k = some v → d.meets k v)
    (hputs : ∀ c k v, invariant c → d.puts k v → invariant (c.insert k v))
    (hdeletes : ∀ c k, invariant c → d.deletes k → invariant (c.erase k))
    (w : World) (hw : invariant w.store) :
    invariant (x.on w).2.store ∧ (∀ a, (x.on w).1 = .ok a → post a)
      ∧ ∀ fault, (x.on w).1 = .error fault → d.fails fault := by
  -- The answers of the store are of the form that a dialogue may assume,
  -- because everything in the store is as long as the invariant holds.
  induction x generalizing w with
  | done a =>
    refine ⟨hw, fun b hb => ?_, fun fault h => absurd h (by simp [on, Access.run])⟩
    rw [← Except.ok.inj hb]
    exact hx
  | fail fault =>
    refine ⟨hw, fun b hb => absurd hb (by simp [on, Access.run]), fun f h => ?_⟩
    rw [← Except.error.inj h]
    exact hx
  | get key next ih =>
    exact ih _ (hx _ fun v hv => hmeets _ hw key v hv) w hw
  | put key value next ih =>
    exact ih () hx.2 { w with store := w.store.insert key value } (hputs _ _ _ hw hx.1)
  | delete key next ih =>
    exact ih () hx.2 { w with store := w.store.erase key } (hdeletes _ _ hw hx.1)
  | scan start next ih =>
    refine ih _ (hx _ fun e he => ?_) w hw
    rw [scanEntries_eq_filter w.store.ascending] at he
    rcases List.mem_filter.mp he with ⟨hmem, hcarries⟩
    exact ⟨hcarries, hmeets _ hw _ _ (Contents.mem_entries.mp hmem)⟩
  | size next ih => exact ih _ (hx _) w hw
  | newId table next ih =>
    simp only [on, Access.run]
    rcases w.ids.next table with ⟨fault | id, after⟩
    · exact ⟨hw, fun b hb => absurd hb (by simp), fun f _ => hx.1 f⟩
    · exact ih id (hx.2 id) { w with ids := after } hw
  | note line next ih => exact ih () hx { w with notes := line :: w.notes } hw

end Access

end TableStore
