import Mathlib.Data.List.Induction
import TableStore.Proofs.Store.Run

/-!
# Runs of Calls

What a store has to answer can be said without a store. A key has the value of
the last put of it that no deletion has followed, and a scan finds exactly the
keys with the prefix that have a value. Whether a run of calls was answered
like that depends on the calls alone, one after the other.

Contents answer every run of calls like that, which makes them the measure for
all other stores.

## Main definitions

* `StoreCall`, `StoreAnswer`: A call of a store, and what it is answered.
* `StoreCall.ask`: A call as a dialogue.
* `StoreCall.LastPut`: What a key was last given.
* `StoreCall.puts`: Calls that fill a store.
* `StoreCall.AllAnswered`: A run of calls and the answers it has to be given.

## Theorems

* `lastPut_concat`: What one more call does to what a key was last given.
* `get?_leaveAll`: Contents keep what a key was last given.
* `mapList_ask_on`: A run of calls on contents, and that all are answered.
-/

namespace TableStore

/-- A call of a store. -/
inductive StoreCall where
  | get (key : Bytes)
  | put (key value : Bytes)
  | delete (key : Bytes)
  | scan (start : Bytes)

/-- What a store answers to a call. -/
inductive StoreAnswer where
  | value (found : Option Bytes)
  | entries (found : List Entry)
  | done

namespace StoreCall

/-- A call as a dialogue. -/
def ask : StoreCall → Access StoreAnswer
  | get key => StoreAnswer.value <$> Access.fetch key
  | put key value => (fun _ => StoreAnswer.done) <$> Access.store key value
  | delete key => (fun _ => StoreAnswer.done) <$> Access.remove key
  | scan start => StoreAnswer.entries <$> Access.entries start

/-- Whether a call gives a key a value or takes it away. -/
def changes (key : Bytes) : StoreCall → Bool
  | put k _ => decide (k = key)
  | delete k => decide (k = key)
  | get _ => false
  | scan _ => false

/-- What a key was last given: among the calls is a put of the value, and none
    behind it changes the key. -/
def LastPut (calls : List StoreCall) (key value : Bytes) : Prop :=
  ∃ before after, calls = before ++ put key value :: after
    ∧ ∀ call ∈ after, call.changes key = false

/-- What a call has to be answered after earlier ones. -/
def Answered (earlier : List StoreCall) : StoreCall → StoreAnswer → Prop
  | get key, .value found => ∀ value, found = some value ↔ LastPut earlier key value
  | scan start, .entries found => Ascending found ∧ ∀ key value,
      (key, value) ∈ found ↔ Bytes.carries start key = true ∧ LastPut earlier key value
  | put _ _, .done => True
  | delete _, .done => True
  | _, _ => False

/-- Calls after earlier ones, with what each of them has to be answered. -/
def AllAnswered (earlier : List StoreCall) : List StoreCall → List StoreAnswer → Prop
  | [], [] => True
  | call :: calls, answer :: answers =>
    call.Answered earlier answer ∧ AllAnswered (earlier ++ [call]) calls answers
  | _, _ => False

/-- The last call decides if it changes the key, and else nothing has
    changed. -/
theorem lastPut_concat {calls : List StoreCall} {call : StoreCall} {key value : Bytes} :
    LastPut (calls ++ [call]) key value
      ↔ call = put key value ∨ call.changes key = false ∧ LastPut calls key value := by
  constructor
  · intro h
    rcases h with ⟨before, after, hcalls, hafter⟩
    -- The last put is the last call, or it is followed by that call.
    rcases List.eq_nil_or_concat after with hnil | ⟨after', last, hconcat⟩
    · rw [hnil] at hcalls
      exact Or.inl (List.append_singleton_inj.mp hcalls).2
    · rw [hconcat, List.concat_eq_append, ← List.cons_append, ← List.append_assoc] at hcalls
      rcases List.append_singleton_inj.mp hcalls with ⟨hcalls, hlast⟩
      rw [hconcat, List.concat_eq_append] at hafter
      refine Or.inr ⟨?_, before, after', hcalls, fun c hc => ?_⟩
      · rw [hlast]
        exact hafter last (List.mem_append_right _ List.mem_cons_self)
      · exact hafter c (List.mem_append_left _ hc)
  · intro h
    rcases h with hput | ⟨hcall, before, after, hcalls, hafter⟩
    · exact ⟨calls, [], by rw [hput], fun c hc => absurd hc List.not_mem_nil⟩
    · refine ⟨before, after ++ [call], by rw [hcalls, List.append_assoc, List.cons_append], ?_⟩
      intro c hc
      rcases List.mem_append.mp hc with hmem | hmem
      · exact hafter c hmem
      · rw [List.mem_singleton.mp hmem]
        exact hcall

/-- Calls that give each key its value in turn. -/
def puts (data : List Entry) : List StoreCall :=
  data.map fun e => put e.1 e.2

/-- The contents that a call leaves. -/
def leave : StoreCall → Contents → Contents
  | put key value, c => c.insert key value
  | delete key, c => c.erase key
  | get _, c => c
  | scan _, c => c

/-- What contents answer to a call. -/
def answer : StoreCall → Contents → StoreAnswer
  | get key, c => .value (c.get? key)
  | scan start, c => .entries (c.entries.filter fun e => Bytes.carries start e.1)
  | put _ _, _ => .done
  | delete _, _ => .done

/-- The contents that calls leave, one after the other. -/
def leaveAll (calls : List StoreCall) (c : Contents) : Contents :=
  calls.foldl (fun c call => call.leave c) c

theorem leaveAll_concat (calls : List StoreCall) (call : StoreCall) (c : Contents) :
    leaveAll (calls ++ [call]) c = call.leave (leaveAll calls c) := by
  rw [leaveAll, List.foldl_append]
  rfl

/-- What a call leaves under a key. -/
theorem get?_leave (call : StoreCall) (c : Contents) (key value : Bytes) :
    (call.leave c).get? key = some value
      ↔ call = put key value ∨ call.changes key = false ∧ c.get? key = some value := by
  cases call with
  | get k => simp [leave, changes]
  | scan start => simp [leave, changes]
  | put k v =>
    rw [leave, Contents.get?_insert, changes]
    by_cases hk : key = k
    · simp [hk]
    · simp [hk, Ne.symm hk]
  | delete k =>
    rw [leave, Contents.get?_erase, changes]
    by_cases hk : key = k
    · simp [hk]
    · simp [hk, Ne.symm hk]

/-- Contents keep what a key was last given. -/
theorem get?_leaveAll (calls : List StoreCall) (key value : Bytes) :
    (leaveAll calls .empty).get? key = some value ↔ LastPut calls key value := by
  induction calls using List.reverseRecOn with
  | nil =>
    have hnone : (leaveAll [] .empty).get? key = none := rfl
    rw [hnone]
    refine ⟨fun h => absurd h (by simp), fun h => ?_⟩
    rcases h with ⟨before, after, hcalls, -⟩
    exact absurd hcalls (by simp)
  | append_singleton calls call ih =>
    rw [leaveAll_concat, get?_leave, lastPut_concat, ih]

/-- Contents give the answer to a call that it has to be given. -/
theorem answered_answer {earlier : List StoreCall} {c : Contents}
    (h : ∀ key value, c.get? key = some value ↔ LastPut earlier key value) (call : StoreCall) :
    call.Answered earlier (call.answer c) := by
  cases call with
  | get key => exact fun value => h key value
  | put key value => trivial
  | delete key => trivial
  | scan start =>
    refine ⟨c.ascending.sublist List.filter_sublist, fun key value => ?_⟩
    rw [List.mem_filter, Contents.mem_entries, h key value, and_comm]

theorem ask_on (call : StoreCall) (c : Contents) (ids : IdSource) (notes : List String) :
    call.ask.on ⟨c, ids, notes⟩ = (.ok (call.answer c), ⟨call.leave c, ids, notes⟩) := by
  cases call with
  | get key => rfl
  | put key value => rfl
  | delete key => rfl
  | scan start => exact (Access.looks_entries start ⟨c, ids, notes⟩).map StoreAnswer.entries

/-- A run of calls on contents: all are answered as they have to be. -/
theorem mapList_ask_on (earlier calls : List StoreCall) (ids : IdSource) (notes : List String) :
    ∃ answers, (Access.mapList ask calls).on ⟨leaveAll earlier .empty, ids, notes⟩
        = (.ok answers, ⟨leaveAll (earlier ++ calls) .empty, ids, notes⟩)
      ∧ AllAnswered earlier calls answers := by
  induction calls generalizing earlier with
  | nil =>
    rw [List.append_nil]
    exact ⟨[], rfl, trivial⟩
  | cons call calls ih =>
    rcases ih (earlier ++ [call]) with ⟨answers, hrun, hanswers⟩
    rw [leaveAll_concat, List.append_assoc] at hrun
    refine ⟨call.answer (leaveAll earlier .empty) :: answers, ?_, ?_, hanswers⟩
    · rw [Access.mapList, Access.run_bind_ok (ask_on call _ ids notes), Access.run_bind_ok hrun]
      rfl
    · exact answered_answer (get?_leaveAll earlier) call

end StoreCall

end TableStore
