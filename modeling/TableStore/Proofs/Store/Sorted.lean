import Mathlib.Data.List.TakeWhile
import TableStore.Proofs.Sorting.Search
import TableStore.Proofs.Store.Calls
import TableStore.Store.Sorted

/-!
# The Sorted Store Is an Ordered Store

The sorted store keeps two things in step: the values under their keys, and the
keys in order. While both belong to the same entries, a search finds the place
where a key is or would be, so a new key goes where the order wants it, the key
that is taken out is the one whose value is gone, and a scan starts at the first
key with the prefix and loses none by stopping at the first one without it.
None of the faults of a store out of step can be met.

## Main definitions

* `SortedStore.Holds`: A sorted store in step with the entries of an ordered
  one.
* `SortedStore.Shows`: A sorted store with the same contents.

## Theorems

* `lowerPosition_lt`, `take_lowerPosition`, `listed_eq`: What is found by
  halving.
* `sortedBackend_answersAs`: The sorted store answers as the ordered one.
* `SortedStore.keeps_last_puts`: Every run of calls on a sorted store.
-/

namespace TableStore

namespace Heap

theorem lookupEntry_insert (key value k : Bytes) (entries : List Entry) :
    lookupEntry k (insert key value entries)
      = if k = key then some value else lookupEntry k entries := by
  induction entries with
  | nil => rfl
  | cons e entries ih =>
    rcases e with ⟨l, v⟩
    rw [insert]
    by_cases hl : key = l
    · rw [if_pos hl, lookupEntry, lookupEntry, hl]
      by_cases hk : k = l
      · rw [if_pos hk, if_pos hk]
      · rw [if_neg hk, if_neg hk, if_neg hk]
    · rw [if_neg hl, lookupEntry, lookupEntry, ih]
      by_cases hk : k = l
      · rw [if_pos hk, if_pos hk, if_neg (fun h => hl (h.symm.trans hk))]
      · rw [if_neg hk, if_neg hk]

theorem mem_insert {key value : Bytes} {entries : List Entry} {e : Entry}
    (h : e ∈ insert key value entries) : e.1 = key ∨ e ∈ entries := by
  induction entries with
  | nil =>
    rw [insert, List.mem_singleton] at h
    exact Or.inl (by rw [h])
  | cons f entries ih =>
    rcases f with ⟨l, v⟩
    rw [insert] at h
    split at h
    · rcases List.mem_cons.mp h with heq | hmem
      · exact Or.inl (by rw [heq])
      · exact Or.inr (List.mem_cons_of_mem _ hmem)
    · rcases List.mem_cons.mp h with heq | hmem
      · exact Or.inr (heq ▸ List.mem_cons_self)
      · exact (ih hmem).imp_right (List.mem_cons_of_mem _)

theorem distinct_insert {key value : Bytes} {entries : List Entry} (hd : KeysDistinct entries) :
    KeysDistinct (insert key value entries) := by
  induction entries with
  | nil => exact List.pairwise_singleton _ _
  | cons f entries ih =>
    rcases f with ⟨l, v⟩
    rcases List.pairwise_cons.mp hd with ⟨hhead, htail⟩
    rw [insert]
    by_cases hl : key = l
    · rw [if_pos hl]
      exact List.pairwise_cons.mpr ⟨fun e he => hl ▸ hhead e he, htail⟩
    · rw [if_neg hl]
      refine List.pairwise_cons.mpr ⟨fun e he => ?_, ih htail⟩
      rcases mem_insert he with hkey | hmem
      · rw [hkey]
        exact Ne.symm hl
      · exact hhead e hmem

end Heap

theorem distinct_eraseEntry {key : Bytes} {entries : List Entry} (hd : KeysDistinct entries) :
    KeysDistinct (eraseEntry key entries) :=
  hd.sublist (eraseEntry_sublist key entries)

theorem isSome_lookupEntry {key : Bytes} {entries : List Entry} :
    (lookupEntry key entries).isSome = true ↔ key ∈ entries.map Prod.fst := by
  induction entries with
  | nil => simp [lookupEntry]
  | cons e entries ih =>
    rcases e with ⟨k, v⟩
    rw [lookupEntry, List.map_cons, List.mem_cons, ← ih]
    by_cases hk : key = k
    · simp [hk]
    · simp [hk]

/-- The keys after one is given a value: the same, or with it in its place. -/
theorem keys_insertEntry {key : Bytes} (value : Bytes) {entries : List Entry}
    (ha : Ascending entries) :
    (insertEntry key value entries).map Prod.fst
      = if (lookupEntry key entries).isSome then entries.map Prod.fst
        else ((entries.map Prod.fst).takeWhile fun k => !decide (key < k))
          ++ key :: (entries.map Prod.fst).dropWhile fun k => !decide (key < k) := by
  induction entries with
  | nil => rfl
  | cons e entries ih =>
    rcases e with ⟨k, v⟩
    rcases List.pairwise_cons.mp ha with ⟨hhead, htail⟩
    rw [insertEntry, lookupEntry]
    by_cases hk : key = k
    · rw [if_pos hk, if_pos hk, hk]
      rfl
    · rw [if_neg hk, if_neg hk]
      by_cases hlt : key < k
      · -- The keys behind are above as well, so the key is new and goes first.
        have hnone : lookupEntry key entries = none :=
          lookupEntry_eq_none fun f hf heq =>
            List.lt_irrefl key (List.lt_trans hlt (heq ▸ hhead f hf))
        rw [if_pos hlt, hnone]
        simp [hlt]
      · rw [if_neg hlt, List.map_cons, ih htail]
        split <;> simp [hlt]

/-- The keys after one with a value is erased: those below it, and those
    behind it. -/
theorem keys_eraseEntry {key : Bytes} {entries : List Entry} (ha : Ascending entries)
    (hkey : (lookupEntry key entries).isSome = true) :
    (eraseEntry key entries).map Prod.fst
      = ((entries.map Prod.fst).takeWhile fun k => decide (k < key))
        ++ ((entries.map Prod.fst).dropWhile fun k => decide (k < key)).tail := by
  induction entries with
  | nil => exact absurd hkey (by simp [lookupEntry])
  | cons e entries ih =>
    rcases e with ⟨k, v⟩
    rcases List.pairwise_cons.mp ha with ⟨hhead, htail⟩
    rw [lookupEntry] at hkey
    rw [eraseEntry]
    by_cases hk : key = k
    · rw [if_pos hk, hk]
      simp [List.lt_irrefl]
    · rw [if_neg hk] at hkey ⊢
      -- The key stands further behind, so it is above the first one.
      rcases List.mem_map.mp (isSome_lookupEntry.mp hkey) with ⟨f, hf, hfkey⟩
      have hlt : k < key := hfkey ▸ hhead f hf
      rw [List.map_cons, List.map_cons, ih htail hkey]
      simp [hlt]

namespace SortedStore

/-- A sorted store in step with the entries of an ordered one: each key has its
    value, and the keys are listed in order. -/
structure Holds (s : SortedStore) (m : Memory) : Prop where
  ascending : Ascending m.entries
  distinct : KeysDistinct s.values.entries
  lookup : ∀ key, lookupEntry key s.values.entries = lookupEntry key m.entries
  keys : s.keys = m.entries.map Prod.fst
  usage : s.usage = m.usage

section Places

variable {key : Bytes} {keys : List Bytes}

/-- Once a key is not below another, no later one is. -/
theorem pairwise_not_below (ha : keys.Pairwise (· < ·)) :
    keys.Pairwise fun a b => (!decide (a < key)) = true → (!decide (b < key)) = true := by
  refine ha.imp fun {a b} hab h => ?_
  simp only [Bool.not_eq_true', decide_eq_false_iff_not] at h ⊢
  exact fun hb => h (List.lt_trans hab hb)

/-- Once a key is above another, all later ones are. -/
theorem pairwise_above (ha : keys.Pairwise (· < ·)) :
    keys.Pairwise fun a b => decide (key < a) = true → decide (key < b) = true := by
  refine ha.imp fun {a b} hab h => ?_
  simp only [decide_eq_true_eq] at h ⊢
  exact List.lt_trans h hab

theorem take_lowerPosition (ha : keys.Pairwise (· < ·)) :
    keys.take (lowerPosition key keys) = keys.takeWhile fun k => decide (k < key) := by
  rw [lowerPosition, Sorting.take_bisect (pairwise_not_below ha)]
  simp only [Bool.not_not]

theorem drop_lowerPosition (ha : keys.Pairwise (· < ·)) :
    keys.drop (lowerPosition key keys) = keys.dropWhile fun k => decide (k < key) := by
  rw [lowerPosition, Sorting.drop_bisect (pairwise_not_below ha)]
  simp only [Bool.not_not]

theorem listed_eq (ha : keys.Pairwise (· < ·)) :
    listed key keys = (keys.takeWhile fun k => !decide (key < k))
      ++ key :: keys.dropWhile fun k => !decide (key < k) := by
  rw [listed, upperPosition, Sorting.take_bisect (pairwise_above ha),
    Sorting.drop_bisect (pairwise_above ha)]

/-- A key that is listed is found before the end of the list. -/
theorem lowerPosition_lt (ha : keys.Pairwise (· < ·)) (hkey : key ∈ keys) :
    lowerPosition key keys < keys.length := by
  by_cases hlt : lowerPosition key keys < keys.length
  · exact hlt
  · have hnil : keys.drop (lowerPosition key keys) = [] := List.drop_eq_nil_of_le (by omega)
    rw [drop_lowerPosition ha, List.dropWhile_eq_nil_iff] at hnil
    exact absurd (of_decide_eq_true (hnil key hkey)) (List.lt_irrefl key)

end Places

/-- While every listed key has a value, the first keys that carry a prefix are
    found with theirs. -/
theorem walk_eq {start : Bytes} {values entries : List Entry}
    (h : ∀ e ∈ entries, lookupEntry e.1 values = some e.2) :
    walk start values (entries.map Prod.fst)
      = .ok (entries.takeWhile fun e => Bytes.carries start e.1) := by
  induction entries with
  | nil => rfl
  | cons e entries ih =>
    rw [List.map_cons, walk]
    by_cases hc : Bytes.carries start e.1 = true
    · rw [if_pos hc, h e List.mem_cons_self, ih fun f hf => h f (List.mem_cons_of_mem e hf),
        List.takeWhile_cons_of_pos (by exact hc)]
      rfl
    · rw [if_neg hc, List.takeWhile_cons_of_neg (by exact hc)]

namespace Holds

variable {s : SortedStore} {m : Memory}

theorem keys_ascending (h : s.Holds m) : s.keys.Pairwise (· < ·) := by
  rw [h.keys, List.pairwise_map]
  exact h.ascending

/-- The two parts of a store in step have the same entries. -/
theorem perm (h : s.Holds m) : s.values.entries.Perm m.entries :=
  h.distinct.perm h.ascending.distinct h.lookup

theorem contains_eq (h : s.Holds m) (key : Bytes) :
    s.contains key = (lookupEntry key m.entries).isSome :=
  congrArg Option.isSome (h.lookup key)

theorem get (h : s.Holds m) (key : Bytes) : (s.get key).2.Holds (m.lookup key).2 where
  ascending := h.ascending
  distinct := h.distinct
  lookup := h.lookup
  keys := h.keys
  usage := by
    simp only [SortedStore.get, Memory.lookup, h.usage]

theorem put (h : s.Holds m) (key value : Bytes) : (s.put key value).Holds (m.insert key value) where
  ascending := ascending_insertEntry h.ascending
  distinct := Heap.distinct_insert h.distinct
  lookup k := by
    simp only [SortedStore.put, Memory.insert]
    rw [Heap.lookupEntry_insert, lookupEntry_insertEntry, h.lookup k]
  keys := by
    simp only [SortedStore.put, Memory.insert]
    rw [keys_insertEntry value h.ascending, listed_eq h.keys_ascending, h.contains_eq, h.keys]
  usage := by
    simp only [SortedStore.put, Memory.insert, h.usage]

/-- A key with a value is listed, so its place is found, and the key that is
    taken out of the list is the one whose value is gone. -/
theorem delete (h : s.Holds m) (key : Bytes) :
    (s.delete key).1 = .ok () ∧ (s.delete key).2.Holds (m.erase key) := by
  have hascending : Ascending (eraseEntry key m.entries) := ascending_eraseEntry h.ascending
  rw [SortedStore.delete]
  by_cases hkey : s.contains key = true
  · have hsome : (lookupEntry key m.entries).isSome = true := by
      rw [← h.contains_eq]
      exact hkey
    have hlisted : key ∈ s.keys := h.keys ▸ isSome_lookupEntry.mp hsome
    rw [if_pos hkey, if_pos (lowerPosition_lt h.keys_ascending hlisted)]
    refine ⟨rfl, hascending, distinct_eraseEntry h.distinct, fun k => ?_, ?_, ?_⟩
    · simp only [Memory.erase]
      rw [lookupEntry_eraseEntry h.distinct, lookupEntry_eraseEntry h.ascending.distinct,
        h.lookup k]
    · simp only [Memory.erase]
      rw [keys_eraseEntry h.ascending hsome, List.eraseIdx_eq_take_drop_succ, ← List.tail_drop,
        take_lowerPosition h.keys_ascending, drop_lowerPosition h.keys_ascending, h.keys]
    · simp only [Memory.erase, h.usage]
  · -- A key without a value is not among the entries.
    have hnone : lookupEntry key m.entries = none := by
      rw [← Option.not_isSome_iff_eq_none, ← h.contains_eq]
      exact hkey
    have hsame : eraseEntry key m.entries = m.entries := by
      refine ascending_ext hascending h.ascending fun k => ?_
      rw [lookupEntry_eraseEntry h.ascending.distinct]
      split
      · rename_i hk
        rw [hk, hnone]
      · rfl
    rw [if_neg hkey]
    refine ⟨rfl, hascending, h.distinct, fun k => ?_, ?_, ?_⟩
    · simp only [Memory.erase, hsame, h.lookup k]
    · simp only [Memory.erase, hsame, h.keys]
    · simp only [Memory.erase, h.usage]

theorem scan (h : s.Holds m) (start : Bytes) :
    (s.scan start).1 = .ok (m.scan start).1 ∧ (s.scan start).2.Holds (m.scan start).2 := by
  constructor
  · simp only [SortedStore.scan, Memory.scan, scanEntries]
    rw [drop_lowerPosition h.keys_ascending, h.keys, List.dropWhile_map]
    refine walk_eq fun e he => ?_
    rw [h.lookup, ← h.ascending.distinct.mem_iff]
    exact (List.dropWhile_sublist _).mem he
  · exact ⟨h.ascending, h.distinct, h.lookup, h.keys, by
      simp only [SortedStore.scan, Memory.scan, h.usage]⟩

end Holds

theorem holds_empty : ({} : SortedStore).Holds Memory.empty :=
  ⟨List.Pairwise.nil, List.Pairwise.nil, fun _ => rfl, rfl, rfl⟩

end SortedStore

/-- The sorted store answers as the ordered one, and counts as it does. -/
theorem sortedBackend_answersAs : sortedBackend.AnswersAs memoryBackend SortedStore.Holds where
  get h key := ⟨congrArg Except.ok (h.lookup key), h.get key⟩
  put h key value := ⟨rfl, h.put key value⟩
  delete h key := ⟨(h.delete key).1, (h.delete key).2⟩
  scan h start := ⟨(h.scan start).1, (h.scan start).2⟩
  size h := h.perm.length_eq

namespace SortedStore

/-- A sorted store that shows contents: it is in step with their entries. -/
def Shows (s : SortedStore) (c : Contents) : Prop :=
  Relation.Comp Holds (fun m c => m.entries = c.entries) s c

/-- The sorted store answers as the contents that it shows. -/
theorem answersAs_contents : sortedBackend.AnswersAs Contents.backend Shows :=
  sortedBackend_answersAs.trans memoryBackend_answersAs

namespace Shows

variable {s : SortedStore} {c : Contents}

theorem keys_ascending (h : s.Shows c) : s.keys.Pairwise (· < ·) := by
  rcases h with ⟨m, hm, -⟩
  exact hm.keys_ascending

theorem distinct (h : s.Shows c) : KeysDistinct s.values.entries := by
  rcases h with ⟨m, hm, -⟩
  exact hm.distinct

/-- The keys in order are those that have a value, each once. -/
theorem keys_perm (h : s.Shows c) : s.keys.Perm (s.values.entries.map Prod.fst) := by
  rcases h with ⟨m, hm, -⟩
  rw [hm.keys]
  exact (hm.perm.map Prod.fst).symm

theorem lookup (h : s.Shows c) (key : Bytes) : lookupEntry key s.values.entries = c.get? key := by
  rcases h with ⟨m, hm, hc⟩
  rw [hm.lookup key, hc]
  rfl

/-- A sorted store that is given entries shows what a run of puts leaves. -/
theorem foldl_put (h : s.Shows c) (data : List Entry) :
    (data.foldl (fun s e => s.put e.1 e.2) s).Shows
      (StoreCall.leaveAll (StoreCall.puts data) c) := by
  induction data generalizing s c with
  | nil => exact h
  | cons e data ih => exact ih (answersAs_contents.put h e.1 e.2).state

end Shows

theorem shows_ofList (data : List Entry) :
    (ofList data).Shows (StoreCall.leaveAll (StoreCall.puts data) .empty) :=
  Shows.foldl_put ⟨Memory.empty, holds_empty, rfl⟩ data

/-- A run of calls on a sorted store that was given some entries first: it
    succeeds, and leaves what shows the contents that the calls leave. -/
theorem run_calls (data : List Entry) (calls : List StoreCall) (ids : IdSource)
    (notes : List String) :
    ∃ answers s, (Access.mapList StoreCall.ask calls).run sortedBackend ⟨ofList data, ids, notes⟩
        = (.ok answers, ⟨s, ids, notes⟩)
      ∧ StoreCall.AllAnswered (StoreCall.puts data) calls answers
      ∧ s.Shows (StoreCall.leaveAll (StoreCall.puts data ++ calls) .empty) := by
  rcases StoreCall.mapList_ask_on (StoreCall.puts data) calls ids notes with
    ⟨answers, hcontents, hanswers⟩
  have hstart : (Surroundings.mk (ofList data) ids notes).Alike Shows
      ⟨StoreCall.leaveAll (StoreCall.puts data) .empty, ids, notes⟩ :=
    ⟨shows_ofList data, rfl, rfl⟩
  have hrun := answersAs_contents.run (Access.mapList StoreCall.ask calls) hstart
  change SameAnswer _ _ (Access.on _ _) at hrun
  rw [hcontents] at hrun
  rcases hrun.eq_ok with ⟨s, hs, hshows⟩
  exact ⟨answers, s, hs, hanswers, hshows⟩

/-- A run of calls on a sorted store that was given some entries first. No call
    fails, and each is answered as it has to be after those before it: with the
    last put of a key that no deletion followed, and with exactly the keys that
    carry a prefix, in ascending order. The keys stay in strictly ascending
    order and are those that have a value. -/
theorem keeps_last_puts (data : List Entry) (calls : List StoreCall) (ids : IdSource)
    (notes : List String) :
    ∃ answers s, (Access.mapList StoreCall.ask calls).run sortedBackend ⟨ofList data, ids, notes⟩
        = (.ok answers, ⟨s, ids, notes⟩)
      ∧ StoreCall.AllAnswered (StoreCall.puts data) calls answers
      ∧ s.keys.Pairwise (· < ·)
      ∧ s.keys.Perm (s.values.entries.map Prod.fst)
      ∧ ∀ key value, (s.get key).1 = some value
          ↔ StoreCall.LastPut (StoreCall.puts data ++ calls) key value := by
  rcases run_calls data calls ids notes with ⟨answers, s, hs, hanswers, hshows⟩
  refine ⟨answers, s, hs, hanswers, hshows.keys_ascending, hshows.keys_perm, fun key value => ?_⟩
  rw [SortedStore.get, hshows.lookup key]
  exact StoreCall.get?_leaveAll _ key value

end SortedStore

end TableStore
