import TableStore.Proofs.Store.Range
import TableStore.Proofs.Store.Sorted

/-!
# An Adapted Database Is an Ordered Store

A database is only asked to keep what it is given and to leave out nothing that
a scan asks for. In which order it returns the pairs, and which others it adds,
makes no difference after filtering and sorting.

A scan of a range leaves out no key with the prefix, since the range of a prefix
has them all.

## Main definitions

* `ListsAll`: A list with every pair of the wanted keys, each once.
* `Database.Keeps`: A database that keeps what it is given.
* `Heap.Keeps`: The values that a heap keeps.

## Theorems

* `Database.Keeps.answersAs`: An adapted database answers as its contents.
* `Heap.scanningPrefixes_keeps`, `Heap.scanningRanges_keeps`: Two databases that
  keep what they are given.
-/

namespace TableStore

/-- A list has every pair of the wanted keys, each once. Of other keys it may
    have any. -/
structure ListsAll (wanted : Bytes → Bool) (values : Bytes → Option Bytes) (found : List Entry) :
    Prop where
  mem : ∀ key value, wanted key = true → ((key, value) ∈ found ↔ values key = some value)
  nodup : (found.filter fun e => wanted e.1).Nodup

namespace ListsAll

variable {wanted wanted' : Bytes → Bool} {values : Bytes → Option Bytes} {found : List Entry}

/-- A list with every pair of some keys has every pair of fewer. -/
theorem mono (h : ListsAll wanted values found)
    (hsub : ∀ key, wanted' key = true → wanted key = true) : ListsAll wanted' values found where
  mem key value hkey := h.mem key value (hsub key hkey)
  nodup := by
    have hsame : (found.filter fun e => wanted' e.1)
        = (found.filter fun e => wanted e.1).filter fun e => wanted' e.1 := by
      rw [List.filter_filter]
      refine List.filter_congr fun e _ => ?_
      cases hkey : wanted' e.1 with
      | true => rw [hsub e.1 hkey, Bool.and_true]
      | false => rw [Bool.false_and]
    rw [hsame]
    exact h.nodup.filter _

/-- What is found of the wanted keys is what contents with the same values have
    of them. -/
theorem perm {c : Contents} (h : ListsAll wanted c.get? found) :
    (found.filter fun e => wanted e.1).Perm (c.entries.filter fun e => wanted e.1) := by
  have hnodup : (c.entries.filter fun e => wanted e.1).Nodup :=
    c.ascending.distinct.nodup.filter _
  refine (List.perm_ext_iff_of_nodup h.nodup hnodup).mpr fun e => ?_
  rcases e with ⟨key, value⟩
  rw [List.mem_filter, List.mem_filter]
  refine and_congr_left fun hkey => ?_
  rw [h.mem key value hkey, Contents.mem_entries]

end ListsAll

/-- Whether a scan leaves out none of the keys that it is asked for. -/
def DatabaseScan.FindsAll {σ : Type} (s : σ) (values : Bytes → Option Bytes) :
    DatabaseScan σ → Prop
  | .byPrefix scan => ∀ start, ListsAll (Bytes.carries start) values (scan start s)
  | .byRange scan => ∀ start stop, ListsAll (Bytes.inRange start stop) values (scan start stop s)

/-- A database keeps what it is given. In a state that holds values, a key has
    its value, a change leads to a state that holds the changed values, and a
    scan leaves nothing out. -/
structure Database.Keeps {σ : Type} (db : Database σ) (holds : σ → (Bytes → Option Bytes) → Prop) :
    Prop where
  get : ∀ {s values}, holds s values → ∀ key, db.get key s = values key
  put : ∀ {s values}, holds s values → ∀ key value,
    holds (db.put key value s) (Function.update values key (some value))
  delete : ∀ {s values}, holds s values → ∀ key,
    holds (db.delete key s) (Function.update values key none)
  scan : ∀ {s values}, holds s values → db.scan.FindsAll s values

/-- What a scan returns for a prefix has every key with the prefix. -/
theorem Database.candidates_listsAll {σ : Type} {db : Database σ} {s : σ}
    {values : Bytes → Option Bytes} (h : db.scan.FindsAll s values) (start : Bytes) :
    ListsAll (Bytes.carries start) values (db.candidates start s) := by
  rw [Database.candidates]
  rcases hscan : db.scan with scan | scan
  · rw [hscan] at h
    exact h start
  · rw [hscan] at h
    exact (h start (prefixUpperBound start)).mono fun key => Bytes.inRange_iff_carries.mpr

/-- Sorting entries with distinct keys puts the keys in strictly ascending
    order. -/
theorem ascending_mergeSort {entries : List Entry} (hd : KeysDistinct entries) :
    Ascending (entries.mergeSort fun a b => decide (a.1 ≤ b.1)) := by
  have hsorted : (entries.mergeSort fun a b => decide (a.1 ≤ b.1)).Pairwise fun a b =>
      decide (a.1 ≤ b.1) = true := by
    refine List.pairwise_mergeSort (fun a b c hab hbc => ?_) (fun a b => ?_) entries
    · rw [decide_eq_true_eq] at hab hbc ⊢
      exact List.le_trans hab hbc
    · rw [Bool.or_eq_true, decide_eq_true_eq, decide_eq_true_eq]
      exact List.le_total a.1 b.1
  have hdistinct := (List.mergeSort_perm entries fun a b => decide (a.1 ≤ b.1)).symm.pairwise hd
    fun hne => hne.symm
  -- Sorting orders the keys weakly, and no two of them are the same.
  refine (hsorted.and hdistinct).imp fun {a b} hab => ?_
  rcases Bytes.lt_trichotomy a.1 b.1 with hlt | heq | hgt
  · exact hlt
  · exact absurd heq hab.2
  · exact absurd hgt (List.not_lt.mpr (of_decide_eq_true hab.1))

namespace Database.Keeps

variable {σ : Type} {db : Database σ} {holds : σ → (Bytes → Option Bytes) → Prop}

/-- An adapted database answers as the contents that it holds. -/
theorem answersAs (h : db.Keeps holds) :
    (adapt db).AnswersAs Contents.backend fun s c => holds s c.get? where
  get hs key := ⟨congrArg Except.ok (h.get hs key), hs⟩
  put {s c} hs key value := by
    refine ⟨rfl, ?_⟩
    have hvalues : (c.insert key value).get? = Function.update c.get? key (some value) := by
      funext k
      rw [Contents.get?_insert, Function.update_apply]
    change holds _ (c.insert key value).get?
    rw [hvalues]
    exact h.put hs key value
  delete {s c} hs key := by
    refine ⟨rfl, ?_⟩
    have hvalues : (c.erase key).get? = Function.update c.get? key none := by
      funext k
      rw [Contents.get?_erase, Function.update_apply]
    change holds _ (c.erase key).get?
    rw [hvalues]
    exact h.delete hs key
  scan {s c} hs start := by
    refine ⟨congrArg Except.ok ?_, hs⟩
    have hperm := (candidates_listsAll (h.scan hs) start).perm
    have hascending : Ascending (c.entries.filter fun e => Bytes.carries start e.1) :=
      c.ascending.sublist List.filter_sublist
    have hdistinct := hperm.symm.pairwise hascending.distinct fun hne => hne.symm
    rw [scanEntries_eq_filter c.ascending]
    exact (ascending_mergeSort hdistinct).eq_of_perm hascending
      ((List.mergeSort_perm _ _).trans hperm)
  size {s c} hs := by
    have hperm := (candidates_listsAll (h.scan hs) []).perm.length_eq
    -- The empty prefix is carried by every key.
    have hall : ∀ entries : List Entry, (entries.filter fun e => Bytes.carries [] e.1) = entries :=
      fun entries => List.filter_eq_self.mpr fun _ _ => rfl
    rw [hall, hall] at hperm
    exact hperm

end Database.Keeps

/-- The values that a heap keeps: each key stands once, with its value. -/
structure Heap.Keeps (h : Heap) (values : Bytes → Option Bytes) : Prop where
  distinct : KeysDistinct h.entries
  lookup : ∀ key, lookupEntry key h.entries = values key

namespace Heap

variable {h : Heap} {values : Bytes → Option Bytes}

theorem Keeps.insert (hh : h.Keeps values) (key value : Bytes) :
    Keeps ⟨insert key value h.entries⟩ (Function.update values key (some value)) where
  distinct := distinct_insert hh.distinct
  lookup k := by rw [lookupEntry_insert, hh.lookup k, Function.update_apply]

theorem Keeps.erase (hh : h.Keeps values) (key : Bytes) :
    Keeps ⟨eraseEntry key h.entries⟩ (Function.update values key none) where
  distinct := distinct_eraseEntry hh.distinct
  lookup k := by rw [lookupEntry_eraseEntry hh.distinct, hh.lookup k, Function.update_apply]

/-- Of the wanted keys, entries among which none of them is passed over have
    every pair. -/
theorem Keeps.listsAll (hh : h.Keeps values) {wanted returned : Bytes → Bool}
    (hsub : ∀ key, wanted key = true → returned key = true) :
    ListsAll wanted values (h.entries.filter fun e => returned e.1) where
  mem key value hkey := by
    rw [List.mem_filter, hh.distinct.mem_iff, hh.lookup key]
    exact and_iff_left (hsub key hkey)
  nodup := (hh.distinct.nodup.filter _).filter _

/-- The database that returns the newest keys first keeps what it is given. -/
theorem scanningPrefixes_keeps : scanningPrefixes.Keeps Keeps where
  get hh key := hh.lookup key
  put hh key value := hh.insert key value
  delete hh key := hh.erase key
  scan {h values} hh start := by
    have hall : ListsAll (Bytes.carries start) values
        (h.entries.filter fun e => Bytes.carries start e.1) := hh.listsAll fun _ hkey => hkey
    refine ⟨fun key value hkey => List.mem_reverse.trans (hall.mem key value hkey), ?_⟩
    have hperm := (List.reverse_perm (h.entries.filter fun e => Bytes.carries start e.1)).filter
      fun e => Bytes.carries start e.1
    exact hperm.nodup_iff.mpr hall.nodup

/-- The database that scans ranges with their ends keeps what it is given. -/
theorem scanningRanges_keeps : scanningRanges.Keeps Keeps where
  get hh key := hh.lookup key
  put hh key value := hh.insert key value
  delete hh key := hh.erase key
  scan {h values} hh start stop := by
    have hsub : ∀ key, Bytes.inRange start stop key = true →
        (decide (start ≤ key) && (stop.isEmpty || decide (key ≤ stop))) = true := by
      intro key hkey
      rw [Bytes.inRange_iff] at hkey
      rw [Bool.and_eq_true, Bool.or_eq_true, decide_eq_true_eq, decide_eq_true_eq, List.isEmpty_iff]
      exact ⟨hkey.1, hkey.2.imp_right fun hlt => List.le_of_lt hlt⟩
    exact hh.listsAll hsub

end Heap

end TableStore
