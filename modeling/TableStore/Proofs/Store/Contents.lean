import Mathlib.Data.List.Basic
import TableStore.Store.Memory

/-!
# The Contents of an Ordered Store

What a store holds, apart from the count of its operations: entries in
strictly ascending order of their keys. The order makes the contents
determined by what each key gives, so two stores that agree on every key are
the same, and it makes a scan a filter, since keys with a common prefix are
neighbours.

Everything proved about a store is stated by `get?`. The lists behind it only
show up here.

## Main definitions

* `Contents`: Entries in ascending order.
* `Contents.get?`, `insert`, `erase`: One key.
* `Contents.restrict`: The entries whose keys are kept.
* `Memory.under`, `Memory.outside`: The entries with a prefix, and the others.

## Theorems

* `scanEntries_eq_filter`: A scan finds every key with the prefix.
* `Contents.ext_get?`: Contents that agree on every key are the same.
* `Contents.get?_insert`, `get?_erase`, `get?_restrict`: What each change
  leaves.
* `Contents.filter_eq_iff`: Contents that agree on some keys.
-/

namespace TableStore

namespace Bytes

theorem lt_trichotomy (a b : Bytes) : a < b ∨ a = b ∨ b < a := by
  by_cases hab : a < b
  · exact Or.inl hab
  · by_cases hba : b < a
    · exact Or.inr (Or.inr hba)
    · exact Or.inr (Or.inl (List.le_antisymm hba hab))

theorem carries_iff {start key : Bytes} : carries start key = true ↔ ∃ rest, key = start ++ rest := by
  rw [carries, List.isPrefixOf_iff_prefix]
  constructor
  · rintro ⟨rest, h⟩
    exact ⟨rest, h.symm⟩
  · rintro ⟨rest, h⟩
    exact ⟨rest, h.symm⟩

theorem carries_append (start rest : Bytes) : carries start (start ++ rest) = true :=
  carries_iff.mpr ⟨rest, rfl⟩

/-- A key with a prefix carries the start of the prefix. -/
theorem carries_of_append {start more key : Bytes} (h : carries (start ++ more) key = true) :
    carries start key = true := by
  rcases carries_iff.mp h with ⟨rest, rfl⟩
  rw [List.append_assoc]
  exact carries_append start _

/-- A key with a prefix is not below it. -/
theorem not_lt_of_carries {start key : Bytes} (h : carries start key = true) : ¬key < start := by
  rcases carries_iff.mp h with ⟨rest, rfl⟩
  induction start with
  | nil => exact List.not_lt_nil _
  | cons b start ih =>
    rw [List.cons_append, List.cons_lt_cons_iff]
    rintro (hlt | ⟨-, hlt⟩)
    · exact UInt8.lt_irrefl b hlt
    · exact ih (carries_append start rest) hlt

/-- A key between a prefix and a key that carries it carries it too. -/
theorem carries_of_between {start a rest : Bytes} (hlow : ¬a < start) (hhigh : a < start ++ rest) :
    carries start a = true := by
  induction start generalizing a with
  | nil => rfl
  | cons b start ih =>
    cases a with
    | nil => exact absurd (List.nil_lt_cons b start) hlow
    | cons x a =>
      rw [List.cons_lt_cons_iff, not_or, not_and] at hlow
      rw [List.cons_append, List.cons_lt_cons_iff] at hhigh
      rcases hhigh with hlt | ⟨heq, hlt⟩
      · exact absurd hlt hlow.1
      · rcases carries_iff.mp (ih (hlow.2 heq) hlt) with ⟨t, rfl⟩
        rw [heq]
        exact carries_append (b :: start) t

/-- What follows a common start decides the order. -/
theorem append_lt_append_iff {start a b : Bytes} : start ++ a < start ++ b ↔ a < b := by
  induction start with
  | nil => rfl
  | cons x start ih =>
    rw [List.cons_append, List.cons_append, List.cons_lt_cons_iff, ih]
    refine ⟨fun h => ?_, fun h => Or.inr ⟨rfl, h⟩⟩
    rcases h with hlt | ⟨-, hlt⟩
    · exact absurd hlt (UInt8.lt_irrefl x)
    · exact hlt

end Bytes

/-- Keys in strictly ascending order. -/
def Ascending (entries : List Entry) : Prop :=
  entries.Pairwise fun a b => a.1 < b.1

/-- Each key once, in any order. -/
def KeysDistinct (entries : List Entry) : Prop :=
  entries.Pairwise fun a b => a.1 ≠ b.1

theorem Ascending.distinct {entries : List Entry} (ha : Ascending entries) :
    KeysDistinct entries := by
  refine ha.imp fun {a b} hlt heq => ?_
  rw [heq] at hlt
  exact List.lt_irrefl _ hlt

theorem KeysDistinct.nodup {entries : List Entry} (hd : KeysDistinct entries) : entries.Nodup :=
  hd.imp fun hne heq => hne (congrArg Prod.fst heq)

theorem lookupEntry_eq_none {key : Bytes} {entries : List Entry} (h : ∀ e ∈ entries, e.1 ≠ key) :
    lookupEntry key entries = none := by
  induction entries with
  | nil => rfl
  | cons e entries ih =>
    rcases e with ⟨k, v⟩
    rw [lookupEntry, if_neg (Ne.symm (h (k, v) List.mem_cons_self))]
    exact ih fun f hf => h f (List.mem_cons_of_mem _ hf)

theorem mem_of_lookupEntry {key value : Bytes} {entries : List Entry}
    (h : lookupEntry key entries = some value) : (key, value) ∈ entries := by
  induction entries with
  | nil => exact absurd h (by simp [lookupEntry])
  | cons e entries ih =>
    rcases e with ⟨k, v⟩
    rw [lookupEntry] at h
    by_cases hk : key = k
    · rw [if_pos hk] at h
      rw [hk, ← Option.some.inj h]
      exact List.mem_cons_self
    · rw [if_neg hk] at h
      exact List.mem_cons_of_mem _ (ih h)

theorem lookupEntry_of_mem {key value : Bytes} {entries : List Entry} (hd : KeysDistinct entries)
    (h : (key, value) ∈ entries) : lookupEntry key entries = some value := by
  induction entries with
  | nil => exact absurd h (by simp)
  | cons e entries ih =>
    rcases e with ⟨k, v⟩
    rcases List.pairwise_cons.mp hd with ⟨hhead, htail⟩
    rw [lookupEntry]
    rcases List.mem_cons.mp h with heq | hmem
    · rw [Prod.mk.injEq] at heq
      rw [if_pos heq.1, heq.2]
    · rw [if_neg (Ne.symm (hhead _ hmem))]
      exact ih htail hmem

/-- Where each key stands once, a key has the value that it stands with. -/
theorem KeysDistinct.mem_iff {key value : Bytes} {entries : List Entry} (hd : KeysDistinct entries) :
    (key, value) ∈ entries ↔ lookupEntry key entries = some value :=
  ⟨lookupEntry_of_mem hd, mem_of_lookupEntry⟩

/-- Entries with the same values under the same keys are the same up to their
    order. -/
theorem KeysDistinct.perm {s t : List Entry} (hs : KeysDistinct s) (ht : KeysDistinct t)
    (h : ∀ k, lookupEntry k s = lookupEntry k t) : s.Perm t := by
  refine (List.perm_ext_iff_of_nodup hs.nodup ht.nodup).mpr fun e => ?_
  rcases e with ⟨k, v⟩
  rw [hs.mem_iff, ht.mem_iff, h k]

theorem lookupEntry_insertEntry (key value k : Bytes) (entries : List Entry) :
    lookupEntry k (insertEntry key value entries)
      = if k = key then some value else lookupEntry k entries := by
  induction entries with
  | nil => rfl
  | cons e entries ih =>
    rcases e with ⟨l, v⟩
    rw [insertEntry]
    by_cases hl : key = l
    · rw [if_pos hl, lookupEntry, lookupEntry, hl]
      by_cases hk : k = l
      · rw [if_pos hk, if_pos hk]
      · rw [if_neg hk, if_neg hk, if_neg hk]
    · rw [if_neg hl]
      by_cases hlt : key < l
      · rw [if_pos hlt, lookupEntry]
      · rw [if_neg hlt, lookupEntry, lookupEntry, ih]
        by_cases hk : k = l
        · rw [if_pos hk, if_pos hk, if_neg (fun h => hl (h.symm.trans hk))]
        · rw [if_neg hk, if_neg hk]

theorem mem_insertEntry {key value : Bytes} {entries : List Entry} {e : Entry}
    (h : e ∈ insertEntry key value entries) : e.1 = key ∨ e ∈ entries := by
  induction entries with
  | nil =>
    rw [insertEntry, List.mem_singleton] at h
    exact Or.inl (by rw [h])
  | cons f entries ih =>
    rcases f with ⟨l, v⟩
    rw [insertEntry] at h
    split at h
    · rcases List.mem_cons.mp h with rfl | hmem
      · exact Or.inl rfl
      · exact Or.inr (List.mem_cons_of_mem _ hmem)
    · split at h
      · rcases List.mem_cons.mp h with rfl | hmem
        · exact Or.inl rfl
        · exact Or.inr hmem
      · rcases List.mem_cons.mp h with rfl | hmem
        · exact Or.inr List.mem_cons_self
        · exact (ih hmem).imp_right (List.mem_cons_of_mem _)

theorem ascending_insertEntry {key value : Bytes} {entries : List Entry} (ha : Ascending entries) :
    Ascending (insertEntry key value entries) := by
  induction entries with
  | nil => exact List.pairwise_singleton _ _
  | cons f entries ih =>
    rcases f with ⟨l, v⟩
    rcases List.pairwise_cons.mp ha with ⟨hhead, htail⟩
    rw [insertEntry]
    split
    · rename_i heq
      exact List.pairwise_cons.mpr ⟨by rw [heq]; exact hhead, htail⟩
    · rename_i hne
      split
      · -- The new key stands before the first larger one, which is before the rest.
        rename_i hlt
        refine List.pairwise_cons.mpr ⟨fun e he => ?_, ha⟩
        rcases List.mem_cons.mp he with rfl | hmem
        · exact hlt
        · exact List.lt_trans hlt (hhead e hmem)
      · rename_i hnlt
        have hgt : l < key := by
          rcases Bytes.lt_trichotomy key l with h | h | h
          · exact absurd h hnlt
          · exact absurd h hne
          · exact h
        refine List.pairwise_cons.mpr ⟨fun e he => ?_, ih htail⟩
        rcases mem_insertEntry he with hkey | hmem
        · rw [hkey]
          exact hgt
        · exact hhead e hmem

theorem eraseEntry_sublist (key : Bytes) (entries : List Entry) :
    (eraseEntry key entries).Sublist entries := by
  induction entries with
  | nil => exact List.Sublist.refl _
  | cons f entries ih =>
    rw [eraseEntry]
    split
    · exact List.sublist_cons_self _ _
    · exact ih.cons_cons f

theorem ascending_eraseEntry {key : Bytes} {entries : List Entry} (ha : Ascending entries) :
    Ascending (eraseEntry key entries) :=
  ha.sublist (eraseEntry_sublist key entries)

theorem lookupEntry_eraseEntry {key : Bytes} {entries : List Entry} (hd : KeysDistinct entries)
    (k : Bytes) : lookupEntry k (eraseEntry key entries)
      = if k = key then none else lookupEntry k entries := by
  induction entries with
  | nil => rw [eraseEntry, lookupEntry, ite_self]
  | cons f entries ih =>
    rcases f with ⟨l, v⟩
    rcases List.pairwise_cons.mp hd with ⟨hhead, htail⟩
    rw [eraseEntry]
    by_cases hl : key = l
    · rw [if_pos hl, lookupEntry, hl]
      by_cases hk : k = l
      · rw [if_pos hk, hk]
        exact lookupEntry_eq_none fun e he => Ne.symm (hhead e he)
      · rw [if_neg hk, if_neg hk]
    · rw [if_neg hl, lookupEntry, lookupEntry, ih htail]
      by_cases hk : k = l
      · rw [if_pos hk, if_pos hk, if_neg (fun h => hl (h.symm.trans hk))]
      · rw [if_neg hk, if_neg hk]

/-- Among keys that are not below a prefix, those that carry it come first. -/
theorem takeWhile_carries {start : Bytes} {entries : List Entry} (ha : Ascending entries)
    (hlow : ∀ e ∈ entries, ¬e.1 < start) :
    (entries.takeWhile fun e => Bytes.carries start e.1)
      = entries.filter fun e => Bytes.carries start e.1 := by
  induction entries with
  | nil => rfl
  | cons e entries ih =>
    rcases List.pairwise_cons.mp ha with ⟨hhead, htail⟩
    by_cases hc : Bytes.carries start e.1 = true
    · rw [List.takeWhile_cons_of_pos (by exact hc), List.filter_cons_of_pos (by exact hc),
        ih htail fun f hf => hlow f (List.mem_cons_of_mem e hf)]
    · rw [List.takeWhile_cons_of_neg (by exact hc), List.filter_cons_of_neg (by exact hc), eq_comm,
        List.filter_eq_nil_iff]
      -- A later key with the prefix would have this one between it and the prefix.
      intro f hf hcarries
      rcases Bytes.carries_iff.mp hcarries with ⟨t, ht⟩
      have hlt := hhead f hf
      rw [ht] at hlt
      exact hc (Bytes.carries_of_between (hlow e List.mem_cons_self) hlt)

/-- A scan finds every key with the prefix. -/
theorem scanEntries_eq_filter {start : Bytes} {entries : List Entry} (ha : Ascending entries) :
    scanEntries start entries = entries.filter fun e => Bytes.carries start e.1 := by
  rw [scanEntries]
  induction entries with
  | nil => rfl
  | cons e entries ih =>
    rcases List.pairwise_cons.mp ha with ⟨hhead, htail⟩
    by_cases hbelow : e.1 < start
    · have hnot : Bytes.carries start e.1 = false := by
        rw [Bool.eq_false_iff]
        exact fun hc => Bytes.not_lt_of_carries hc hbelow
      rw [List.dropWhile_cons_of_pos (by simpa using hbelow), ih htail,
        List.filter_cons_of_neg (by simp [hnot])]
    · -- Once a key is not below the prefix, no later one is.
      rw [List.dropWhile_cons_of_neg (by simpa using hbelow)]
      refine takeWhile_carries ha fun f hf => ?_
      rcases List.mem_cons.mp hf with rfl | hmem
      · exact hbelow
      · exact fun hlt => hbelow (List.lt_trans (hhead f hmem) hlt)

/-- Entries in ascending order are determined by which ones they are. -/
theorem Ascending.eq_of_perm {s t : List Entry} (hs : Ascending s) (ht : Ascending t)
    (hperm : s.Perm t) : s = t := by
  refine hperm.eq_of_pairwise (fun a b _ _ hab hba => ?_) hs ht
  exact absurd (List.lt_trans hab hba) (List.lt_irrefl _)

theorem Ascending.eq_of_mem_iff {s t : List Entry} (hs : Ascending s) (ht : Ascending t)
    (hmem : ∀ e : Entry, e ∈ s ↔ e ∈ t) : s = t :=
  hs.eq_of_perm ht ((List.perm_ext_iff_of_nodup hs.distinct.nodup ht.distinct.nodup).mpr hmem)

theorem ascending_ext {s t : List Entry} (hs : Ascending s) (ht : Ascending t)
    (h : ∀ k, lookupEntry k s = lookupEntry k t) : s = t :=
  hs.eq_of_perm ht (hs.distinct.perm ht.distinct h)

/-- What a store holds: entries in ascending order of their keys. -/
structure Contents where
  entries : List Entry
  ascending : Ascending entries

namespace Contents

/-- The value of a key. -/
def get? (c : Contents) (key : Bytes) : Option Bytes :=
  lookupEntry key c.entries

/-- No entries. -/
def empty : Contents :=
  ⟨[], List.Pairwise.nil⟩

/-- The contents with a key given a value. -/
def insert (key value : Bytes) (c : Contents) : Contents :=
  ⟨insertEntry key value c.entries, ascending_insertEntry c.ascending⟩

/-- The contents without a key. -/
def erase (key : Bytes) (c : Contents) : Contents :=
  ⟨eraseEntry key c.entries, ascending_eraseEntry c.ascending⟩

/-- The entries whose keys are kept. -/
def restrict (keep : Bytes → Bool) (c : Contents) : Contents :=
  ⟨c.entries.filter fun e => keep e.1, c.ascending.sublist List.filter_sublist⟩

/-- The entries whose keys do not carry a prefix. -/
def without (start : Bytes) (c : Contents) : Contents :=
  c.restrict fun key => !Bytes.carries start key

/-- Contents that agree on every key are the same. -/
theorem ext_get? {c d : Contents} (h : ∀ k, c.get? k = d.get? k) : c = d := by
  rcases c with ⟨s, hs⟩
  rcases d with ⟨t, ht⟩
  rw [Contents.mk.injEq]
  exact ascending_ext hs ht h

theorem mem_entries {c : Contents} {key value : Bytes} :
    (key, value) ∈ c.entries ↔ c.get? key = some value :=
  c.ascending.distinct.mem_iff

theorem get?_insert (key value k : Bytes) (c : Contents) :
    (c.insert key value).get? k = if k = key then some value else c.get? k :=
  lookupEntry_insertEntry key value k c.entries

theorem get?_insert_self (key value : Bytes) (c : Contents) :
    (c.insert key value).get? key = some value := by
  rw [get?_insert, if_pos rfl]

theorem get?_insert_other {key k : Bytes} (value : Bytes) (c : Contents) (h : k ≠ key) :
    (c.insert key value).get? k = c.get? k := by
  rw [get?_insert, if_neg h]

theorem get?_erase (key k : Bytes) (c : Contents) :
    (c.erase key).get? k = if k = key then none else c.get? k :=
  lookupEntry_eraseEntry c.ascending.distinct k

theorem get?_erase_self (key : Bytes) (c : Contents) : (c.erase key).get? key = none := by
  rw [get?_erase, if_pos rfl]

theorem get?_erase_other {key k : Bytes} (c : Contents) (h : k ≠ key) :
    (c.erase key).get? k = c.get? k := by
  rw [get?_erase, if_neg h]

theorem get?_restrict (keep : Bytes → Bool) (k : Bytes) (c : Contents) :
    (c.restrict keep).get? k = if keep k = true then c.get? k else none := by
  by_cases hk : keep k = true
  · rw [if_pos hk]
    rcases hget : c.get? k with _ | v
    · refine lookupEntry_eq_none fun e he heq => ?_
      rw [← heq] at hget
      rw [mem_entries.mp (List.mem_filter.mp he).1] at hget
      exact absurd hget (by simp)
    · exact mem_entries.mp (List.mem_filter.mpr ⟨mem_entries.mpr hget, hk⟩)
  · rw [if_neg hk]
    refine lookupEntry_eq_none fun e he heq => hk ?_
    rw [← heq]
    exact (List.mem_filter.mp he).2

theorem get?_without (start k : Bytes) (c : Contents) :
    (c.without start).get? k = if Bytes.carries start k = true then none else c.get? k := by
  rw [without, get?_restrict]
  cases Bytes.carries start k <;> rfl

/-- Contents have the same entries among some keys exactly if they agree on each
    of these. -/
theorem filter_eq_iff {c d : Contents} (keep : Bytes → Bool) :
    (c.entries.filter fun e => keep e.1) = (d.entries.filter fun e => keep e.1)
      ↔ ∀ k, keep k = true → c.get? k = d.get? k := by
  constructor
  · intro h k hk
    have hget : (c.restrict keep).get? k = (d.restrict keep).get? k := congrArg (lookupEntry k) h
    rw [get?_restrict, get?_restrict, if_pos hk, if_pos hk] at hget
    exact hget
  · intro h
    have hsame : c.restrict keep = d.restrict keep := by
      refine ext_get? fun k => ?_
      rw [get?_restrict, get?_restrict]
      split
      · rename_i hk
        exact h k hk
      · rfl
    exact congrArg entries hsame

end Contents

/-- The entries of a store whose keys carry a prefix. -/
def Memory.under (m : Memory) (start : Bytes) : List Entry :=
  m.entries.filter fun e => Bytes.carries start e.1

/-- The entries of a store whose keys do not carry a prefix. -/
def Memory.outside (m : Memory) (start : Bytes) : List Entry :=
  m.entries.filter fun e => !Bytes.carries start e.1

end TableStore
