import Mathlib.Data.List.Induction
import Mathlib.Data.Set.Basic
import Mathlib.Order.Bounds.Defs
import TableStore.Proofs.Store.Contents
import TableStore.Store.Adapter

/-!
# The Range of a Prefix

The keys with a prefix are those from the prefix on up to one bound, which is what
lets a database that can only scan ranges scan a prefix. The bound is found from
the end of the prefix: bytes that are the highest one are cut off, and the first
other byte is raised by one.

What is cut off is not lost. A key in the range goes on after the cut with bytes
that are at least those of the prefix, and above the highest byte there is none, so
it goes on with just those. A prefix of nothing but highest bytes has no bound at
all, since it can be followed by more of them than any byte string starts with.

Both follow the search for the bound byte by byte, from the last one.

## Main definitions

* `Bytes.inRange`: Whether a key is in a range.
* `Bytes.above`: What is above every key with a prefix.

## Theorems

* `Bytes.prefixUpperBound_concat_highest`, `prefixUpperBound_concat_lower`: The two
  steps of the search.
* `Bytes.inRange_iff_carries`: The range of a prefix has the keys with the prefix
  and no others.
* `Bytes.prefixUpperBound_isLeast`: The bound of a prefix is the least there is.
-/

namespace TableStore

namespace Bytes

variable {start key : Bytes} {b : UInt8}

/-- Whether a key is in a range, which has no end if the end is empty. -/
def inRange (start stop key : Bytes) : Bool :=
  decide (start ≤ key) && (stop.isEmpty || decide (key < stop))

theorem inRange_iff {stop : Bytes} :
    inRange start stop key = true ↔ start ≤ key ∧ (stop = [] ∨ key < stop) := by
  rw [inRange, Bool.and_eq_true, Bool.or_eq_true, decide_eq_true_eq, decide_eq_true_eq,
    List.isEmpty_iff]

/-- What is above every key with a prefix. -/
def above (start : Bytes) : Set Bytes :=
  {bound | ∀ key, carries start key = true → key < bound}

/-- What is below the next byte is not above the byte. -/
theorem lt_next_iff {a : UInt8} (h : b ≠ 0xFF) : a < b + 1 ↔ a ≤ b := by
  have hne : b.toNat ≠ 255 := fun heq => h (UInt8.toNat_inj.mp heq)
  have hlt : b.toNat < 256 := b.toNat_lt
  rw [UInt8.lt_iff_toNat_lt, UInt8.le_iff_toNat_le, UInt8.toNat_add, UInt8.toNat_one]
  omega

theorem le_highest (a : UInt8) : a ≤ 0xFF := by
  have hlt : a.toNat < 256 := a.toNat_lt
  rw [UInt8.le_iff_toNat_le]
  exact Nat.le_of_lt_succ hlt

theorem le_of_carries (h : carries start key = true) : start ≤ key :=
  List.not_lt.mp (not_lt_of_carries h)

theorem append_le_append_iff {a b : Bytes} : start ++ a ≤ start ++ b ↔ a ≤ b := by
  rw [← List.not_lt, ← List.not_lt, append_lt_append_iff]

/-- A key from a byte on starts with a byte that is not below it. -/
theorem exists_of_singleton_le (h : [b] ≤ key) : ∃ a rest, key = a :: rest ∧ b ≤ a := by
  cases key with
  | nil => exact absurd (List.nil_lt_cons b []) (List.not_lt.mpr h)
  | cons a rest =>
    refine ⟨a, rest, rfl, UInt8.not_lt.mp fun hlt => ?_⟩
    exact List.not_lt.mpr h (List.cons_lt_cons_iff.mpr (Or.inl hlt))

theorem carries_concat {rest : Bytes} : carries (start ++ [b]) (start ++ b :: rest) = true :=
  carries_iff.mpr ⟨rest, by rw [List.append_assoc, List.singleton_append]⟩

/-- The search passes over the highest byte. -/
theorem prefixUpperBound_concat_highest (start : Bytes) :
    prefixUpperBound (start ++ [0xFF]) = prefixUpperBound start := by
  rw [prefixUpperBound, List.reverse_concat, List.dropWhile_cons_of_pos (by decide), prefixUpperBound]

/-- The search ends at any other byte. -/
theorem prefixUpperBound_concat_lower (start : Bytes) (h : b ≠ 0xFF) :
    prefixUpperBound (start ++ [b]) = start ++ [b + 1] := by
  rw [prefixUpperBound, List.reverse_concat, List.dropWhile_cons_of_neg (by simpa using h)]
  exact congrArg (· ++ [b + 1]) start.reverse_reverse

/-- The search fails if it finds only the highest byte. -/
theorem prefixUpperBound_eq_nil : prefixUpperBound start = [] ↔ ∀ b ∈ start, b = 0xFF := by
  induction start using List.reverseRecOn with
  | nil => exact ⟨fun _ b hb => absurd hb List.not_mem_nil, fun _ => rfl⟩
  | append_singleton start b ih =>
    rw [List.forall_mem_append, List.forall_mem_singleton]
    by_cases hb : b = 0xFF
    · rw [hb, prefixUpperBound_concat_highest, ih, and_iff_left rfl]
    · rw [prefixUpperBound_concat_lower start hb]
      exact ⟨fun h => absurd h (List.append_ne_nil_of_right_ne_nil _ (List.cons_ne_nil _ _)),
        fun h => absurd h.2 hb⟩

/-- The range of a prefix has the keys with the prefix and no others. -/
theorem inRange_iff_carries :
    inRange start (prefixUpperBound start) key = true ↔ carries start key = true := by
  rw [inRange_iff]
  -- The induction is on the search, so that what was cut off is put back byte by byte.
  induction start using List.reverseRecOn with
  | nil => exact ⟨fun _ => rfl, fun _ => ⟨List.nil_le key, Or.inl rfl⟩⟩
  | append_singleton start b ih =>
    have hstart : start ≤ start ++ [b] := le_of_carries (carries_append start [b])
    by_cases hb : b = 0xFF
    · rw [hb] at hstart ⊢
      rw [prefixUpperBound_concat_highest]
      constructor
      · rintro ⟨hlow, hhigh⟩
        rcases carries_iff.mp (ih.mp ⟨List.le_trans hstart hlow, hhigh⟩) with ⟨rest, rfl⟩
        rcases exists_of_singleton_le (append_le_append_iff.mp hlow) with ⟨a, rest, rfl, ha⟩
        rw [UInt8.le_antisymm (le_highest a) ha]
        exact carries_concat
      · intro hkey
        exact ⟨le_of_carries hkey, (ih.mpr (carries_of_append hkey)).2⟩
    · rw [prefixUpperBound_concat_lower start hb]
      constructor
      · rintro ⟨hlow, hhigh⟩
        have hlt : key < start ++ [b + 1] :=
          hhigh.resolve_left (List.append_ne_nil_of_right_ne_nil _ (List.cons_ne_nil _ _))
        have hcarries := carries_of_between (List.not_lt.mpr (List.le_trans hstart hlow)) hlt
        rcases carries_iff.mp hcarries with ⟨rest, rfl⟩
        rcases exists_of_singleton_le (append_le_append_iff.mp hlow) with ⟨a, rest, rfl, ha⟩
        rw [append_lt_append_iff, List.cons_lt_cons_iff, lt_next_iff hb] at hlt
        have hle : a ≤ b := hlt.resolve_right fun h => List.not_lt_nil rest h.2
        rw [UInt8.le_antisymm hle ha]
        exact carries_concat
      · intro hkey
        refine ⟨le_of_carries hkey, Or.inr ?_⟩
        rcases carries_iff.mp hkey with ⟨rest, rfl⟩
        rw [List.append_assoc, append_lt_append_iff, List.singleton_append]
        exact List.cons_lt_cons_iff.mpr (Or.inl ((lt_next_iff hb).mpr (UInt8.le_refl b)))

/-- What is above every key with a prefix is above the prefix and does not carry it. -/
theorem not_carries_of_mem_above {bound : Bytes} (h : bound ∈ above start) :
    start ≤ bound ∧ carries start bound ≠ true := by
  refine ⟨List.le_of_lt (h start (carries_iff.mpr ⟨[], start.append_nil.symm⟩)), fun hcarries => ?_⟩
  exact List.lt_irrefl bound (h bound hcarries)

/-- The bound of a prefix is the least there is. -/
theorem prefixUpperBound_isLeast (h : prefixUpperBound start ≠ []) :
    IsLeast (above start) (prefixUpperBound start) := by
  constructor
  · intro key hkey
    exact (inRange_iff.mp (inRange_iff_carries.mpr hkey)).2.resolve_left h
  · intro bound hbound
    rcases not_carries_of_mem_above hbound with ⟨hlow, hnot⟩
    refine List.not_lt.mp fun hlt => hnot ?_
    exact inRange_iff_carries.mp (inRange_iff.mpr ⟨hlow, Or.inr hlt⟩)

/-- The range of a prefix is exact. With a byte that can be raised there is a least
    bound, and the keys with the prefix are those from the prefix on up to it.
    Without one there is no bound, and they are all those from the prefix on. -/
theorem prefixUpperBound_exact (start : Bytes) :
    ((∃ b ∈ start, b ≠ 0xFF) →
      prefixUpperBound start ≠ []
        ∧ (∀ key, carries start key = true ↔ start ≤ key ∧ key < prefixUpperBound start)
        ∧ IsLeast (above start) (prefixUpperBound start))
      ∧ ((∀ b ∈ start, b = 0xFF) →
        prefixUpperBound start = [] ∧ (∀ key, carries start key = true ↔ start ≤ key)
          ∧ above start = ∅) := by
  constructor
  · rintro ⟨b, hmem, hb⟩
    have hne : prefixUpperBound start ≠ [] := fun h => hb (prefixUpperBound_eq_nil.mp h b hmem)
    refine ⟨hne, fun key => ?_, prefixUpperBound_isLeast hne⟩
    rw [← inRange_iff_carries, inRange_iff, or_iff_right hne]
  · intro hall
    have hnil := prefixUpperBound_eq_nil.mpr hall
    have hiff : ∀ key, carries start key = true ↔ start ≤ key := fun key => by
      rw [← inRange_iff_carries, inRange_iff, and_iff_left (Or.inl hnil)]
    refine ⟨hnil, hiff, Set.eq_empty_iff_forall_notMem.mpr fun bound hbound => ?_⟩
    rcases not_carries_of_mem_above hbound with ⟨hlow, hnot⟩
    exact hnot ((hiff bound).mpr hlow)

/-- Highest bytes at the end are cut off and still have to be carried, and alone they
    have no bound. -/
theorem prefixUpperBound_exact_highestBytes :
    (∃ b ∈ [0x61, 0xFF, 0xFF], b ≠ (0xFF : UInt8))
      ∧ prefixUpperBound [0x61, 0xFF, 0xFF] = [0x62]
      ∧ IsLeast (above [0x61, 0xFF, 0xFF]) [0x62]
      ∧ (carries [0x61, 0xFF, 0xFF] [0x61, 0xFF, 0xFF, 0x00] = true
        ↔ [0x61, 0xFF, 0xFF] ≤ [0x61, 0xFF, 0xFF, (0x00 : UInt8)]
          ∧ [0x61, 0xFF, 0xFF, 0x00] < [(0x62 : UInt8)])
      ∧ (∀ b ∈ [0xFF, 0xFF], b = (0xFF : UInt8)) ∧ above [0xFF, 0xFF] = ∅ := by
  have hlower : ∃ b ∈ [0x61, 0xFF, 0xFF], b ≠ (0xFF : UInt8) := ⟨0x61, by decide, by decide⟩
  have hhighest : ∀ b ∈ [0xFF, 0xFF], b = (0xFF : UInt8) := by simp
  rcases (prefixUpperBound_exact [0x61, 0xFF, 0xFF]).1 hlower with ⟨-, hkeys, hleast⟩
  rcases (prefixUpperBound_exact [0xFF, 0xFF]).2 hhighest with ⟨-, -, hempty⟩
  exact ⟨hlower, rfl, hleast, hkeys [0x61, 0xFF, 0xFF, 0x00], hhighest, hempty⟩

end Bytes

end TableStore
