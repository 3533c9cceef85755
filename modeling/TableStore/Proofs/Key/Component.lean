import TableStore.Key.Component
import TableStore.Proofs.Text.Utf8

/-!
# Key Components Can Be Told Apart

A component with its length in front is read back together with whatever
follows it. Two keys that start with components therefore agree only if the
components do, which is what keeps keys apart that are built from different
parts. Nothing else is read: what is taken for a component is one, and one that is
cut short is not taken for any.

All of it needs components that have a place in a key. The length of a longer one
does not show in its four bytes, and then two different lists of components
can spell the same key.

## Theorems

* `decodeLength_encodeLength`: A length is read back.
* `splitComponent_encodeComponent`: A component is read back.
* `splitComponent_eq_some`: What is read is a component.
* `splitComponent_of_prefix`: A component that is cut short.
* `encodeComponent_append_inj`: Keys that start with components.
* `ofComponents_bind`: Components that are checked in groups.
-/

namespace TableStore

namespace Key

theorem fits_iff {data : Bytes} : fits data = true ↔ data.length < componentLimit := by
  rw [fits, decide_eq_true_eq]

/-- A length is read back. -/
theorem decodeLength_encodeLength {n : Nat} (h : n < componentLimit) :
    decodeLength (UInt8.ofNat (n / 16777216)) (UInt8.ofNat (n / 65536)) (UInt8.ofNat (n / 256))
      (UInt8.ofNat n) = n := by
  rw [componentLimit] at h
  simp only [decodeLength, UInt8.toNat_ofNat']
  omega

/-- Four bytes are those of the length that they stand for. -/
theorem encodeLength_decodeLength (a b c d : UInt8) :
    encodeLength (decodeLength a b c d) = [a, b, c, d] := by
  have ha := UInt8.toNat_lt a
  have hb := UInt8.toNat_lt b
  have hc := UInt8.toNat_lt c
  have hd := UInt8.toNat_lt d
  simp only [encodeLength, List.cons.injEq, ← UInt8.toNat_inj, UInt8.toNat_ofNat', decodeLength,
    and_true]
  omega

theorem decodeLength_lt (a b c d : UInt8) : decodeLength a b c d < componentLimit := by
  have ha := UInt8.toNat_lt a
  have hb := UInt8.toNat_lt b
  have hc := UInt8.toNat_lt c
  have hd := UInt8.toNat_lt d
  rw [decodeLength, componentLimit]
  omega

theorem length_encodeComponent (data : Bytes) : (encodeComponent data).length = 4 + data.length := by
  rw [encodeComponent, List.length_append]
  rfl

/-- A component is read back. -/
theorem splitComponent_encodeComponent {data : Bytes} (h : fits data = true) (rest : Bytes) :
    splitComponent (encodeComponent data ++ rest) = some (data, rest) := by
  have hlength := decodeLength_encodeLength (fits_iff.mp h)
  simp only [encodeComponent, encodeLength, List.cons_append, List.nil_append, splitComponent,
    hlength]
  rw [if_pos (by rw [List.length_append]; omega), List.take_left, List.drop_left]

/-- What is split off a byte string is a component at its start. -/
theorem splitComponent_eq_some {s component rest : Bytes} :
    splitComponent s = some (component, rest)
      ↔ fits component = true ∧ s = encodeComponent component ++ rest := by
  constructor
  · intro h
    -- A length takes four bytes; of fewer bytes nothing is read.
    rcases s with _ | ⟨a, _ | ⟨b, _ | ⟨c, _ | ⟨d, s⟩⟩⟩⟩
    case cons.cons.cons.cons =>
      rw [splitComponent] at h
      rcases Option.ite_none_right_eq_some.mp h with ⟨hle, hpair⟩
      rcases Prod.mk.inj (Option.some.inj hpair) with ⟨rfl, rfl⟩
      have hlength : (s.take (decodeLength a b c d)).length = decodeLength a b c d := by
        rw [List.length_take, Nat.min_eq_left hle]
      refine ⟨fits_iff.mpr ?_, ?_⟩
      · rw [hlength]
        exact decodeLength_lt a b c d
      · rw [encodeComponent, hlength, encodeLength_decodeLength, List.append_assoc, List.take_append_drop]
        rfl
    all_goals exact absurd h (by simp [splitComponent])
  · rintro ⟨hfits, rfl⟩
    exact splitComponent_encodeComponent hfits rest

/-- Keys that start with components agree only if the components do. -/
theorem encodeComponent_append_inj {a b s t : Bytes} (ha : fits a = true) (hb : fits b = true)
    (h : encodeComponent a ++ s = encodeComponent b ++ t) : a = b ∧ s = t := by
  have hsplit := splitComponent_encodeComponent ha s
  rw [h, splitComponent_encodeComponent hb t] at hsplit
  have hpair := Option.some.inj hsplit
  exact ⟨(Prod.mk.inj hpair).1.symm, (Prod.mk.inj hpair).2.symm⟩

/-- Components are told apart by their bytes. -/
theorem encodeComponent_inj {a b : Bytes} (ha : fits a = true) (hb : fits b = true)
    (h : encodeComponent a = encodeComponent b) : a = b :=
  (encodeComponent_append_inj (s := []) (t := []) ha hb (by rw [h])).1

/-- A component that is cut short is not read. -/
theorem splitComponent_of_prefix {component part : Bytes} (hfits : fits component = true)
    (hpart : part <+: encodeComponent component) (hne : part ≠ encodeComponent component) :
    splitComponent part = none := by
  rw [Option.eq_none_iff_forall_ne_some]
  rintro ⟨other, rest⟩ h
  rcases splitComponent_eq_some.mp h with ⟨hother, rfl⟩
  rcases hpart with ⟨missing, hmissing⟩
  -- The cut component would be read from the whole one, with nothing left to be missing.
  have hwhole : encodeComponent other ++ (rest ++ missing) = encodeComponent component ++ [] := by
    rw [← List.append_assoc, hmissing, List.append_nil]
  rcases encodeComponent_append_inj hother hfits hwhole with ⟨rfl, hnil⟩
  exact hne (by rw [(List.append_eq_nil_iff.mp hnil).1, List.append_nil])

/-- Keys that start with names agree only if the names do. -/
theorem encodeName_append_inj {a b : String} {s t : Bytes} (ha : fits (Text.encode a) = true)
    (hb : fits (Text.encode b) = true) (h : encodeName a ++ s = encodeName b ++ t) :
    a = b ∧ s = t := by
  rcases encodeComponent_append_inj ha hb h with ⟨hname, hrest⟩
  exact ⟨Text.encode_injective hname, hrest⟩

theorem ofComponents_ok {components : List Bytes} {key key' : Bytes}
    (h : ofComponents components key = .ok key') :
    key' = key ∧ ∀ c ∈ components, fits c = true := by
  rw [ofComponents] at h
  split at h
  · rename_i hfits
    exact ⟨(Except.ok.inj h).symm, List.all_eq_true.mp hfits⟩
  · exact absurd h (by simp)

theorem ofComponents_error {components : List Bytes} {key : Bytes} {fault : Fault}
    (h : ofComponents components key = .error fault) : fault = .componentTooLong := by
  rw [ofComponents] at h
  split at h
  · exact absurd h (by simp)
  · exact (Except.error.inj h).symm

theorem ofComponents_fit {components : List Bytes} (h : ∀ c ∈ components, fits c = true)
    (key : Bytes) : ofComponents components key = .ok key := by
  rw [ofComponents, if_pos (List.all_eq_true.mpr h)]

theorem ofComponents_eq_ok {components : List Bytes} {key key' : Bytes} :
    ofComponents components key = .ok key' ↔ (∀ c ∈ components, fits c = true) ∧ key' = key := by
  constructor
  · intro h
    exact (ofComponents_ok h).symm
  · rintro ⟨hfits, rfl⟩
    exact ofComponents_fit hfits key'

/-- Components that are checked one group after the other are checked
    together. -/
theorem ofComponents_bind (first rest : List Bytes) (key : Bytes) (f : Bytes → Bytes) :
    (ofComponents first key >>= fun start => ofComponents rest (f start))
      = ofComponents (first ++ rest) (f key) := by
  simp only [ofComponents, List.all_append]
  cases first.all fits with
  | true => rfl
  | false => rfl

end Key

end TableStore
