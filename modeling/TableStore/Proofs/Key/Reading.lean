import TableStore.Proofs.Except
import TableStore.Proofs.Key.Slot
import TableStore.Proofs.Text.Canonical

/-!
# Reading Keys

A key is read back into the parts that it was built from, and nothing else is taken for
a key. Keys are any bytes, so the second half is the one that takes care: a length that
points beyond the end, bytes after the tag, a component that spells the tag, a name that
is no text.

That a name leads back to the very same key rests on two things. A component has one
length and so one spelling, and so has a text. Without the second, a name could be read
from a key under which nobody looks for it.

## Main definitions

* `Key.decodeComponents`: Components read one after the other.
* `KeyLayout.Misnamed`: A key with bytes of no text in the place of a name.
* `KeyLayout.ReadsNames`: What is to be read from every key.

## Theorems

* `Key.decodeComponents_encoded`: Components are read back, up to what follows them.
* `Key.decodeComponentFrom_of_prefix`: A component that is cut short is refused.
* `KeyLayout.nameBetween_cases`: The three forms of a key.
* `KeyLayout.readsNames_nameBetween`: Names are read from just the keys built from them.
* `KeyLayout.reading_inverts_building`: Reading undoes building, on every byte string.
-/

namespace TableStore

namespace Key

/-- From an offset that is not below zero the two ways of reading agree. -/
theorem decodeComponentFrom_natCast (data : Bytes) (offset : Nat) :
    decodeComponentFrom data offset
      = (decodeComponent data offset).map fun found => (found.1, (found.2 : Int)) := by
  simp only [decodeComponentFrom]
  rw [if_pos (Int.natCast_nonneg _), Int.toNat_natCast]

/-- A component is read at its offset, up to what follows it. -/
theorem decodeComponentFrom_encoded {component : Bytes} (h : fits component = true)
    (before rest : Bytes) :
    decodeComponentFrom (before ++ (encodeComponent component ++ rest)) before.length
      = .ok (component, ((before ++ encodeComponent component).length : Int)) := by
  rw [decodeComponentFrom_natCast, decodeComponent, List.drop_left, splitComponent_encodeComponent h,
    List.length_append, length_encodeComponent, ← Nat.add_assoc]
  rfl

/-- A component that is cut short is refused with its offset. -/
theorem decodeComponentFrom_of_prefix {component part : Bytes} (h : fits component = true)
    (hpart : part <+: encodeComponent component) (hne : part ≠ encodeComponent component)
    (before : Bytes) :
    decodeComponentFrom (before ++ part) before.length
      = .error (.truncatedComponent before.length) := by
  rw [decodeComponentFrom_natCast, decodeComponent, List.drop_left, splitComponent_of_prefix h hpart hne]
  rfl

/-- Components read one after the other from an offset, and the offset after the
    last one. -/
def decodeComponents (data : Bytes) : (count : Nat) → (offset : Int) → Except Fault (List Bytes × Int)
  | 0, offset => .ok ([], offset)
  | count + 1, offset => do
    let (component, next) ← decodeComponentFrom data offset
    let (components, stop) ← decodeComponents data count next
    .ok (component :: components, stop)

/-- Components are read one after the other up to what follows them. -/
theorem decodeComponents_encoded {components : List Bytes} (h : ∀ c ∈ components, fits c = true)
    (before suffix : Bytes) :
    decodeComponents (before ++ (components.flatMap encodeComponent ++ suffix)) components.length
        before.length
      = .ok (components, ((before ++ components.flatMap encodeComponent).length : Int)) := by
  induction components generalizing before with
  | nil =>
    rw [List.flatMap_nil, List.append_nil]
    rfl
  | cons component components ih =>
    rcases List.forall_mem_cons.mp h with ⟨hfirst, hothers⟩
    -- What has been read is part of what stands before the next offset.
    have hrest := ih hothers (before ++ encodeComponent component)
    rw [List.append_assoc] at hrest
    rw [List.length_cons, decodeComponents, List.flatMap_cons, List.append_assoc,
      decodeComponentFrom_encoded hfirst, ok_bind]
    simp only [hrest, ok_bind, List.append_assoc]

end Key

namespace KeyLayout

variable {start tag key : Bytes}

/-- A key with a component that is not the UTF-8 of any text in the place of a name. -/
def Misnamed (start tag key : Bytes) : Prop :=
  ∃ bytes : Bytes, Key.fits bytes = true ∧ (∀ name, Text.encode name ≠ bytes)
    ∧ key = start ++ (Key.encodeComponent bytes ++ tag)

/-- A reader of the names in keys answers every key as it should: with the name if
    the key is that of a name, with a fault if the name is no text, and with nothing
    otherwise. -/
structure ReadsNames (start tag : Bytes) (key? : String → Except Fault Bytes)
    (name? : Bytes → Except Fault (Option String)) : Prop where
  found : ∀ key name, name? key = .ok (some name) ↔ key? name = .ok key
  misnamed : ∀ key, name? key = .error .malformedUtf8 ↔ Misnamed start tag key
  missing : ∀ key, name? key = .ok none
    ↔ (∀ name, key? name ≠ .ok key) ∧ ¬Misnamed start tag key

theorem nameBetween_named {name : String} (h : Key.fits (Text.encode name) = true)
    (start tag : Bytes) :
    nameBetween start tag (start ++ (Key.encodeName name ++ tag)) = .ok (some name) := by
  simp only [nameBetween, Bytes.carries_append, if_true, List.drop_left, Key.encodeName,
    Key.splitComponent_encodeComponent h, Text.decode?_encode]

theorem nameBetween_of_misnamed (h : Misnamed start tag key) :
    nameBetween start tag key = .error .malformedUtf8 := by
  rcases h with ⟨bytes, hfits, hnot, rfl⟩
  simp only [nameBetween, Bytes.carries_append, if_true, List.drop_left,
    Key.splitComponent_encodeComponent hfits, Text.decode?_eq_none.mpr hnot]

/-- A key that goes on with something else than the tag after the name has no name. -/
theorem nameBetween_of_ne_tag {component rest : Bytes} (h : Key.fits component = true)
    (hrest : rest ≠ tag) (start : Bytes) :
    nameBetween start tag (start ++ (Key.encodeComponent component ++ rest)) = .ok none := by
  simp only [nameBetween, Bytes.carries_append, if_true, List.drop_left,
    Key.splitComponent_encodeComponent h, if_neg hrest]

/-- A key of another form has no name. -/
theorem nameBetween_of_forall_ne (h : ∀ component : Bytes, Key.fits component = true →
    key ≠ start ++ (Key.encodeComponent component ++ tag)) : nameBetween start tag key = .ok none := by
  by_cases hcarries : Bytes.carries start key = true
  · rcases Bytes.carries_iff.mp hcarries with ⟨s, rfl⟩
    rcases hsplit : Key.splitComponent s with _ | ⟨component, rest⟩
    · simp only [nameBetween, hcarries, if_true, List.drop_left, hsplit]
    · rcases Key.splitComponent_eq_some.mp hsplit with ⟨hfits, rfl⟩
      exact nameBetween_of_ne_tag hfits (fun htag => h component hfits (by rw [htag])) start
  · rw [nameBetween, if_neg hcarries]

/-- A key is that of a name, or it is misnamed, or nothing is read from it. -/
theorem nameBetween_cases (start tag key : Bytes) :
    (∃ name, Key.fits (Text.encode name) = true ∧ key = start ++ (Key.encodeName name ++ tag))
      ∨ Misnamed start tag key ∨ nameBetween start tag key = .ok none := by
  by_cases hshape : ∃ component : Bytes, Key.fits component = true
      ∧ key = start ++ (Key.encodeComponent component ++ tag)
  · rcases hshape with ⟨component, hfits, rfl⟩
    rcases hdecode : Text.decode? component with _ | name
    · exact Or.inr (Or.inl ⟨component, hfits, Text.decode?_eq_none.mp hdecode, rfl⟩)
    · rw [← Text.decode?_eq_some.mp hdecode] at hfits ⊢
      exact Or.inl ⟨name, hfits, rfl⟩
  · refine Or.inr (Or.inr (nameBetween_of_forall_ne fun component hfits hkey => ?_))
    exact hshape ⟨component, hfits, hkey⟩

/-- Names are read as they should be if the keys are built from the same parts. -/
theorem readsNames_nameBetween {key? : String → Except Fault Bytes}
    (hbuilt : ∀ name key, key? name = .ok key
      ↔ Key.fits (Text.encode name) = true ∧ key = start ++ (Key.encodeName name ++ tag)) :
    ReadsNames start tag key? (nameBetween start tag) where
  found key name := by
    constructor
    · -- Of the three ways in which a key is read, the outcome tells which one it was.
      intro h
      rcases nameBetween_cases start tag key with ⟨other, hfits, rfl⟩ | hmisnamed | hnone
      · rw [nameBetween_named hfits] at h
        rw [← Option.some.inj (Except.ok.inj h)]
        exact (hbuilt other _).mpr ⟨hfits, rfl⟩
      · exact absurd ((nameBetween_of_misnamed hmisnamed).symm.trans h) (by simp)
      · exact absurd (hnone.symm.trans h) (by simp)
    · intro h
      rcases (hbuilt name key).mp h with ⟨hfits, rfl⟩
      exact nameBetween_named hfits start tag
  misnamed key := by
    refine ⟨fun h => ?_, nameBetween_of_misnamed⟩
    rcases nameBetween_cases start tag key with ⟨name, hfits, rfl⟩ | hmisnamed | hnone
    · exact absurd ((nameBetween_named hfits start tag).symm.trans h) (by simp)
    · exact hmisnamed
    · exact absurd (hnone.symm.trans h) (by simp)
  missing key := by
    constructor
    · intro h
      refine ⟨fun name hname => ?_, fun hmisnamed => ?_⟩
      · rcases (hbuilt name key).mp hname with ⟨hfits, rfl⟩
        exact absurd ((nameBetween_named hfits start tag).symm.trans h) (by simp)
      · exact absurd ((nameBetween_of_misnamed hmisnamed).symm.trans h) (by simp)
    · rintro ⟨hname, hmisnamed⟩
      rcases nameBetween_cases start tag key with ⟨name, hfits, rfl⟩ | hmis | hnone
      · exact absurd ((hbuilt name _).mpr ⟨hfits, rfl⟩) (hname name)
      · exact absurd hmis hmisnamed
      · exact hnone

/-- For the name of a table that fits, the keys of its index definitions are read. -/
theorem indexOfMetaKey?_eq {layout : KeyLayout} {table : String}
    (h : Key.fits (Text.encode table) = true) :
    layout.indexOfMetaKey? table = nameBetween (layout.indexMetaPrefix table) metaTag := by
  funext key
  rw [indexOfMetaKey?, indexMetaPrefix?_fits h, ok_bind]

theorem readsNames_tableOfSchemaKey? (layout : KeyLayout) :
    ReadsNames layout.root schemaTag layout.schemaKey? layout.tableOfSchemaKey? := by
  refine readsNames_nameBetween fun name key => ?_
  rw [schemaKey?, Key.ofComponents_eq_ok, List.forall_mem_singleton, schemaKey, tablePrefix,
    List.append_assoc]

theorem readsNames_indexOfMetaKey? {layout : KeyLayout} {table : String}
    (h : Key.fits (Text.encode table) = true) :
    ReadsNames (layout.indexMetaPrefix table) metaTag (layout.indexMetaKey? table)
      (layout.indexOfMetaKey? table) := by
  rw [indexOfMetaKey?_eq h]
  refine readsNames_nameBetween fun name key => ?_
  rw [indexMetaKey?, Key.ofComponents_eq_ok, List.forall_mem_cons, List.forall_mem_singleton,
    and_iff_right h, indexMetaKey, List.append_assoc]

/-- Reading undoes building, on every byte string. Components that follow each other are
    read back up to what follows them, and one that is cut short is refused. A name is
    read from a key exactly if the key is built from it, and a key that has bytes of no
    text in the place of the name is refused. Below a table whose name has no place in a
    key there are no keys, and asking for the names in them fails like building them. -/
theorem reading_inverts_building (layout : KeyLayout) :
    (∀ components : List Bytes, (∀ c ∈ components, Key.fits c = true) → ∀ suffix : Bytes,
      Key.decodeComponents (components.flatMap Key.encodeComponent ++ suffix) components.length 0
        = .ok (components, ((components.flatMap Key.encodeComponent).length : Int)))
      ∧ (∀ component part : Bytes, Key.fits component = true →
        part <+: Key.encodeComponent component → part ≠ Key.encodeComponent component →
        Key.decodeComponentFrom part 0 = .error (.truncatedComponent 0))
      ∧ ReadsNames layout.root schemaTag layout.schemaKey? layout.tableOfSchemaKey?
      ∧ ∀ table : String,
        (Key.fits (Text.encode table) = true →
          ReadsNames (layout.indexMetaPrefix table) metaTag (layout.indexMetaKey? table)
            (layout.indexOfMetaKey? table))
        ∧ (Key.fits (Text.encode table) = false → ∀ key,
          layout.indexOfMetaKey? table key = .error .componentTooLong) := by
  refine ⟨fun components hfits suffix => ?_, fun component part hfits hpart hne => ?_,
    readsNames_tableOfSchemaKey? layout, fun table => ⟨readsNames_indexOfMetaKey?, fun hlong key => ?_⟩⟩
  · exact Key.decodeComponents_encoded hfits [] suffix
  · exact Key.decodeComponentFrom_of_prefix hfits hpart hne []
  · rw [indexOfMetaKey?, indexMetaPrefix?, Key.ofComponents, List.all_cons, hlong]
    rfl

/-- A name that spells the tag, components that spell a length, one that is cut short,
    a name that is no text, and a key with more after the tag. -/
theorem reading_inverts_building_lookalikes :
    let layout : KeyLayout := ⟨Text.encode "app/"⟩
    let components : List Bytes := [Text.encode "a/schema", [], [0, 0, 0, 1]]
    (∀ c ∈ components, Key.fits c = true)
      ∧ Key.decodeComponents (components.flatMap Key.encodeComponent ++ schemaTag) 3 0
        = .ok (components, 24)
      ∧ Key.fits (Text.encode "abc") = true
      ∧ [0, 0, 0, 3, 97, 98] <+: Key.encodeComponent (Text.encode "abc")
      ∧ [0, 0, 0, 3, 97, 98] ≠ Key.encodeComponent (Text.encode "abc")
      ∧ Key.decodeComponentFrom [0, 0, 0, 3, 97, 98] 0 = .error (.truncatedComponent 0)
      ∧ layout.tableOfSchemaKey? (layout.schemaKey "a/schema") = .ok (some "a/schema")
      ∧ Key.fits (Text.encode "t") = true
      ∧ layout.indexOfMetaKey? "t"
          (layout.indexMetaPrefix "t" ++ (Key.encodeComponent [0xC3] ++ metaTag))
        = .error .malformedUtf8
      ∧ ∀ name, layout.indexMetaKey? "t" name ≠ .ok (layout.indexMetaKey "t" "i" ++ metaTag) := by
  intro layout components
  have hcomponents : ∀ c ∈ components, Key.fits c = true := by decide
  have habc : Key.fits (Text.encode "abc") = true := by decide
  have hpart : [0, 0, 0, 3, 97, 98] <+: Key.encodeComponent (Text.encode "abc") := ⟨[99], rfl⟩
  have hne : [0, 0, 0, 3, 97, 98] ≠ Key.encodeComponent (Text.encode "abc") := by decide
  have ht : Key.fits (Text.encode "t") = true := by decide
  have hnot : ∀ name, Text.encode name ≠ [0xC3] := Text.decode?_eq_none.mp (by decide)
  rcases reading_inverts_building layout with ⟨hread, hcut, hschemas, hdefinitions⟩
  have hindexes := (hdefinitions "t").1 ht
  have hschema : layout.schemaKey? "a/schema" = .ok (layout.schemaKey "a/schema") := by decide
  have hmore : layout.indexOfMetaKey? "t" (layout.indexMetaKey "t" "i" ++ metaTag) = .ok none := by
    decide
  exact ⟨hcomponents, hread components hcomponents schemaTag, habc, hpart, hne,
    hcut _ _ habc hpart hne, (hschemas.found _ _).mpr hschema, ht,
    (hindexes.misnamed _).mpr ⟨[0xC3], by decide, hnot, rfl⟩, ((hindexes.missing _).mp hmore).1⟩

end KeyLayout

end TableStore
