import TableStore.Proofs.Except
import TableStore.Proofs.Json.Number
import TableStore.Proofs.Json.Text
import TableStore.Proofs.Members

/-!
# JSON Text Reads Back

The text of a JSON value is read back as that value, whatever the layout, as
long as the layout only puts blanks where blanks may stand. Two things are
asked of the value: its integers have to be within the digit limit, beyond
which none is read, and no object may have a name twice, since of two members
with one name the reader keeps one.

The reader is given more depth than the text is long. Every nested value is
shorter than the text around it, so the length bounds the depth all the way
down, and the induction on the value needs no other measure.

## Main definitions

* `Json.Readable`: A value that can be read back.
* `JsonStyle.Plain`: A layout that adds nothing but blanks.

## Theorems

* `Json.read_write`: The text of a value is read back, whatever follows it.
* `Json.ofBytes_write`: The stored form of a value is read back.
-/

namespace TableStore

open Text

namespace Json

mutual

/-- A value that can be read back: integers within the digit limit and objects
    without repeated names. -/
def Readable : Json → Prop
  | int n => withinDigitLimit n = true
  | array items => ReadableItems items
  | object members => (Members.names members).Nodup ∧ ReadableMembers members
  | _ => True

/-- Items that can be read back. -/
def ReadableItems : List Json → Prop
  | [] => True
  | item :: items => Readable item ∧ ReadableItems items

/-- Members whose values can be read back. -/
def ReadableMembers : List (String × Json) → Prop
  | [] => True
  | (_, item) :: members => Readable item ∧ ReadableMembers members

end

end Json

/-- A text of blanks only. -/
def JsonBlank (s : List Char) : Prop :=
  ∀ c ∈ s, (c == ' ' || c == '\t' || c == '\n' || c == '\r') = true

/-- A layout that adds nothing but blanks. -/
structure JsonStyle.Plain (style : JsonStyle) : Prop where
  separator : ∃ blanks, style.separator = ',' :: blanks ∧ JsonBlank blanks
  colon : ∃ blanks, style.colon = ':' :: blanks ∧ JsonBlank blanks

theorem JsonStyle.spaced_plain : JsonStyle.spaced.Plain where
  separator := ⟨[' '], rfl, by intro c hc; rw [List.mem_singleton.mp hc]; rfl⟩
  colon := ⟨[' '], rfl, by intro c hc; rw [List.mem_singleton.mp hc]; rfl⟩

theorem JsonStyle.lineBreak_blank (style : JsonStyle) (level : Nat) :
    JsonBlank (style.lineBreak level) := by
  intro c hc
  rw [JsonStyle.lineBreak] at hc
  rcases hwidth : style.indentation with _ | width
  · rw [hwidth] at hc
    exact absurd hc (by simp)
  · rw [hwidth] at hc
    rcases List.mem_cons.mp hc with rfl | hc
    · rfl
    · rw [(List.mem_replicate.mp hc).2]
      rfl

/-- A text that starts with something else than a blank. -/
def NoBlank (s : List Char) : Prop :=
  ∃ c rest, s = c :: rest ∧ (c == ' ' || c == '\t' || c == '\n' || c == '\r') = false

theorem noBlank_cons {c : Char} (rest : List Char)
    (h : (c == ' ' || c == '\t' || c == '\n' || c == '\r') = false) : NoBlank (c :: rest) :=
  ⟨c, rest, rfl, h⟩

theorem NoBlank.append {s : List Char} (h : NoBlank s) (t : List Char) : NoBlank (s ++ t) := by
  rcases h with ⟨c, rest, rfl, hc⟩
  exact noBlank_cons _ hc

theorem skipJsonBlanks_append {blanks s : List Char} (hb : JsonBlank blanks) (hs : NoBlank s) :
    skipJsonBlanks (blanks ++ s) = s := by
  rcases hs with ⟨c, rest, rfl, hc⟩
  rw [skipJsonBlanks, List.dropWhile_append_of_pos hb, List.dropWhile_cons_of_neg (by simpa using hc)]

theorem skipJsonBlanks_noBlank {s : List Char} (hs : NoBlank s) : skipJsonBlanks s = s :=
  @skipJsonBlanks_append [] s (fun _ hc => absurd hc (by simp)) hs

theorem numberEnds_nil : NumberEnds [] := by
  intro c rest h
  exact absurd h (by simp)

theorem numberEnds_cons {c : Char} (rest : List Char)
    (h : ¬(48 ≤ c.toNat ∧ c.toNat ≤ 57) ∧ c ≠ '.' ∧ c ≠ 'e' ∧ c ≠ 'E') : NumberEnds (c :: rest) := by
  intro d s hd
  rw [← (List.cons.inj hd).1]
  exact h

theorem numberEnds_append {blanks s : List Char} (hb : JsonBlank blanks) (hs : NumberEnds s) :
    NumberEnds (blanks ++ s) := by
  rcases blanks with _ | ⟨c, blanks⟩
  · exact hs
  · have hc := hb c List.mem_cons_self
    apply numberEnds_cons
    simp only [Bool.or_eq_true, beq_iff_eq] at hc
    rcases hc with ((rfl | rfl) | rfl) | rfl <;> decide

/-- A number starts with a digit, perhaps after a sign. -/
theorem readJsonNumber_head {s rest : List Char} {j : Json} (h : readJsonNumber s = .ok (j, rest)) :
    (∃ c t, s = c :: t ∧ 48 ≤ c.toNat ∧ c.toNat ≤ 57)
      ∨ ∃ c t, s = '-' :: c :: t ∧ 48 ≤ c.toNat ∧ c.toNat ≤ 57 := by
  unfold readJsonNumber at h
  split at h
  · rcases readUnsigned_head h with ⟨c, t, rfl, hc⟩
    exact Or.inr ⟨c, t, rfl, hc⟩
  · exact Or.inl (readUnsigned_head h)

namespace Json

/-- A number is read as one wherever a value is read. -/
theorem read_number {s rest : List Char} {j : Json} (h : readJsonNumber s = .ok (j, rest))
    (depth : Nat) : read (depth + 1) s = .ok (j, rest) := by
  rcases readJsonNumber_head h with ⟨c, t, rfl, hc⟩ | ⟨c, t, rfl, hc⟩
  · -- Nothing else starts with a digit.
    unfold read
    split
    all_goals first
      | exact h
      | (rename_i heq
         rw [(List.cons.inj heq).1] at hc
         exact absurd hc (by decide))
  · -- An infinity starts with the sign too, but then a letter follows.
    unfold read
    split
    all_goals first
      | exact h
      | (rename_i heq
         simp only [List.cons.injEq] at heq
         first
           | exact absurd heq.1 (by decide)
           | (rw [heq.2.1] at hc
              exact absurd hc (by decide)))

theorem expectWord_append (word rest : List Char) : expectWord word (word ++ rest) = .ok rest := by
  have hpre : word.isPrefixOf (word ++ rest) = true :=
    List.isPrefixOf_iff_prefix.mpr (List.prefix_append word rest)
  rw [expectWord, if_pos hpre, List.drop_left]

/-- The text of a double reads back. -/
theorem read_float (d : Double) (depth : Nat) {rest : List Char} (hr : NumberEnds rest) :
    read (depth + 1) ((d.textWith "Infinity" "NaN").toList ++ rest) = .ok (float d, rest) := by
  cases d with
  | finite negative rank =>
    exact read_number (readJsonNumber_finite negative rank "Infinity" "NaN" hr) depth
  | infinite negative =>
    cases negative with
    | false =>
      exact congrArg (Except.map fun rest => (float (.infinite false), rest))
        (expectWord_append "Infinity".toList rest)
    | true =>
      exact congrArg (Except.map fun rest => (float (.infinite true), rest))
        (expectWord_append "-Infinity".toList rest)
  | nan =>
    exact congrArg (Except.map fun rest => (float .nan, rest)) (expectWord_append "NaN".toList rest)

/-- A value starts neither with a blank nor with a closing bracket. -/
theorem write_head (style : JsonStyle) (level : Nat) {j : Json} (hj : Readable j) :
    ∃ c s, write style level j = c :: s
      ∧ (c == ' ' || c == '\t' || c == '\n' || c == '\r') = false ∧ c ≠ ']' := by
  have hnumber : ∀ {s : List Char} {j : Json}, readJsonNumber (s ++ []) = .ok (j, []) →
      ∃ c t, s = c :: t
        ∧ (c == ' ' || c == '\t' || c == '\n' || c == '\r') = false ∧ c ≠ ']' := by
    intro s j h
    rw [List.append_nil] at h
    rcases readJsonNumber_head h with ⟨c, t, rfl, hc⟩ | ⟨c, t, rfl, -⟩
    · refine ⟨c, t, rfl, ?_, ?_⟩
      · rw [Bool.eq_false_iff]
        simp only [Ne, Bool.or_eq_true, beq_iff_eq]
        rintro (((rfl | rfl) | rfl) | rfl) <;> exact absurd hc (by decide)
      · rintro rfl
        exact absurd hc (by decide)
    · exact ⟨'-', c :: t, rfl, by decide, by decide⟩
  cases j with
  | null => exact ⟨'n', _, rfl, by decide, by decide⟩
  | bool b =>
    cases b with
    | false => exact ⟨'f', _, rfl, by decide, by decide⟩
    | true => exact ⟨'t', _, rfl, by decide, by decide⟩
  | int n => exact hnumber (readJsonNumber_int hj numberEnds_nil)
  | float d =>
    cases d with
    | finite negative rank =>
      exact hnumber (readJsonNumber_finite negative rank "Infinity" "NaN" numberEnds_nil)
    | infinite negative =>
      cases negative with
      | false => exact ⟨'I', _, rfl, by decide, by decide⟩
      | true => exact ⟨'-', _, rfl, by decide, by decide⟩
    | nan => exact ⟨'N', _, rfl, by decide, by decide⟩
  | string s => exact ⟨'"', _, rfl, by decide, by decide⟩
  | array items =>
    cases items with
    | nil => exact ⟨'[', _, rfl, by decide, by decide⟩
    | cons item items => exact ⟨'[', _, rfl, by decide, by decide⟩
  | object members =>
    rcases members with _ | ⟨⟨name, item⟩, members⟩
    · exact ⟨'{', _, rfl, by decide, by decide⟩
    · exact ⟨'{', _, rfl, by decide, by decide⟩

theorem write_noBlank (style : JsonStyle) (level : Nat) {j : Json} (hj : Readable j) :
    NoBlank (write style level j) := by
  rcases write_head style level hj with ⟨c, s, hs, hc, -⟩
  exact ⟨c, s, hs, hc⟩

theorem write_length_pos (style : JsonStyle) (level : Nat) {j : Json} (hj : Readable j) :
    0 < (write style level j).length := by
  rcases write_head style level hj with ⟨c, s, hs, -⟩
  rw [hs]
  exact Nat.succ_pos _

/-- A depth that is enough for a value is enough for one step. -/
theorem exists_depth {style : JsonStyle} {level depth : Nat} {j : Json} (hj : Readable j)
    (hdepth : (write style level j).length ≤ depth) : ∃ n, depth = n + 1 := by
  have hpos := write_length_pos style level hj
  exact ⟨depth - 1, by omega⟩

end Json

/-- A name and its colon are read back. -/
theorem readName_write {style : JsonStyle} (hstyle : style.Plain) (name : String) {s : List Char}
    (hs : NoBlank s) :
    readName (name.toList.flatMap writeChar ++ '"' :: (style.colon ++ s)) = .ok (name, s) := by
  rcases hstyle.colon with ⟨blanks, hcolon, hblank⟩
  have hskip : skipJsonBlanks (style.colon ++ s) = ':' :: (blanks ++ s) := by
    rw [hcolon, List.cons_append]
    exact skipJsonBlanks_noBlank (noBlank_cons _ rfl)
  rw [readName, readJsonString_write, ok_bind]
  simp only [hskip, skipJsonBlanks_append hblank hs]

namespace Json

/-- What follows an item of an array or an object. -/
theorem numberEnds_after {style : JsonStyle} (hstyle : style.Plain) (level : Nat)
    (rest : List Char) (close : Char) (hclose : close = ']' ∨ close = '}') {s : List Char}
    (hs : s = [] ∨ ∃ t, s = style.separator ++ t) :
    NumberEnds (s ++ (style.lineBreak level ++ close :: rest)) := by
  rcases hs with rfl | ⟨t, rfl⟩
  · rw [List.nil_append]
    refine numberEnds_append (style.lineBreak_blank level) (numberEnds_cons _ ?_)
    rcases hclose with rfl | rfl <;> decide
  · rcases hstyle.separator with ⟨blanks, hseparator, -⟩
    rw [hseparator]
    exact numberEnds_cons _ (by decide)

theorem writeItems_cases (style : JsonStyle) (level : Nat) (items : List Json) :
    writeItems style level items = [] ∨ ∃ t, writeItems style level items = style.separator ++ t := by
  cases items with
  | nil => exact Or.inl rfl
  | cons item items =>
    right
    simp only [writeItems, List.append_assoc]
    exact ⟨_, rfl⟩

theorem writeMembers_cases (style : JsonStyle) (level : Nat) (members : List (String × Json)) :
    writeMembers style level members = []
      ∨ ∃ t, writeMembers style level members = style.separator ++ t := by
  rcases members with _ | ⟨⟨name, item⟩, members⟩
  · exact Or.inl rfl
  · right
    simp only [writeMembers, List.append_assoc]
    exact ⟨_, rfl⟩

mutual

/-- The text of a value is read back, whatever follows it. -/
theorem read_write {style : JsonStyle} (hstyle : style.Plain) : ∀ (j : Json), Readable j →
    ∀ (level depth : Nat) (rest : List Char), (write style level j).length ≤ depth →
      NumberEnds rest → read depth (write style level j ++ rest) = .ok (j, rest)
  | null, hj, level, depth, rest, hdepth, hrest => by
    obtain ⟨n, rfl⟩ := exists_depth hj hdepth
    exact congrArg (Except.map fun rest => (null, rest)) (expectWord_append "null".toList rest)
  | bool false, hj, level, depth, rest, hdepth, hrest => by
    obtain ⟨n, rfl⟩ := exists_depth hj hdepth
    exact congrArg (Except.map fun rest => (bool false, rest))
      (expectWord_append "false".toList rest)
  | bool true, hj, level, depth, rest, hdepth, hrest => by
    obtain ⟨n, rfl⟩ := exists_depth hj hdepth
    exact congrArg (Except.map fun rest => (bool true, rest)) (expectWord_append "true".toList rest)
  | int n, hj, level, depth, rest, hdepth, hrest => by
    obtain ⟨d, rfl⟩ := exists_depth hj hdepth
    exact read_number (readJsonNumber_int hj hrest) d
  | float d, hj, level, depth, rest, hdepth, hrest => by
    obtain ⟨n, rfl⟩ := exists_depth hj hdepth
    exact read_float d n hrest
  | string s, hj, level, depth, rest, hdepth, hrest => by
    obtain ⟨n, rfl⟩ := exists_depth hj hdepth
    have hs := readJsonString_write s rest
    rw [write, writeString, List.append_assoc, List.singleton_append, List.cons_append, read, hs]
    rfl
  | array [], hj, level, depth, rest, hdepth, hrest => by
    obtain ⟨n, rfl⟩ := exists_depth hj hdepth
    rfl
  | array (item :: items), hj, level, depth, rest, hdepth, hrest => by
    obtain ⟨n, rfl⟩ := exists_depth hj hdepth
    simp only [Readable, ReadableItems] at hj
    simp only [write, List.length_append, List.length_cons, List.length_nil] at hdepth
    -- What follows the first item ends a number, whether it is a comma or the bracket.
    have hafter := numberEnds_after hstyle level rest ']' (Or.inl rfl)
      (writeItems_cases style (level + 1) items)
    have hitem := read_write hstyle item hj.1 (level + 1) n _ (by omega) hafter
    have hitems := readItems_write hstyle items hj.2 (level + 1) level n rest (by omega)
    rcases write_head style (level + 1) hj.1 with ⟨c, t, hwrite, hc, hclose⟩
    have hskip := skipJsonBlanks_append (style.lineBreak_blank (level + 1))
      (NoBlank.append (write_noBlank style (level + 1) hj.1)
        (writeItems style (level + 1) items ++ (style.lineBreak level ++ ']' :: rest)))
    simp only [write, List.append_assoc, List.cons_append, List.nil_append]
    simp only [read, hskip]
    rw [hwrite, List.cons_append] at hitem ⊢
    split
    · -- The array would be empty, but an item does not start with the bracket.
      rename_i heq
      exact absurd (List.cons.inj heq).1 hclose
    · simp only [hitem, hitems, ok_bind]
  | object [], hj, level, depth, rest, hdepth, hrest => by
    obtain ⟨n, rfl⟩ := exists_depth hj hdepth
    rfl
  | object ((name, item) :: members), hj, level, depth, rest, hdepth, hrest => by
    obtain ⟨n, rfl⟩ := exists_depth hj hdepth
    simp only [Readable, ReadableMembers] at hj
    simp only [write, List.length_append, List.length_cons, List.length_nil] at hdepth
    have hafter := numberEnds_after hstyle level rest '}' (Or.inr rfl)
      (writeMembers_cases style (level + 1) members)
    have hitem := read_write hstyle item hj.2.1 (level + 1) n _ (by omega) hafter
    have hmembers := readMembers_write hstyle members hj.2.2 (level + 1) level n rest (by omega)
    have hname := readName_write hstyle name
      (NoBlank.append (write_noBlank style (level + 1) hj.2.1)
        (writeMembers style (level + 1) members ++ (style.lineBreak level ++ '}' :: rest)))
    simp only [write, writeString, List.append_assoc, List.cons_append, List.nil_append]
    simp only [read]
    rw [skipJsonBlanks_append (style.lineBreak_blank (level + 1)) (noBlank_cons _ rfl)]
    -- Names do not repeat, so no member takes the place of another.
    simp only [hname, hitem, hmembers, ok_bind, Members.ofList_of_nodup _ hj.1]

theorem readItems_write {style : JsonStyle} (hstyle : style.Plain) : ∀ (items : List Json),
    ReadableItems items → ∀ (level outer depth : Nat) (rest : List Char),
      (writeItems style level items).length < depth →
      readItems depth (skipJsonBlanks
        (writeItems style level items ++ (style.lineBreak outer ++ ']' :: rest)))
        = .ok (items, rest)
  | [], _, level, outer, depth, rest, hdepth => by
    obtain ⟨n, rfl⟩ : ∃ n, depth = n + 1 := ⟨depth - 1, by omega⟩
    rw [writeItems, List.nil_append,
      skipJsonBlanks_append (style.lineBreak_blank outer) (noBlank_cons rest rfl)]
    rfl
  | item :: items, hread, level, outer, depth, rest, hdepth => by
    obtain ⟨n, rfl⟩ : ∃ n, depth = n + 1 := ⟨depth - 1, by omega⟩
    rcases hstyle.separator with ⟨blanks, hseparator, hblank⟩
    rw [ReadableItems] at hread
    simp only [writeItems, hseparator, List.length_append, List.length_cons] at hdepth
    have hafter := numberEnds_after hstyle outer rest ']' (Or.inl rfl)
      (writeItems_cases style level items)
    -- An item and those after it are shorter than the list, so the depth left is enough for both.
    have hitem := read_write hstyle item hread.1 level n _ (by omega) hafter
    have hitems := readItems_write hstyle items hread.2 level outer n rest (by omega)
    have hnoblank := NoBlank.append (write_noBlank style level hread.1)
      (writeItems style level items ++ (style.lineBreak outer ++ ']' :: rest))
    have hbreak : JsonBlank (blanks ++ style.lineBreak level) := fun c hc =>
      (List.mem_append.mp hc).elim (hblank c) (style.lineBreak_blank level c)
    have hskip := skipJsonBlanks_append hbreak hnoblank
    rw [List.append_assoc] at hskip
    simp only [writeItems, hseparator, List.append_assoc, List.cons_append]
    rw [skipJsonBlanks_noBlank (noBlank_cons _ rfl)]
    simp only [readItems, hskip, hitem, hitems, ok_bind]

theorem readMembers_write {style : JsonStyle} (hstyle : style.Plain) :
    ∀ (members : List (String × Json)), ReadableMembers members →
      ∀ (level outer depth : Nat) (rest : List Char),
      (writeMembers style level members).length < depth →
      readMembers depth (skipJsonBlanks
        (writeMembers style level members ++ (style.lineBreak outer ++ '}' :: rest)))
        = .ok (members, rest)
  | [], _, level, outer, depth, rest, hdepth => by
    obtain ⟨n, rfl⟩ : ∃ n, depth = n + 1 := ⟨depth - 1, by omega⟩
    rw [writeMembers, List.nil_append,
      skipJsonBlanks_append (style.lineBreak_blank outer) (noBlank_cons rest rfl)]
    rfl
  | (name, item) :: members, hread, level, outer, depth, rest, hdepth => by
    obtain ⟨n, rfl⟩ : ∃ n, depth = n + 1 := ⟨depth - 1, by omega⟩
    rcases hstyle.separator with ⟨blanks, hseparator, hblank⟩
    rw [ReadableMembers] at hread
    simp only [writeMembers, hseparator, List.length_append, List.length_cons] at hdepth
    have hafter := numberEnds_after hstyle outer rest '}' (Or.inr rfl)
      (writeMembers_cases style level members)
    -- A member and those after it are shorter than the list, so the depth left is enough for both.
    have hitem := read_write hstyle item hread.1 level n _ (by omega) hafter
    have hmembers := readMembers_write hstyle members hread.2 level outer n rest (by omega)
    have hname := readName_write hstyle name
      (NoBlank.append (write_noBlank style level hread.1)
        (writeMembers style level members ++ (style.lineBreak outer ++ '}' :: rest)))
    have hbreak : JsonBlank (blanks ++ style.lineBreak level) := fun c hc =>
      (List.mem_append.mp hc).elim (hblank c) (style.lineBreak_blank level c)
    simp only [writeMembers, writeString, hseparator, List.append_assoc, List.cons_append,
      List.nil_append]
    rw [skipJsonBlanks_noBlank (noBlank_cons _ rfl)]
    simp only [readMembers]
    rw [← List.append_assoc blanks, skipJsonBlanks_append hbreak (noBlank_cons _ rfl)]
    simp only [hname, hitem, hmembers, ok_bind]

end

/-- The text of a value denotes it. -/
theorem ofChars_write {style : JsonStyle} (hstyle : style.Plain) {j : Json} (hj : Readable j) :
    ofChars (write style 0 j) = .ok j := by
  have hread := read_write hstyle j hj 0 ((write style 0 j).length + 1) [] (Nat.le_succ _)
    numberEnds_nil
  rw [List.append_nil] at hread
  rw [ofChars, skipJsonBlanks_noBlank (write_noBlank style 0 hj), hread, ok_bind]
  rfl

/-- The stored form of a value is read back. -/
theorem ofBytes_write {style : JsonStyle} (hstyle : style.Plain) {j : Json} (hj : Readable j) :
    ofBytes (encodeChars (write style 0 j)) = .ok j := by
  simp only [ofBytes, decode?_encodeChars, String.toList_ofList, ofChars_write hstyle hj]

end Json

end TableStore
