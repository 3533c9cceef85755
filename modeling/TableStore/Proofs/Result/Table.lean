import Mathlib.Data.List.Basic
import Mathlib.Data.List.Forall2
import Mathlib.Data.List.Infix
import TableStore.Proofs.Text.Digits
import TableStore.Result.Table

/-!
# What a Table of Results Tells

The text of rows tells how many they are, and it is meant to tell what is in
them: a cell whose text has a separator stands in quotes. But a quote that
belongs to the text is left as it is, so a quote in the table does not say by
itself whether a cell begins, ends or goes on. Two different lists of rows can
have the same text.

They cannot if each text is clear. A text that is not put in quotes must not
begin with one, and in a text that is, no quote may stand before a separator.
The first quote before a separator is then the end of the cell. Neither
condition can be dropped.

A table is lists within a list, and both are cut in the same way. So there is one
lemma about joining, which turns things that can be cut off into a list that can
be cut off. It is used for the cells of a row and then for the rows.

## Main definitions

* `IsClear`: A text that can be told from what stands around it.
* `CutsOff`: Texts of things that can be cut off from what follows.

## Theorems

* `cutsOff_cellOf`: Clear texts can be cut off as cells.
* `CutsOff.joinWith`: Lists of things that can be cut off can be cut off too.
* `tableHeader_append_inj`: The number of rows is told.
* `renderTable_determines`: The texts of rows are told if they are clear.
* `renderTable_confuses`: They are not told if they are not.
-/

namespace TableStore

/-- A text that can be told from what stands around it in a table. -/
structure IsClear (s : List Char) : Prop where
  quoted : needsQuotes s = true → ¬['"', ','] <:+: s ∧ ¬['"', ';'] <:+: s
  bare : needsQuotes s = false → ¬['"'] <+: s

instance (s : List Char) : Decidable (IsClear s) :=
  decidable_of_iff
    ((needsQuotes s = true → ¬['"', ','] <:+: s ∧ ¬['"', ';'] <:+: s)
      ∧ (needsQuotes s = false → ¬['"'] <+: s))
    ⟨fun h => ⟨h.1, h.2⟩, fun h => ⟨h.quoted, h.bare⟩⟩

/-- A character that stands between cells or between rows. -/
def IsSeparator (c : Char) : Prop :=
  c = ',' ∨ c = ';'

/-- What can follow a cell: nothing, or something after a separator. -/
def EndsCell (s : List Char) : Prop :=
  ∀ c rest, s = c :: rest → IsSeparator c

theorem endsCell_nil : EndsCell [] :=
  fun _ _ h => absurd h (by simp)

theorem endsCell_cons {c : Char} (hc : IsSeparator c) (s : List Char) : EndsCell (c :: s) := by
  intro d rest h
  rw [← (List.cons.inj h).1]
  exact hc

theorem needsQuotes_of_mem {c : Char} (hc : IsSeparator c) {s : List Char} (hmem : c ∈ s) :
    needsQuotes s = true := by
  refine List.any_eq_true.mpr ⟨c, hmem, ?_⟩
  rcases hc with rfl | rfl <;> rfl

theorem IsSeparator.ne_quote {c : Char} (hc : IsSeparator c) : c ≠ '"' := by
  rcases hc with rfl | rfl <;> decide

theorem cellOf_text (s : String) :
    cellOf (.text s) = if needsQuotes s.toList then '"' :: s.toList ++ ['"'] else s.toList :=
  rfl

/-- Different texts have different cells. A text with a separator in it is no cell
    that could do without quotes. -/
theorem cellOf_text_inj {s t : String} (h : cellOf (.text s) = cellOf (.text t)) : s = t := by
  have hmixed : ∀ {u v : String}, needsQuotes u.toList = true → needsQuotes v.toList = false →
      '"' :: u.toList ++ ['"'] ≠ v.toList := by
    intro u v hu hv huv
    rcases List.any_eq_true.mp hu with ⟨c, hmem, hc⟩
    have hany : needsQuotes v.toList = true := by
      rw [← huv]
      exact List.any_eq_true.mpr ⟨c, by simp [hmem], hc⟩
    rw [hv] at hany
    exact Bool.false_ne_true hany
  rw [cellOf_text, cellOf_text] at h
  rcases hs : needsQuotes s.toList with _ | _ <;> rcases ht : needsQuotes t.toList with _ | _ <;>
    simp only [hs, ht, if_true, Bool.false_eq_true, if_false] at h
  · exact String.toList_inj.mp h
  · exact absurd h.symm (hmixed ht hs)
  · exact absurd h (hmixed hs ht)
  · simp only [List.cons_append, List.cons.injEq, true_and, List.append_cancel_right_eq] at h
    exact String.toList_inj.mp h

/-- A quote within a text that ends with one belongs to what stands before that one. -/
theorem quote_infix_of_append {s t rest : List Char} {c : Char} (hc : c ≠ '"')
    (h : t ++ ['"'] = s ++ '"' :: c :: rest) : ['"', c] <:+: t := by
  rcases List.eq_nil_or_concat rest with rfl | ⟨inner, last, rfl⟩
  · have hlast := congrArg List.getLast? h
    simp only [List.getLast?_append, List.getLast?_cons_cons, List.getLast?_singleton,
      Option.some_or, Option.some.injEq] at hlast
    exact absurd hlast.symm hc
  · have hsplit : t ++ ['"'] = (s ++ ['"', c] ++ inner) ++ [last] := by
      simpa using h
    exact ⟨s, inner, (List.append_inj' hsplit rfl).1.symm⟩

/-- The cell of a clear text does not go on where that of another one ends. -/
theorem cellOf_ne_append {s t : String} (hs : IsClear s.toList) (ht : IsClear t.toList) {c : Char}
    (hc : IsSeparator c) (rest : List Char) :
    cellOf (.text t) ≠ cellOf (.text s) ++ c :: rest := by
  intro h
  rw [cellOf_text, cellOf_text] at h
  rcases hneeds : needsQuotes t.toList with _ | _
  · -- Without quotes there is no separator in the longer cell.
    rw [hneeds, if_neg Bool.false_ne_true] at h
    have hmem : c ∈ t.toList := by
      rw [h]
      exact List.mem_append_right _ List.mem_cons_self
    rw [needsQuotes_of_mem hc hmem] at hneeds
    exact Bool.false_ne_true hneeds.symm
  · rw [hneeds, if_pos rfl] at h
    rcases hbare : needsQuotes s.toList with _ | _
    · -- The shorter cell is the one that begins with a quote, and it has none around it.
      rw [hbare, if_neg Bool.false_ne_true] at h
      rcases hcons : s.toList with _ | ⟨a, tail⟩
      · rw [hcons, List.nil_append, List.cons_append, List.cons.injEq] at h
        exact hc.ne_quote h.1.symm
      · rw [hcons, List.cons_append, List.cons_append, List.cons.injEq] at h
        refine hs.bare hbare ?_
        rw [hcons, ← h.1]
        exact List.cons_prefix_cons.mpr ⟨rfl, List.nil_prefix⟩
    · -- The quote that ends the shorter cell stands before a separator in the longer one.
      rw [hbare, if_pos rfl] at h
      simp only [List.cons_append, List.cons.injEq, true_and, List.append_assoc,
        List.nil_append] at h
      have hinfix := quote_infix_of_append hc.ne_quote h
      rcases hc with rfl | rfl
      · exact (ht.quoted hneeds).1 hinfix
      · exact (ht.quoted hneeds).2 hinfix

section

variable {α : Type}

/-- Things with a property whose texts can be cut off from what follows, up to the
    next separator. -/
def CutsOff (p : α → Prop) (write : α → List Char) : Prop :=
  ∀ a b s t, p a → p b → EndsCell s → EndsCell t → write a ++ s = write b ++ t → a = b ∧ s = t

/-- Clear texts can be cut off as cells. -/
theorem cutsOff_cellOf :
    CutsOff (fun s : String => IsClear s.toList) fun s => cellOf (.text s) := by
  have hlonger : ∀ {a b : String} {u s : List Char}, IsClear a.toList → IsClear b.toList →
      EndsCell (u ++ s) → cellOf (.text b) = cellOf (.text a) ++ u → u = [] := by
    intro a b u s ha hb hends h
    rcases u with _ | ⟨c, u⟩
    · rfl
    · exact absurd h (cellOf_ne_append ha hb (hends c _ rfl) u)
  intro a b s t ha hb hs ht h
  rcases List.append_eq_append_iff.mp h with ⟨u, hcell, hrest⟩ | ⟨u, hcell, hrest⟩
  · obtain rfl := hlonger ha hb (hrest ▸ hs) hcell
    rw [List.append_nil] at hcell
    exact ⟨(cellOf_text_inj hcell).symm, hrest⟩
  · obtain rfl := hlonger hb ha (hrest ▸ ht) hcell
    rw [List.append_nil] at hcell
    exact ⟨cellOf_text_inj hcell, hrest.symm⟩

/-- Lists of one length of things that can be cut off can be cut off too. -/
theorem CutsOff.joinWith {p : α → Prop} {write : α → List Char} (h : CutsOff p write)
    {separator : Char} (hsep : IsSeparator separator) (n : Nat) :
    CutsOff (fun list : List α => list.length = n ∧ ∀ a ∈ list, p a)
      fun list => TableStore.joinWith separator (list.map write) := by
  rintro list other s t ⟨hlength, hlist⟩ ⟨hlength', hother⟩ hs ht heq
  induction list generalizing other n with
  | nil =>
    obtain rfl : other = [] := List.length_eq_zero_iff.mp (hlength'.trans hlength.symm)
    exact ⟨rfl, heq⟩
  | cons a list ih =>
    rcases other with _ | ⟨b, other⟩
    · rw [← hlength] at hlength'
      exact absurd hlength' (by simp)
    rw [List.forall_mem_cons] at hlist hother
    have hlengths : other.length = list.length := by
      rw [List.length_cons] at hlength hlength'
      omega
    rcases list with _ | ⟨a', list⟩
    · obtain rfl : other = [] := List.length_eq_zero_iff.mp hlengths
      rcases h a b s t hlist.1 hother.1 hs ht heq with ⟨rfl, hrest⟩
      exact ⟨rfl, hrest⟩
    · rcases other with _ | ⟨b', other⟩
      · exact absurd hlengths (by simp)
      -- The first of each list is cut off, and the others follow after the separator.
      simp only [List.map_cons, TableStore.joinWith, List.append_assoc, List.cons_append] at heq ih
      rcases h a b _ _ hlist.1 hother.1 (endsCell_cons hsep _) (endsCell_cons hsep _) heq with
        ⟨rfl, hrest⟩
      rcases ih _ _ rfl hlist.2 hlengths hother.2 (List.cons.inj hrest).2 with ⟨hothers, htail⟩
      exact ⟨by rw [hothers], htail⟩

end

/-- The header tells the number of rows. -/
theorem tableHeader_append_inj {table : String} {n k : Nat} {fields : List String} {s t : List Char}
    (h : tableHeader table n fields ++ s = tableHeader table k fields ++ t) : n = k ∧ s = t := by
  -- The number ends where the bracket stands, which is no digit.
  have hread : ∀ (m : Nat) (rest : List Char), takeAsciiDigits (Nat.toDigits 10 m ++ ']' :: rest)
      = (Text.digitValues (Nat.toDigits 10 m), ']' :: rest) := fun m rest =>
    Text.takeAsciiDigits_append (fun _ hc => Text.isDigit_toDigits hc)
      (Text.noDigit_cons (by decide))
  simp only [tableHeader, List.append_assoc, List.cons_append, List.append_cancel_left_eq,
    List.cons.injEq, true_and] at h
  have hparts := congrArg takeAsciiDigits h
  rw [hread, hread, Prod.mk.injEq] at hparts
  rcases hparts with ⟨hdigits, hrest⟩
  have hnumber := congrArg Text.numberOfDigits hdigits
  rw [Text.numberOfDigits_toDigits, Text.numberOfDigits_toDigits] at hnumber
  simp only [List.append_cancel_left_eq, List.cons.injEq, true_and, List.nil_append] at hrest
  exact ⟨hnumber, hrest⟩

/-- The text of rows with fields that are given, if all cells have a text. -/
theorem renderTable_eq {table : String} {fields : List String} {rows : List Row}
    (h : ∀ row ∈ rows, ∀ name ∈ fields, (Row.value row name).hasText = true) :
    renderTable table rows (some fields) = .ok (String.ofList
      (tableHeader table rows.length fields ++ joinWith ';' (rows.map (renderRow fields)))) := by
  rcases rows with _ | ⟨first, rows⟩
  · rw [List.map_nil, joinWith, List.append_nil]
    rfl
  · have htexts : fieldsHaveText (first :: rows) fields = true :=
      List.all_eq_true.mpr fun row hrow => List.all_eq_true.mpr (h row hrow)
    rw [renderTable, Option.getD_some, if_pos htexts]

section

variable {table : String} {fields : List String} {rows others : List Row}

/-- Rows that have a text in each of the fields. -/
def HoldTexts (fields : List String) (rows : List Row) : Prop :=
  ∀ row ∈ rows, ∀ name ∈ fields, ∃ s, Row.value row name = .text s

/-- The texts that a row has in the fields. -/
def Row.texts (fields : List String) (row : Row) : List String :=
  fields.map fun name => (Row.value row name).toText

theorem HoldTexts.renderRow (h : HoldTexts fields rows) {row : Row} (hrow : row ∈ rows) :
    renderRow fields row = joinWith ',' ((Row.texts fields row).map fun s => cellOf (.text s)) := by
  rw [TableStore.renderRow, Row.texts, List.map_map]
  congr 1
  refine List.map_congr_left fun name hname => ?_
  rcases h row hrow name hname with ⟨s, hs⟩
  rw [Function.comp, hs]
  rfl

theorem HoldTexts.render (h : HoldTexts fields rows) :
    renderTable table rows (some fields) = .ok (String.ofList (tableHeader table rows.length fields
      ++ joinWith ';' ((rows.map (Row.texts fields)).map fun texts =>
        joinWith ',' (texts.map fun s => cellOf (.text s))))) := by
  have hrows : rows.map (TableStore.renderRow fields)
      = (rows.map (Row.texts fields)).map fun texts =>
        joinWith ',' (texts.map fun s => cellOf (.text s)) := by
    rw [List.map_map]
    exact List.map_congr_left fun row hrow => h.renderRow hrow
  rw [renderTable_eq, hrows]
  intro row hrow name hname
  rcases h row hrow name hname with ⟨s, hs⟩
  rw [hs]
  rfl

/-- Rows with the same texts have the same values. -/
theorem HoldTexts.forall₂_of_texts (h : HoldTexts fields rows) (hothers : HoldTexts fields others)
    (heq : rows.map (Row.texts fields) = others.map (Row.texts fields)) :
    List.Forall₂ (fun row other => ∀ name ∈ fields, Row.value row name = Row.value other name)
      rows others := by
  have hforall : List.Forall₂ (fun row other => Row.texts fields row = Row.texts fields other)
      rows others := by
    rw [← List.forall₂_eq_eq_eq, List.forall₂_map_left_iff, List.forall₂_map_right_iff] at heq
    exact heq
  rw [List.forall₂_iff_get] at hforall ⊢
  refine ⟨hforall.1, fun i hi hi' name hname => ?_⟩
  rcases h _ (List.get_mem rows ⟨i, hi⟩) name hname with ⟨s, hs⟩
  rcases hothers _ (List.get_mem others ⟨i, hi'⟩) name hname with ⟨t, ht⟩
  have htext := List.map_inj_left.mp (hforall.2 i hi hi') name hname
  rw [hs, ht] at htext ⊢
  exact congrArg Value.text htext

/-- Two lists of rows that hold texts and have one text in a table are of one length, and they
    hold the same texts if all of these are clear. -/
theorem renderTable_determines (hrows : HoldTexts fields rows) (hothers : HoldTexts fields others)
    (h : renderTable table rows (some fields) = renderTable table others (some fields)) :
    rows.length = others.length
      ∧ ((∀ row ∈ rows ++ others, ∀ s ∈ Row.texts fields row, IsClear s.toList) →
        List.Forall₂ (fun row other => ∀ name ∈ fields, Row.value row name = Row.value other name)
          rows others) := by
  rw [hrows.render, hothers.render, Except.ok.injEq, String.ofList_inj] at h
  rcases tableHeader_append_inj h with ⟨hlength, hbody⟩
  refine ⟨hlength, fun hclear => hrows.forall₂_of_texts hothers ?_⟩
  have hcut := (cutsOff_cellOf.joinWith (Or.inl rfl) fields.length).joinWith (Or.inr rfl) rows.length
  refine (hcut _ _ [] [] ⟨List.length_map _, ?_⟩ ⟨(List.length_map _).trans hlength.symm, ?_⟩
    endsCell_nil endsCell_nil ?_).1
  · intro texts htexts
    rcases List.mem_map.mp htexts with ⟨row, hrow, rfl⟩
    exact ⟨List.length_map _, hclear row (List.mem_append_left _ hrow)⟩
  · intro texts htexts
    rcases List.mem_map.mp htexts with ⟨row, hrow, rfl⟩
    exact ⟨List.length_map _, hclear row (List.mem_append_right _ hrow)⟩
  · rw [List.append_nil, List.append_nil]
    exact hbody

end

/-- Rows with quotes and separators in many places, and a member that is not shown. -/
def quotingRows (hidden : Value) : List Row :=
  [[("a", .text "say \"x\""), ("b", .text ",\"y"), ("c", hidden)],
    [("b", .text ";\""), ("c", hidden), ("a", .text "\n\"")], [("a", .text ""), ("b", .text ";")]]

theorem holdTexts_quotingRows (hidden : Value) : HoldTexts ["a", "b"] (quotingRows hidden) := by
  simp [HoldTexts, quotingRows, Row.value, Members.get?]

/-- Rows that differ in the member that is not shown have one text. -/
theorem renderTable_determines_quotingRows :
    renderTable "t" (quotingRows .null) (some ["a", "b"])
        = renderTable "t" (quotingRows (.int 1)) (some ["a", "b"])
      ∧ (∀ row ∈ quotingRows .null ++ quotingRows (.int 1), ∀ s ∈ Row.texts ["a", "b"] row,
        IsClear s.toList)
      ∧ (quotingRows .null).length = (quotingRows (.int 1)).length
      ∧ List.Forall₂ (fun row other => ∀ name ∈ ["a", "b"], Row.value row name = Row.value other name)
        (quotingRows .null) (quotingRows (.int 1)) := by
  have htext : renderTable "t" (quotingRows .null) (some ["a", "b"])
      = renderTable "t" (quotingRows (.int 1)) (some ["a", "b"]) := by
    decide +kernel
  have hclear : ∀ row ∈ quotingRows .null ++ quotingRows (.int 1), ∀ s ∈ Row.texts ["a", "b"] row,
      IsClear s.toList := by
    decide +kernel
  rcases renderTable_determines (holdTexts_quotingRows .null) (holdTexts_quotingRows (.int 1)) htext
    with ⟨hlength, hvalues⟩
  exact ⟨htext, hclear, hlength, hvalues hclear⟩

/-- A text that begins with a quote is not told from a quoted one with a separator in it, and a
    quoted text with a quote before a separator is not told from two texts. -/
theorem renderTable_confuses :
    (HoldTexts ["a", "b"] [[("a", .text "\"x"), ("b", .text "y\",z")]]
      ∧ HoldTexts ["a", "b"] [[("a", .text "x,\"y"), ("b", .text "z\"")]]
      ∧ renderTable "t" [[("a", .text "\"x"), ("b", .text "y\",z")]] (some ["a", "b"])
        = renderTable "t" [[("a", .text "x,\"y"), ("b", .text "z\"")]] (some ["a", "b"]))
    ∧ HoldTexts ["a", "b"] [[("a", .text "x,y"), ("b", .text "z\",w")]]
      ∧ HoldTexts ["a", "b"] [[("a", .text "x,y\",\"z"), ("b", .text "w\"")]]
      ∧ renderTable "t" [[("a", .text "x,y"), ("b", .text "z\",w")]] (some ["a", "b"])
        = renderTable "t" [[("a", .text "x,y\",\"z"), ("b", .text "w\"")]] (some ["a", "b"]) := by
  refine ⟨⟨?_, ?_, by decide +kernel⟩, ?_, ?_, by decide +kernel⟩
  all_goals simp [HoldTexts, Row.value, Members.get?]

end TableStore
