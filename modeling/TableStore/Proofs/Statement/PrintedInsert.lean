import TableStore.Proofs.Except
import TableStore.Proofs.Statement.Items

/-!
# Printed Insertions

An insertion is read back from its text. Its lists stand in parentheses: the
names end at the first closing one, for no name has one, and the values at the
last one, for it ends the text. What else a literal contains is hidden.

## Theorems

* `readNames_listed`: A list of names is read back.
* `readValues_listed`: A list of values is read back.
* `readInsert_cells`, `ofText_insert`: An insertion is read back from its cells and
  from its text.
-/

namespace TableStore

section Lists

variable {names : List String} {values : List Value}

theorem hasRepeats_of_nodup (h : names.Nodup) : hasRepeats names = false := by
  induction names with
  | nil => rfl
  | cons name names ih =>
    rw [List.nodup_cons] at h
    rw [hasRepeats, ih h.2, Bool.or_false]
    simpa using h.1

theorem visibleText_plain (w : String) : visibleText (plain w) = w := by
  have hvisible : (plain w).map Cell.visible = w.toList := by
    unfold plain
    rw [List.map_map]
    exact List.map_id _
  rw [visibleText, hvisible, String.ofList_toList]

/-- Text in parentheses that ends with the text. -/
theorem enclosed?_append (u : List Cell) : enclosed? (u ++ plain ")") = some u := by
  have hcells : u ++ plain ")" = u ++ [⟨')', false⟩] := rfl
  unfold enclosed?
  rw [hcells, List.getLast?_concat, List.dropLast_concat]
  rfl

theorem not_separates_names (h : ∀ name ∈ names, isPlainName name = true) :
    ∀ name ∈ names, ∀ c ∈ plain name, c.separates = false :=
  fun name hmem => (solid_plain (isWord_of_isPlainName (h name hmem))).separates

/-- No parenthesis is shown in a list of names. -/
theorem not_parenthesis_names (h : ∀ name ∈ names, isPlainName name = true) :
    ∀ c ∈ listed ", " (names.map plain), c.shows '(' = false ∧ c.shows ')' = false := by
  intro c hc
  cases names with
  | nil => exact absurd hc List.not_mem_nil
  | cons name names =>
    have hname : ∀ other ∈ name :: names, ∀ c ∈ plain other,
        c.shows '(' = false ∧ c.shows ')' = false := by
      intro other hother c hc
      have hseparates := not_separates_names h other hother c hc
      simp only [Cell.separates, Bool.or_eq_false_iff] at hseparates
      exact hseparates.1
    rw [List.map_cons, listed, List.mem_append, List.mem_flatMap] at hc
    rcases hc with hc | ⟨v, hv, hc⟩
    · exact hname name List.mem_cons_self c hc
    · rcases List.mem_append.mp hc with hc | hc
      · exact (show ∀ c ∈ plain ", ", c.shows '(' = false ∧ c.shows ')' = false by decide) c hc
      · rcases List.mem_map.mp hv with ⟨other, hother, rfl⟩
        exact hname other (List.mem_cons_of_mem name hother) c hc

/-- A list of names is read back. -/
theorem readNames_listed (hne : names ≠ []) (h : ∀ name ∈ names, isPlainName name = true) :
    readNames (listed ", " (names.map plain)) = .ok names := by
  have hpieces : (nameList (listed ", " (names.map plain))).map trimCells = names.map plain := by
    have hsplit := splitAtCommas_map hne
      (fun name hmem => item_name (by simp) (h name hmem)) (not_separates_names h)
    unfold splitAtCommas at hsplit
    rw [piecesWithin_eq_nameList (not_parenthesis_names h)] at hsplit
    exact Except.ok.inj hsplit
  unfold readNames
  rw [hpieces]
  refine mapM_map_eq_ok fun name hmem => ?_
  have hword := isWord_of_isPlainName (h name hmem)
  have hall : (plain name).all Cell.isWordChar = true := by
    rw [List.all_eq_true]
    exact fun c hc => (cell_of_mem_plain hword hc).1
  rw [hall, visibleText_plain, if_pos]
  simpa using plain_ne_nil hword

theorem readInsertColumns_listed (sql : String) {columns : Option (List String)}
    (h : ∀ names ∈ columns, names ≠ [] ∧ (∀ name ∈ names, isPlainName name = true) ∧ names.Nodup) :
    readInsertColumns sql (columns.map fun names => listed ", " (names.map plain))
      = .ok columns := by
  cases columns with
  | none => rfl
  | some names =>
    rcases h names rfl with ⟨hne, hnames, hnodup⟩
    rw [Option.map_some, readInsertColumns, readNames_listed hne hnames, ok_bind,
      hasRepeats_of_nodup hnodup]
    rfl

theorem item_values (hne : values ≠ []) (h : ∀ v ∈ values, v.isLiteral = true) :
    Item [] (listed ", " (values.map Value.cells)) :=
  Item.listed joins_comma (by simpa using hne)
    (List.forall_mem_map.mpr fun v hmem => item_value (by simp) (h v hmem))

/-- A list of values is read back. -/
theorem readValues_listed (hne : values ≠ []) (h : ∀ v ∈ values, v.isLiteral = true) :
    readValues (listed ", " (values.map Value.cells)) = .ok values := by
  have hitem := item_values hne h
  have htrim : trimCells (listed ", " (values.map Value.cells))
      = listed ", " (values.map Value.cells) := hitem.trimmed.trimBy
  have hempty : (listed ", " (values.map Value.cells)).isEmpty = false := by
    simpa using hitem.ne_nil
  have hsplit : splitAtCommas (listed ", " (values.map Value.cells))
      = .ok (values.map Value.cells) :=
    splitAtCommas_map hne (fun v hmem => item_value (by simp) (h v hmem))
      fun v hmem => (Value.solid_cells (h v hmem)).separates
  have hpieces : (values.map Value.cells).any List.isEmpty = false := by
    rw [List.any_eq_false]
    refine List.forall_mem_map.mpr fun v hmem => ?_
    simpa using (Value.solid_cells (h v hmem)).ne_nil
  unfold readValues
  rw [htrim, hempty, if_neg Bool.false_ne_true, hsplit, ok_bind, hpieces,
    if_neg Bool.false_ne_true]
  exact mapM_map_eq_ok fun v hmem => Value.ofLiteral_cells (h v hmem)

end Lists

section Insert

variable {style : Style} {table : String} {columns : Option (List String)} {values : List Value}

theorem insert_cells (style : Style) (table : String) (columns : Option (List String))
    (values : List Value) :
    (Statement.insert table columns values).cells style
      = plain "INSERT" ++ (plain " " ++ (plain "INTO" ++ (plain " " ++ (plain table
        ++ (columnListCells columns ++ (plain " VALUES (" ++ (listed ", " (values.map Value.cells)
          ++ plain ")"))))))) := by
  simp only [Statement.cells, plain_append, List.append_assoc]
  rfl

/-- The lists of an insertion are found between their parentheses. -/
theorem insertLists?_cells
    (h : ∀ names ∈ columns, ∀ name ∈ names, isPlainName name = true) (u : List Cell) :
    insertLists? (columnListCells columns ++ (plain " VALUES (" ++ (u ++ plain ")")))
      = some (columns.map fun names => listed ", " (names.map plain), u) := by
  have hvalues : ∀ lists : Option (List Cell), (do
      let s ← keyword? "VALUES" (plain "VALUES (" ++ (u ++ plain ")"))
      let s ← mark? '(' (skipBlanks s)
      let values ← enclosed? s
      some (lists, values)) = some (lists, u) := by
    intro lists
    have hkeyword : keyword? "VALUES" (plain "VALUES (" ++ (u ++ plain ")"))
        = some (plain " (" ++ (u ++ plain ")")) := rfl
    have hmark : mark? '(' (skipBlanks (plain " (" ++ (u ++ plain ")")))
        = some (u ++ plain ")") := rfl
    simp only [hkeyword, hmark, enclosed?_append, Option.bind_eq_bind, Option.bind_some]
  cases columns with
  | none => exact hvalues none
  | some names =>
    -- The names end at the first parenthesis that closes, which is the one after them.
    have huntil : untilClosing? (listed ", " (names.map plain)
        ++ (plain ")" ++ (plain " VALUES (" ++ (u ++ plain ")"))))
        = some (listed ", " (names.map plain), plain " VALUES (" ++ (u ++ plain ")")) := by
      rw [untilClosing?_run fun c hc => (not_parenthesis_names (h names rfl) c hc).2,
        show untilClosing? (plain ")" ++ (plain " VALUES (" ++ (u ++ plain ")")))
          = some ([], plain " VALUES (" ++ (u ++ plain ")")) from rfl]
      simp
    have hcolumns : columnList (skipBlanks (columnListCells (some names)
        ++ (plain " VALUES (" ++ (u ++ plain ")"))))
        = (some (listed ", " (names.map plain)), plain "VALUES (" ++ (u ++ plain ")")) := by
      have hmark : ∀ s, mark? '(' (skipBlanks (plain " (" ++ s)) = some s := fun _ => rfl
      unfold columnList
      rw [columnListCells, List.append_assoc, List.append_assoc, hmark, Option.bind_some, huntil]
      rfl
    unfold insertLists?
    rw [hcolumns]
    exact hvalues _

/-- An insertion is read back. -/
theorem readInsert_cells (sql : String) (htable : isPlainName table = true)
    (hcolumns : ∀ names ∈ columns,
      names ≠ [] ∧ (∀ name ∈ names, isPlainName name = true) ∧ names.Nodup)
    (hne : values ≠ []) (hvalues : ∀ v ∈ values, v.isLiteral = true) :
    readInsert sql ((Statement.insert table columns values).cells style)
      = .ok (.insert table columns values) := by
  have hword := isWord_of_isPlainName htable
  have hr : atDelimiter (columnListCells columns ++ (plain " VALUES ("
      ++ (listed ", " (values.map Value.cells) ++ plain ")"))) = true := by
    cases columns <;> rfl
  have hlists := insertLists?_cells (fun names hmem => (hcolumns names hmem).2.1)
    (listed ", " (values.map Value.cells))
  have hparts : insertParts? ((Statement.insert table columns values).cells style)
      = some (table, columns.map fun names => listed ", " (names.map plain),
        listed ", " (values.map Value.cells)) := by
    have hphrase : ∀ s, phrase? ["INSERT", "INTO"] (plain "INSERT" ++ (plain " "
        ++ (plain "INTO" ++ s))) = some s := fun _ => rfl
    have hblank : ∀ s, blanks? (plain " " ++ (plain table ++ s)) = some (plain table ++ s) :=
      fun s => blanks?_of_text (by rfl) (atBlank_plain hword)
    unfold insertParts?
    rw [insert_cells, hphrase]
    simp only [Option.bind_eq_bind, Option.bind_some, hblank]
    refine someWordSplit?_plain hword hr ?_
    rw [hlists]
    rfl
  unfold readInsert
  rw [hparts]
  dsimp only
  rw [readInsertColumns_listed sql hcolumns, ok_bind, readValues_listed hne hvalues, ok_bind]

/-- An insertion is an item. -/
theorem item_insert (htable : isPlainName table = true)
    (hcolumns : ∀ names ∈ columns,
      names ≠ [] ∧ (∀ name ∈ names, isPlainName name = true) ∧ names.Nodup)
    (hne : values ≠ []) (hvalues : ∀ v ∈ values, v.isLiteral = true) :
    Item [] ((Statement.insert table columns values).cells style) := by
  have htable : Item [] (plain table ++ columnListCells columns) := by
    cases columns with
    | none =>
      rw [columnListCells, List.append_nil]
      exact item_name (by simp) htable
    | some names =>
      have hnames : Item [] (listed ", " (names.map plain)) :=
        Item.listed joins_comma (by simpa using (hcolumns names rfl).1)
          (List.forall_mem_map.mpr fun name hmem =>
            item_name (by simp) ((hcolumns names rfl).2.1 name hmem))
      rw [columnListCells, List.append_assoc]
      exact (item_name (by simp) htable).append joins_blank_opening hnames.close
  have hlist := ((item_of_isWord "VALUES" (by decide)).append joins_blank_opening
    (item_values hne hvalues)).close
  have hwhole := (item_of_isWord "INSERT" (by decide)).words
    ((item_of_isWord "INTO" (by decide)).words (htable.words hlist))
  rw [insert_cells]
  simp only [List.append_assoc] at hwhole
  exact hwhole

/-- An insertion is read back from its text. -/
theorem ofText_insert (style : Style) (htable : isPlainName table = true)
    (hcolumns : ∀ names ∈ columns,
      names ≠ [] ∧ (∀ name ∈ names, isPlainName name = true) ∧ names.Nodup)
    (hne : values ≠ []) (hvalues : ∀ v ∈ values, v.isLiteral = true) :
    Statement.ofText (some ((Statement.insert table columns values).text style))
      = .ok (.insert table columns values) := by
  have hkind : Statement.kindOf? (Statement.leadingWords
      ((Statement.insert table columns values).cells style)) = some .insert := by
    rw [insert_cells]
    exact kindOf?_words (by decide) (by decide) rfl _
  rw [Statement.text, ofText_cells (item_insert htable hcolumns hne hvalues) hkind]
  exact readInsert_cells _ htable hcolumns hne hvalues

end Insert

end TableStore
