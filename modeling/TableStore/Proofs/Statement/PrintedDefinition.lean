import TableStore.Proofs.Statement.PrintedColumn
import TableStore.Proofs.Statement.PrintedInsert

/-!
# Printed Definitions

Definitions of tables and indexes, and their removal, are read back from their
texts. The columns of a table are first read without what a clause of the
primary key says of them; the clause, which is the last definition of the list
if there is one, then makes each the column that was printed.

## Theorems

* `readDefinitions_cells`: A list of definitions is read back.
* `settlePrimaryKey_declared`: The clause of the primary key completes it.
* `readCreateTable_cells`, `dropTable?_cells`, `createIndex?_cells`,
  `dropIndex?_cells`: The statements are read back from their cells.
* `ofText_createTable`, `ofText_dropTable`, `ofText_createIndex`, `ofText_dropIndex`:
  They are read back from their texts.
* `Statement.ofText_text_of_definition`: Definitions, removals and insertions
  are read back from their texts.
-/

namespace TableStore

section Phrases

variable {name opening : String} {words : List String} {rest u : List Cell}

/-- No phrase is found at a name that is not its first word. -/
theorem phrase?_name {k w : String} (hk : k ∈ keywords) (hname : isPlainName name = true)
    (hr : atDelimiter rest = true) : phrase? (k :: w :: words) (plain name ++ rest) = none := by
  have hgoes : GoesOn [k] (plain name ++ rest) :=
    goesOn_name (by simpa using hk) hname hr
  have hword := hgoes.2 k List.mem_cons_self
  change ((keyword? k (plain name ++ rest)).bind fun s =>
    (blanks? s).bind (phrase? (w :: words))) = none
  rw [← Option.bind_assoc, hword]
  rfl

theorem blanks?_name (hname : isPlainName name = true) :
    blanks? (plain " " ++ (plain name ++ rest)) = some (plain name ++ rest) :=
  blanks?_of_text (by rfl) (atBlank_plain (isWord_of_isPlainName hname))

/-- Words that may be left out are found before a name if they were printed. -/
theorem option?_cells (hname : isPlainName name = true) (rest : List Cell)
    (hr : atDelimiter rest = true)
    (hopening : opening = "IF EXISTS " ∧ words = ["IF", "EXISTS"]
      ∨ opening = "IF NOT EXISTS " ∧ words = ["IF", "NOT", "EXISTS"]) (b : Bool) :
    ∃ s, blanks? (plain " " ++ (plain (if b then opening else "") ++ (plain name ++ rest)))
        = some s ∧ option? words s = (b, plain name ++ rest) := by
  have hstart := skipBlanks_of_text (@atBlank_plain name rest (isWord_of_isPlainName hname))
  cases b with
  | true =>
    rcases hopening with ⟨rfl, rfl⟩ | ⟨rfl, rfl⟩
    · refine ⟨plain "IF EXISTS " ++ (plain name ++ rest), rfl, ?_⟩
      change (true, skipBlanks (plain name ++ rest)) = _
      rw [hstart]
    · refine ⟨plain "IF NOT EXISTS " ++ (plain name ++ rest), rfl, ?_⟩
      change (true, skipBlanks (plain name ++ rest)) = _
      rw [hstart]
  | false =>
    -- The name is no keyword, so it is not taken for the words.
    have hphrase : phrase? words (plain name ++ rest) = none := by
      rcases hopening with ⟨-, rfl⟩ | ⟨-, rfl⟩ <;> exact phrase?_name (by decide) hname hr
    have hblank : blanks? (plain " " ++ (plain name ++ rest)) = some (plain name ++ rest) :=
      blanks?_name hname
    refine ⟨plain name ++ rest, hblank, ?_⟩
    rw [option?, hphrase]
    rfl

/-- Words that may be left out are part of the item after them. -/
theorem Item.optional (hu : Item [] u) (hopening : opening = "IF EXISTS "
    ∨ opening = "IF NOT EXISTS ") (b : Bool) :
    Item [] (plain (if b then opening else "") ++ u) := by
  cases b with
  | false => exact hu
  | true =>
    rcases hopening with rfl | rfl
    · exact (item_of_isWord "IF" (by decide)).words
        ((item_of_isWord "EXISTS" (by decide)).words hu)
    · exact (item_of_isWord "IF" (by decide)).words ((item_of_isWord "NOT" (by decide)).words
        ((item_of_isWord "EXISTS" (by decide)).words hu))

end Phrases

section Removals

variable {style : Style} {table index column : String}

theorem dropTable_cells (style : Style) (table : String) (mayLack : Bool) :
    (Statement.dropTable table mayLack).cells style
      = plain "DROP" ++ (plain " " ++ (plain "TABLE" ++ (plain " "
        ++ (plain (if mayLack then "IF EXISTS " else "") ++ (plain table ++ []))))) := by
  simp only [Statement.cells, plain_append, List.append_assoc, List.append_nil]
  rfl

theorem dropTable?_cells (htable : isPlainName table = true) (mayLack : Bool) :
    dropTable? ((Statement.dropTable table mayLack).cells style)
      = some (.dropTable table mayLack) := by
  have hphrase : ∀ s, phrase? ["DROP", "TABLE"] (plain "DROP" ++ (plain " " ++ (plain "TABLE"
      ++ s))) = some s := fun _ => rfl
  have hlast : word? (plain table ++ []) = some (table, []) :=
    word?_plain (isWord_of_isPlainName htable) rfl
  rcases option?_cells htable [] rfl (Or.inl ⟨rfl, rfl⟩) mayLack with ⟨s, hs, hoption⟩
  unfold dropTable?
  rw [dropTable_cells, hphrase]
  simp only [Option.bind_eq_bind, Option.bind_some, hs, hoption, hlast]
  rfl

theorem item_dropTable (htable : isPlainName table = true) (mayLack : Bool) :
    Item [] ((Statement.dropTable table mayLack).cells style) := by
  have hname : Item [] (plain table) := item_name (by simp) htable
  rw [dropTable_cells, List.append_nil]
  exact (item_of_isWord "DROP" (by decide)).words ((item_of_isWord "TABLE" (by decide)).words
    (hname.optional (Or.inl rfl) mayLack))

theorem dropIndex_cells (style : Style) (index table : String) (mayLack : Bool) :
    (Statement.dropIndex index table mayLack).cells style
      = plain "DROP" ++ (plain " " ++ (plain "INDEX" ++ (plain " "
        ++ (plain (if mayLack then "IF EXISTS " else "") ++ (plain index ++ (plain " "
          ++ (plain "ON" ++ (plain " " ++ (plain table ++ []))))))))) := by
  simp only [Statement.cells, plain_append, List.append_assoc, List.append_nil]
  rfl

/-- The table of an index is found after the word ON. -/
theorem spacedPhrase?_on (htable : isPlainName table = true) (rest : List Cell) :
    spacedPhrase? ["ON"] (plain " " ++ (plain "ON" ++ (plain " " ++ (plain table ++ rest))))
      = some (plain table ++ rest) :=
  blanks?_name htable

theorem dropIndex?_cells (hindex : isPlainName index = true) (htable : isPlainName table = true)
    (mayLack : Bool) :
    dropIndex? ((Statement.dropIndex index table mayLack).cells style)
      = some (.dropIndex index table mayLack) := by
  have hphrase : ∀ s, phrase? ["DROP", "INDEX"] (plain "DROP" ++ (plain " " ++ (plain "INDEX"
      ++ s))) = some s := fun _ => rfl
  have hword : ∀ s, word? (plain index ++ (plain " " ++ s)) = some (index, plain " " ++ s) :=
    fun s => word?_plain (isWord_of_isPlainName hindex) (by rfl)
  have hlast : word? (plain table ++ []) = some (table, []) :=
    word?_plain (isWord_of_isPlainName htable) rfl
  rcases option?_cells hindex (plain " " ++ (plain "ON" ++ (plain " " ++ (plain table ++ []))))
    rfl (Or.inl ⟨rfl, rfl⟩) mayLack with ⟨s, hs, hoption⟩
  unfold dropIndex?
  rw [dropIndex_cells, hphrase]
  simp only [Option.bind_eq_bind, Option.bind_some, hs, hoption, hword, spacedPhrase?_on htable,
    hlast]
  rfl

theorem item_dropIndex (hindex : isPlainName index = true) (htable : isPlainName table = true)
    (mayLack : Bool) : Item [] ((Statement.dropIndex index table mayLack).cells style) := by
  have hname : ∀ {w}, isPlainName w = true → Item [] (plain w) := item_name (by simp)
  have hon := (hname hindex).words ((item_of_isWord "ON" (by decide)).words (hname htable))
  rw [dropIndex_cells, List.append_nil]
  exact (item_of_isWord "DROP" (by decide)).words ((item_of_isWord "INDEX" (by decide)).words
    (hon.optional (Or.inl rfl) mayLack))

/-- A removal of a table is read back from its text. -/
theorem ofText_dropTable (style : Style) (htable : isPlainName table = true) (mayLack : Bool) :
    Statement.ofText (some ((Statement.dropTable table mayLack).text style))
      = .ok (.dropTable table mayLack) := by
  have hkind : Statement.kindOf? (Statement.leadingWords
      ((Statement.dropTable table mayLack).cells style)) = some .dropTable := by
    rw [dropTable_cells]
    exact kindOf?_words (by decide) (by decide) rfl _
  rw [Statement.text, ofText_cells (item_dropTable htable mayLack) hkind, Statement.readAs,
    dropTable?_cells htable]
  rfl

/-- A removal of an index is read back from its text. -/
theorem ofText_dropIndex (style : Style) (hindex : isPlainName index = true)
    (htable : isPlainName table = true) (mayLack : Bool) :
    Statement.ofText (some ((Statement.dropIndex index table mayLack).text style))
      = .ok (.dropIndex index table mayLack) := by
  have hkind : Statement.kindOf? (Statement.leadingWords
      ((Statement.dropIndex index table mayLack).cells style)) = some .dropIndex := by
    rw [dropIndex_cells]
    exact kindOf?_words (by decide) (by decide) rfl _
  rw [Statement.text, ofText_cells (item_dropIndex hindex htable mayLack) hkind, Statement.readAs,
    dropIndex?_cells hindex htable]
  rfl

end Removals

section Indexes

variable {style : Style} {index table column : String}

theorem createIndex_cells (style : Style) (index table column : String) (mayExist : Bool) :
    (Statement.createIndex index table column mayExist).cells style
      = plain "CREATE" ++ (plain " " ++ (plain "INDEX" ++ (plain " "
        ++ (plain (if mayExist then "IF NOT EXISTS " else "") ++ (plain index ++ (plain " "
          ++ (plain "ON" ++ (plain " " ++ (plain table ++ (plain "(" ++ (plain column
            ++ plain ")"))))))))))) := by
  simp only [Statement.cells, plain_append, List.append_assoc]
  rfl

/-- A name between parentheses. -/
theorem enclosedName?_cells (hcolumn : isPlainName column = true) :
    ∃ s, mark? '(' (skipBlanks (plain "(" ++ (plain column ++ plain ")"))) = some s
      ∧ word? (skipBlanks s) = some (column, plain ")") := by
  refine ⟨plain column ++ plain ")", rfl, ?_⟩
  rw [skipBlanks_of_text (atBlank_plain (isWord_of_isPlainName hcolumn))]
  exact word?_plain (isWord_of_isPlainName hcolumn) rfl

theorem createIndex?_cells (hindex : isPlainName index = true) (htable : isPlainName table = true)
    (hcolumn : isPlainName column = true) (mayExist : Bool) :
    createIndex? ((Statement.createIndex index table column mayExist).cells style)
      = some (.createIndex index table column mayExist) := by
  have hphrase : ∀ s, phrase? ["CREATE", "INDEX"] (plain "CREATE" ++ (plain " "
      ++ (plain "INDEX" ++ s))) = some s := fun _ => rfl
  have hindexWord : ∀ s, word? (plain index ++ (plain " " ++ s)) = some (index, plain " " ++ s) :=
    fun s => word?_plain (isWord_of_isPlainName hindex) (by rfl)
  have htableWord : ∀ s, word? (plain table ++ (plain "(" ++ s)) = some (table, plain "(" ++ s) :=
    fun s => word?_plain (isWord_of_isPlainName htable) (by rfl)
  rcases option?_cells hindex (plain " " ++ (plain "ON" ++ (plain " " ++ (plain table
    ++ (plain "(" ++ (plain column ++ plain ")")))))) rfl (Or.inr ⟨rfl, rfl⟩) mayExist
    with ⟨s, hs, hoption⟩
  rcases enclosedName?_cells hcolumn with ⟨t, hmark, hword⟩
  unfold createIndex?
  rw [createIndex_cells, hphrase]
  simp only [Option.bind_eq_bind, Option.bind_some, hs, hoption, hindexWord,
    spacedPhrase?_on htable, htableWord, hmark, hword]
  rfl

theorem item_createIndex (hindex : isPlainName index = true) (htable : isPlainName table = true)
    (hcolumn : isPlainName column = true) (mayExist : Bool) :
    Item [] ((Statement.createIndex index table column mayExist).cells style) := by
  have hname : ∀ {w}, isPlainName w = true → Item [] (plain w) := item_name (by simp)
  have hon := (hname hindex).words ((item_of_isWord "ON" (by decide)).words
    ((hname htable).append joins_opening (hname hcolumn)))
  have hwhole := (item_of_isWord "CREATE" (by decide)).words
    ((item_of_isWord "INDEX" (by decide)).words (hon.optional (Or.inr rfl) mayExist))
  have hclosed := hwhole.close
  rw [createIndex_cells]
  simp only [List.append_assoc] at hclosed
  exact hclosed

/-- A definition of an index is read back from its text. -/
theorem ofText_createIndex (style : Style) (hindex : isPlainName index = true)
    (htable : isPlainName table = true) (hcolumn : isPlainName column = true) (mayExist : Bool) :
    Statement.ofText (some ((Statement.createIndex index table column mayExist).text style))
      = .ok (.createIndex index table column mayExist) := by
  have hkind : Statement.kindOf? (Statement.leadingWords
      ((Statement.createIndex index table column mayExist).cells style)) = some .createIndex := by
    rw [createIndex_cells]
    exact kindOf?_words (by decide) (by decide) rfl _
  rw [Statement.text, ofText_cells (item_createIndex hindex htable hcolumn mayExist) hkind,
    Statement.readAs, createIndex?_cells hindex htable hcolumn]
  rfl

end Indexes

section Lists

variable {style : Style} {columns : List Column} {primaryKey : Option String} {name : String}

/-- The clause of a primary key. -/
theorem keyClause_cells (name : String) :
    plain ("PRIMARY KEY(" ++ name ++ ")")
      = plain "PRIMARY" ++ (plain " " ++ (plain "KEY" ++ (plain "(" ++ (plain name
        ++ plain ")")))) := by
  simp only [plain_append, List.append_assoc]
  rfl

theorem keyColumn?_cells (hname : isPlainName name = true) :
    keyColumn? (plain ("PRIMARY KEY(" ++ name ++ ")")) = some name := by
  have hphrase : ∀ s, phrase? ["PRIMARY", "KEY"] (plain "PRIMARY" ++ (plain " " ++ (plain "KEY"
      ++ s))) = some s := fun _ => rfl
  rcases enclosedName?_cells hname with ⟨s, hmark, hword⟩
  unfold keyColumn?
  rw [keyClause_cells, hphrase]
  simp only [Option.bind_eq_bind, Option.bind_some, hmark, hword]
  rfl

theorem isKeyClause_keyClause (name : String) :
    isKeyClause (plain ("PRIMARY KEY(" ++ name ++ ")")) = true := by
  rw [keyClause_cells]
  rfl

/-- A column is no clause, for its name is no keyword. -/
theorem isKeyClause_column {column : Column} (hcolumn : column.isPrintable = true) :
    isKeyClause (column.cells style) = false := by
  simp only [Column.isPrintable, Bool.and_eq_true] at hcolumn
  rw [isKeyClause, column_cells, phrase?_name (by decide) hcolumn.1.1.1.1 (by rfl)]

/-- Columns are read one after another. -/
theorem readDefinitions_columns (sql : String) (h : ∀ column ∈ columns, column.isPrintable = true)
    (clause : Option String) (rest : List (List Cell)) :
    readDefinitions sql clause (columns.map (Column.cells style) ++ rest)
      = (readDefinitions sql clause rest).map
        fun found => (columns.map (Column.declared style) ++ found.1, found.2) := by
  induction columns with
  | nil =>
    cases hrest : readDefinitions sql clause rest with
    | error e => exact hrest
    | ok found => exact hrest
  | cons column columns ih =>
    have hcolumn := h column List.mem_cons_self
    have hempty : (column.cells style).isEmpty = false := by
      simpa using (Column.item_cells hcolumn).ne_nil
    rw [List.map_cons, List.cons_append, readDefinitions, hempty, if_neg Bool.false_ne_true,
      isKeyClause_column hcolumn, if_neg Bool.false_ne_true, readColumn_cells sql hcolumn, ok_bind,
      ih fun c hc => h c (List.mem_cons_of_mem column hc)]
    cases readDefinitions sql clause rest <;> rfl

/-- The definitions of a table are read back: its columns without what the
    clause of the primary key says of them, and the clause. -/
theorem readDefinitions_cells (sql : String) (h : ∀ column ∈ columns, column.isPrintable = true)
    (hkey : ∀ name ∈ primaryKey, isPlainName name = true) :
    readDefinitions sql none (definitionCells style columns primaryKey)
      = .ok (columns.map (Column.declared style),
        if style.keyClause then primaryKey else none) := by
  unfold definitionCells
  rw [readDefinitions_columns sql h]
  cases style.keyClause with
  | false => rw [if_neg Bool.false_ne_true, if_neg Bool.false_ne_true, readDefinitions, ok_map,
      List.append_nil]
  | true =>
    cases primaryKey with
    | none => rw [if_pos rfl, if_pos rfl, Option.toList_none, List.map_nil, readDefinitions, ok_map,
        List.append_nil]
    | some name =>
      have hempty : (plain ("PRIMARY KEY(" ++ name ++ ")")).isEmpty = false := by
        rw [keyClause_cells]
        rfl
      rw [if_pos rfl, if_pos rfl, Option.toList_some, List.map_singleton, readDefinitions, hempty,
        if_neg Bool.false_ne_true, isKeyClause_keyClause, if_pos rfl,
        keyColumn?_cells (hkey name rfl)]
      dsimp only
      rw [if_neg (by decide), readDefinitions, ok_map, List.append_nil]

theorem map_name_declared (style : Style) (columns : List Column) :
    (columns.map (Column.declared style)).map Column.name = columns.map Column.name := by
  rw [List.map_map]
  rfl

/-- A column that is no primary key is declared as such. -/
theorem Column.declared_of_not_primaryKey {column : Column} (h : column.primaryKey = false) :
    column.declared style = column := by
  rcases column with ⟨name, typeName, nullable, primaryKey, default⟩
  subst h
  rfl

/-- Without a clause every column is what its definition says. -/
theorem Column.declared_of_no_clause {column : Column} (hcolumn : column.isPrintable = true)
    (hstyle : style.keyClause = false) : column.declared style = column := by
  simp only [Column.isPrintable, Bool.and_eq_true, Bool.not_eq_true'] at hcolumn
  rcases column with ⟨name, typeName, nullable, primaryKey, default⟩
  unfold Column.declared
  rw [hstyle]
  cases primaryKey with
  | false => rfl
  | true =>
    rw [show nullable = false from hcolumn.2]
    rfl

/-- The clause of the primary key makes a column the one that was printed. -/
theorem markPrimaryKey_declared {column : Column} (hcolumn : column.isPrintable = true)
    (hkey : column.primaryKey = decide (column.name = name)) :
    markPrimaryKey name (column.declared style) = column := by
  simp only [Column.isPrintable, Bool.and_eq_true, Bool.not_eq_true'] at hcolumn
  by_cases hname : column.name = name
  · rw [decide_eq_true hname] at hkey
    rw [hkey, Bool.true_and] at hcolumn
    unfold markPrimaryKey
    rw [if_pos (show (column.declared style).name = name from hname)]
    rcases column with ⟨_, typeName, nullable, primaryKey, default⟩
    obtain rfl : primaryKey = true := hkey
    obtain rfl : nullable = false := hcolumn.2
    rfl
  · rw [decide_eq_false hname] at hkey
    rw [Column.declared_of_not_primaryKey hkey, markPrimaryKey, if_neg hname]

/-- The primary key is the one column with its name. -/
theorem primaryKey_eq_decide (hnodup : (columns.map Column.name).Nodup)
    (hmarked : (columns.filter Column.primaryKey).map Column.name = [name]) :
    ∀ column ∈ columns, column.primaryKey = decide (column.name = name) := by
  obtain ⟨key, hkey, hname⟩ : ∃ key ∈ columns.filter Column.primaryKey, key.name = name := by
    rw [← List.mem_map, hmarked]
    exact List.mem_singleton_self name
  rw [List.mem_filter] at hkey
  intro column hmem
  rw [Bool.eq_iff_iff, decide_eq_true_eq]
  constructor
  · intro hprimary
    have hfound := List.mem_map_of_mem (f := Column.name) (List.mem_filter.mpr ⟨hmem, hprimary⟩)
    rw [hmarked] at hfound
    exact List.mem_singleton.mp hfound
  · intro heq
    rw [List.inj_on_of_nodup_map hnodup hmem hkey.1 (heq.trans hname.symm)]
    exact hkey.2

/-- The clause of the primary key completes the columns. -/
theorem settlePrimaryKey_declared (sql : String) (hne : columns ≠ [])
    (h : ∀ column ∈ columns, column.isPrintable = true)
    (hnodup : (columns.map Column.name).Nodup)
    (hmarked : (columns.filter Column.primaryKey).map Column.name = primaryKey.toList) :
    settlePrimaryKey sql (columns.map (Column.declared style))
        (if style.keyClause then primaryKey else none)
      = .ok (columns, primaryKey) := by
  have hempty : (columns.map (Column.declared style)).isEmpty = false := by simpa using hne
  have hkept : ∀ {f : Column → Column}, (∀ column ∈ columns, f column = column) →
      columns.map f = columns :=
    fun hf => (List.map_congr_left hf).trans (List.map_id columns)
  unfold settlePrimaryKey
  dsimp only
  rw [hempty, if_neg Bool.false_ne_true, map_name_declared, hasRepeats_of_nodup hnodup,
    if_neg Bool.false_ne_true]
  cases hstyle : style.keyClause with
  | false =>
    have hdeclared : columns.map (Column.declared style) = columns :=
      hkept fun column hmem => Column.declared_of_no_clause (h column hmem) hstyle
    have hlength : ¬ 1 < primaryKey.toList.length := by cases primaryKey <;> simp
    rw [hdeclared, hmarked, if_neg hlength, if_neg Bool.false_ne_true]
    cases primaryKey <;> rfl
  | true =>
    -- No column is marked by its own definition.
    have hnone : (columns.map (Column.declared style)).filter Column.primaryKey = [] := by
      rw [List.filter_eq_nil_iff]
      refine List.forall_mem_map.mpr fun column _ => ?_
      simp [Column.declared, hstyle]
    rw [hnone, if_neg (by simp), if_pos rfl]
    cases primaryKey with
    | none =>
      have hdeclared : columns.map (Column.declared style) = columns := by
        rw [Option.toList_none, List.map_eq_nil_iff, List.filter_eq_nil_iff] at hmarked
        exact hkept fun column hmem =>
          Column.declared_of_not_primaryKey (by simpa using hmarked column hmem)
      rw [hdeclared]
      rfl
    | some name =>
      have hkey := primaryKey_eq_decide hnodup hmarked
      have hcontains : (columns.map Column.name).contains name = true := by
        rw [List.contains_iff_mem]
        have hmem : name ∈ (columns.filter Column.primaryKey).map Column.name := by
          rw [hmarked]
          exact List.mem_singleton_self name
        exact List.map_subset Column.name List.filter_sublist.subset hmem
      have hcolumns : (columns.map (Column.declared style)).map (markPrimaryKey name)
          = columns := by
        rw [List.map_map]
        exact hkept fun column hmem =>
          markPrimaryKey_declared (h column hmem) (hkey column hmem)
      dsimp only
      rw [hcontains, hcolumns]
      rfl

/-- A name in parentheses is not split. -/
theorem unsplit_parentheses (hname : isPlainName name = true) :
    Unsplit (plain "(" ++ (plain name ++ plain ")")) := by
  have hword := solid_plain (isWord_of_isPlainName hname)
  intro s
  have hopen : piecesWithin 0 (plain "(" ++ (plain name ++ (plain ")" ++ s)))
      = (piecesWithin 1 (plain name ++ (plain ")" ++ s))).map (Text.consWord ⟨'(', false⟩) := rfl
  have hclose : piecesWithin 1 (plain ")" ++ s)
      = (piecesWithin 0 s).map (Text.consWord ⟨')', false⟩) := rfl
  rw [List.append_assoc, List.append_assoc, hopen, piecesWithin_run hword.ne_nil hword.separates,
    hclose, Option.map_map, Option.map_map]
  refine congrArg (fun f => Option.map f (piecesWithin 0 s)) (funext fun ws => ?_)
  rw [Function.comp_apply, Function.comp_apply, ← prependTo_singleton, ← prependTo_singleton,
    prependTo_append, prependTo_append]
  rfl

theorem unsplit_keyClause (hname : isPlainName name = true) :
    Unsplit (plain ("PRIMARY KEY(" ++ name ++ ")")) := by
  have hkey : Unsplit (plain "PRIMARY KEY") :=
    unsplit_of_not_separates (List.cons_ne_nil _ _) (by decide)
  rw [keyClause_cells]
  exact hkey.append (unsplit_parentheses hname)

theorem item_keyClause (hname : isPlainName name = true) :
    Item [] (plain ("PRIMARY KEY(" ++ name ++ ")")) := by
  have hopen : Item [] (plain "PRIMARY" ++ (plain " " ++ (plain "KEY" ++ (plain "("
      ++ plain name)))) :=
    (item_of_isWord "PRIMARY" (by decide)).words
      ((item_of_isWord "KEY" (by decide)).append joins_opening (item_name (by simp) hname))
  have hclosed := hopen.close
  rw [keyClause_cells]
  simp only [List.append_assoc] at hclosed
  exact hclosed

/-- Each definition of a list is an item, and it is not split. -/
theorem definition_of_mem (h : ∀ column ∈ columns, column.isPrintable = true)
    (hkey : ∀ name ∈ primaryKey, isPlainName name = true) :
    ∀ u ∈ definitionCells style columns primaryKey, Item [] u ∧ Unsplit u := by
  intro u hu
  unfold definitionCells at hu
  rcases List.mem_append.mp hu with hu | hu
  · rcases List.mem_map.mp hu with ⟨column, hmem, rfl⟩
    have hitem := @Column.item_cells style column (h column hmem)
    exact ⟨hitem, unsplit_of_not_separates hitem.ne_nil
      (Column.not_separates_cells (h column hmem))⟩
  · split at hu
    · rcases List.mem_map.mp hu with ⟨name, hmem, rfl⟩
      have hname := hkey name (Option.mem_toList.mp hmem)
      exact ⟨item_keyClause hname, unsplit_keyClause hname⟩
    · exact absurd hu List.not_mem_nil

end Lists

section Tables

variable {style : Style} {table : String} {columns : List Column} {primaryKey : Option String}

theorem createTable_cells (style : Style) (table : String) (columns : List Column)
    (primaryKey : Option String) (mayExist : Bool) :
    (Statement.createTable table columns primaryKey mayExist).cells style
      = plain "CREATE" ++ (plain " " ++ (plain "TABLE" ++ (plain " "
        ++ (plain (if mayExist then "IF NOT EXISTS " else "") ++ (plain table ++ (plain " ("
          ++ (listed ", " (definitionCells style columns primaryKey) ++ plain ")"))))))) := by
  simp only [Statement.cells, plain_append, List.append_assoc]
  rfl

/-- The primary key of a table is one of its columns. -/
theorem isPlainName_primaryKey (h : ∀ column ∈ columns, column.isPrintable = true)
    (hmarked : (columns.filter Column.primaryKey).map Column.name = primaryKey.toList) :
    ∀ name ∈ primaryKey, isPlainName name = true := by
  intro name hmem
  have hlist := Option.mem_toList.mpr hmem
  rw [← hmarked, List.mem_map] at hlist
  rcases hlist with ⟨column, hcolumn, rfl⟩
  have hprintable := h column (List.mem_of_mem_filter hcolumn)
  simp only [Column.isPrintable, Bool.and_eq_true] at hprintable
  exact hprintable.1.1.1.1

theorem definitionCells_ne_nil (hne : columns ≠ []) :
    definitionCells style columns primaryKey ≠ [] := by
  unfold definitionCells
  simp [hne]

/-- The definition of a table is read back. -/
theorem readCreateTable_cells (sql : String) (htable : isPlainName table = true)
    (hne : columns ≠ []) (h : ∀ column ∈ columns, column.isPrintable = true)
    (hnodup : (columns.map Column.name).Nodup)
    (hmarked : (columns.filter Column.primaryKey).map Column.name = primaryKey.toList)
    (mayExist : Bool) :
    readCreateTable sql ((Statement.createTable table columns primaryKey mayExist).cells style)
      = .ok (.createTable table columns primaryKey mayExist) := by
  have hkey := isPlainName_primaryKey h hmarked
  have hparts : createTableParts?
      ((Statement.createTable table columns primaryKey mayExist).cells style)
      = some (mayExist, table, listed ", " (definitionCells style columns primaryKey)) := by
    have hphrase : ∀ s, phrase? ["CREATE", "TABLE"] (plain "CREATE" ++ (plain " "
        ++ (plain "TABLE" ++ s))) = some s := fun _ => rfl
    have hword : ∀ s, word? (plain table ++ (plain " (" ++ s)) = some (table, plain " (" ++ s) :=
      fun s => word?_plain (isWord_of_isPlainName htable) (by rfl)
    have hmark : ∀ s, mark? '(' (skipBlanks (plain " (" ++ s)) = some s := fun _ => rfl
    rcases option?_cells htable (plain " (" ++ (listed ", " (definitionCells style columns
      primaryKey) ++ plain ")")) rfl (Or.inr ⟨rfl, rfl⟩) mayExist with ⟨s, hs, hoption⟩
    unfold createTableParts?
    rw [createTable_cells, hphrase]
    simp only [Option.bind_eq_bind, Option.bind_some, hs, hoption, hword, hmark, enclosed?_append]
  have hsplit : splitAtCommas (listed ", " (definitionCells style columns primaryKey))
      = .ok (definitionCells style columns primaryKey) :=
    splitAtCommas_listed (definitionCells_ne_nil hne)
      (fun u hu => (definition_of_mem h hkey u hu).1.trimmed)
      fun u hu => (definition_of_mem h hkey u hu).2
  unfold readCreateTable
  rw [hparts]
  dsimp only
  rw [hsplit, ok_bind, readDefinitions_cells sql h hkey, ok_bind,
    settlePrimaryKey_declared sql hne h hnodup hmarked, ok_bind]

/-- The definition of a table is an item. -/
theorem item_createTable (htable : isPlainName table = true) (hne : columns ≠ [])
    (h : ∀ column ∈ columns, column.isPrintable = true)
    (hmarked : (columns.filter Column.primaryKey).map Column.name = primaryKey.toList)
    (mayExist : Bool) :
    Item [] ((Statement.createTable table columns primaryKey mayExist).cells style) := by
  have hkey := isPlainName_primaryKey h hmarked
  have hlist : Item [] (listed ", " (definitionCells style columns primaryKey)) :=
    Item.listed joins_comma (definitionCells_ne_nil hne)
      fun u hu => (definition_of_mem h hkey u hu).1
  have htable : Item [] (plain table) := item_name (by simp) htable
  have hopen : Item [] (plain "CREATE" ++ (plain " " ++ (plain "TABLE" ++ (plain " "
      ++ (plain (if mayExist then "IF NOT EXISTS " else "") ++ (plain table ++ (plain " ("
        ++ listed ", " (definitionCells style columns primaryKey)))))))) :=
    (item_of_isWord "CREATE" (by decide)).words ((item_of_isWord "TABLE" (by decide)).words
      ((htable.append joins_blank_opening hlist).optional (Or.inr rfl) mayExist))
  have hclosed := hopen.close
  rw [createTable_cells]
  simp only [List.append_assoc] at hclosed
  exact hclosed

/-- A definition of a table is read back from its text. -/
theorem ofText_createTable (style : Style) (htable : isPlainName table = true)
    (hne : columns ≠ []) (h : ∀ column ∈ columns, column.isPrintable = true)
    (hnodup : (columns.map Column.name).Nodup)
    (hmarked : (columns.filter Column.primaryKey).map Column.name = primaryKey.toList)
    (mayExist : Bool) :
    Statement.ofText (some ((Statement.createTable table columns primaryKey mayExist).text style))
      = .ok (.createTable table columns primaryKey mayExist) := by
  have hkind : Statement.kindOf? (Statement.leadingWords
      ((Statement.createTable table columns primaryKey mayExist).cells style))
        = some .createTable := by
    rw [createTable_cells]
    exact kindOf?_words (by decide) (by decide) rfl _
  rw [Statement.text, ofText_cells (item_createTable htable hne h hmarked mayExist) hkind]
  exact readCreateTable_cells _ htable hne h hnodup hmarked mayExist

end Tables

namespace Statement

/-- Reading undoes printing for definitions, removals and insertions. Any of
    these is read back from its text, whatever its names, lists and literals
    are, with the type, the default and the marks of each of its columns. -/
theorem ofText_text_of_definition {s : Statement} (style : Style) (hs : s.isPrintable = true)
    (hkind : s.kind ∈ [.createTable, .dropTable, .createIndex, .dropIndex, .insert]) :
    ofText (some (s.text style)) = .ok s := by
  cases s with
  | createTable table columns primaryKey mayExist =>
    simp only [isPrintable, Bool.and_eq_true, List.all_eq_true, decide_eq_true_eq,
      Bool.not_eq_true', List.isEmpty_eq_false_iff, beq_iff_eq] at hs
    rcases hs with ⟨⟨⟨⟨htable, hne⟩, hcolumns⟩, hnodup⟩, hmarked⟩
    exact ofText_createTable style htable hne hcolumns hnodup hmarked mayExist
  | dropTable table mayLack => exact ofText_dropTable style hs mayLack
  | createIndex index table column mayExist =>
    simp only [isPrintable, Bool.and_eq_true] at hs
    exact ofText_createIndex style hs.1.1 hs.1.2 hs.2 mayExist
  | dropIndex index table mayLack =>
    simp only [isPrintable, Bool.and_eq_true] at hs
    exact ofText_dropIndex style hs.1 hs.2 mayLack
  | insert table columns values =>
    simp only [isPrintable, Bool.and_eq_true, List.all_eq_true, Option.all_eq_true,
      decide_eq_true_eq, Bool.not_eq_true', List.isEmpty_eq_false_iff] at hs
    rcases hs with ⟨⟨⟨htable, hne⟩, hvalues⟩, hcolumns⟩
    refine ofText_insert style htable (fun names hmem => ?_) hne hvalues
    rcases hcolumns names hmem with ⟨⟨hnames, hplain⟩, hnodup⟩
    exact ⟨hnames, hplain, hnodup⟩
  | _ => exact absurd hkind (by simp [kind])

/-- A table with names that begin with keywords, defaults that look like the
    rest of a definition, and a clause of the primary key. -/
def deceptive : Statement :=
  createTable "index_" [⟨"primary_key", "INTEGER", false, true, .null⟩,
      ⟨"nullable", "geometry", true, false, .text "x, y) NOT NULL"⟩,
      ⟨"defaults", "TEXT", false, false, .text "', PRIMARY KEY(nullable)"⟩,
      ⟨"keys", "BOOLEAN", true, false, .bool true⟩] (some "primary_key") true

theorem ofText_text_of_definition_deceptive :
    deceptive.isPrintable = true
      ∧ deceptive.kind ∈ [.createTable, .dropTable, .createIndex, .dropIndex, .insert]
      ∧ ofText (some (deceptive.text { semicolon := true, keyClause := true }))
        = .ok deceptive := by
  have hprintable : deceptive.isPrintable = true := by decide +kernel
  have hkind : deceptive.kind ∈ [.createTable, .dropTable, .createIndex, .dropIndex, .insert] := by
    decide
  exact ⟨hprintable, hkind, ofText_text_of_definition _ hprintable hkind⟩

end Statement

end TableStore
