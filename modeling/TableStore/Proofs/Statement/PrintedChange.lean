import TableStore.Proofs.Statement.PrintedQuery

/-!
# Printed Changes

Changes and removals are read back from their texts as queries are. They have
one clause only that has to be found, the conditions, and the list of
assignments before it is free of the word at which it begins.

An assignment is a literal or a sum. No literal can be taken for a sum, for
that needs a sign after a word.

## Theorems

* `readExpression_cells`, `readAssignments_cells`: Assignments are read back.
* `readUpdate_cells`, `readDelete_cells`: So are changes and removals.
* `ofText_update`, `ofText_delete`: They are read back from their texts.
* `Statement.ofText_text_of_search`: Queries, changes and removals are read
  back from their texts.
-/

namespace TableStore

section Change

variable {style : Style} {stops : List String} {conditions : List Condition}

/-- The condition clause that a text consists of is all of it. -/
theorem whereClause?_cells (hne : conditions ≠ [])
    (h : ∀ condition ∈ conditions, condition.isPrintable = true) :
    whereClause? (whereCells conditions)
      = some (listed " AND " (conditions.map Condition.cells)) := by
  have hitem : Item [] (listed " AND " (conditions.map Condition.cells)) :=
    item_conditions (by simp) (by simp) hne h
  have hcells : whereCells conditions
      = plain " WHERE " ++ listed " AND " (conditions.map Condition.cells) := by
    cases conditions with
    | nil => exact absurd rfl hne
    | cons condition conditions => rfl
  have hphrase : spacedPhrase? ["WHERE"] (whereCells conditions)
      = some (listed " AND " (conditions.map Condition.cells)) := by
    rw [hcells]
    exact spacedPhrase?_text (fun _ => rfl) hitem.trimmed.1
  unfold whereClause?
  rw [hphrase]
  simp only [Option.bind_eq_bind, Option.bind_some]
  rw [if_neg]
  simpa using hitem.ne_nil

/-- A list of assignments ends where the condition clause begins. -/
theorem upToWhere?_cells {u : List Cell} (hu : Item ["WHERE"] u)
    (h : ∀ condition ∈ conditions, condition.isPrintable = true) :
    upToWhere? (u ++ whereCells conditions)
      = some (u, clauseBody " AND " (conditions.map Condition.cells)) := by
  by_cases hne : conditions = []
  -- Without conditions no end of the text is a clause, and the assignments are all of it.
  · have hnone := (hu.freeOf [] rfl).shortestPrefix?_none stopsAt_whereClause? rfl
    rw [hne]
    unfold upToWhere? whereCells
    rw [List.map_nil, clauseCells, List.append_nil, hnone]
    dsimp only
    rw [if_neg (by simpa using hu.ne_nil)]
    rfl
  · have hr : atDelimiter (whereCells conditions) = true := by
      have hclause := @atDelimiter_clauseCells " WHERE " " AND " (conditions.map Condition.cells) []
        (fun _ => rfl) rfl
      rwa [List.append_nil] at hclause
    have hfound := (hu.freeOf (whereCells conditions) hr).shortestPrefix? hu.ne_nil
      stopsAt_whereClause? (whereClause?_cells hne h)
    unfold upToWhere?
    rw [hfound, clauseBody_of_ne_nil (by simpa using hne)]

variable {assignment : Assignment}

/-- What is assigned. -/
def Assignment.expression (assignment : Assignment) : List Cell :=
  match assignment.arithmetic with
  | none => assignment.value.cells
  | some arithmetic =>
    plain assignment.column ++ (plain " " ++ (plain arithmetic.sign
      ++ (plain " " ++ assignment.value.cells)))

theorem Assignment.cells_eq (assignment : Assignment) :
    assignment.cells = plain assignment.column ++ (plain " = " ++ assignment.expression) := by
  unfold Assignment.cells Assignment.expression
  cases assignment.arithmetic <;> simp [plain_append, List.append_assoc]

theorem Assignment.printable_parts (h : assignment.isPrintable = true) :
    isPlainName assignment.column = true ∧ assignment.value.isLiteral = true
      ∧ (assignment.arithmetic.isSome = true → ∃ n, assignment.value = .int n) := by
  rcases assignment with ⟨column, value, arithmetic⟩
  unfold Assignment.isPrintable at h
  rw [Bool.and_eq_true, Bool.and_eq_true] at h
  refine ⟨h.1.1, h.1.2, fun hsome => ?_⟩
  cases arithmetic with
  | none => exact absurd hsome Bool.false_ne_true
  | some arithmetic =>
    cases value with
    | int n => exact ⟨n, rfl⟩
    | _ => exact absurd h.2 Bool.false_ne_true

theorem isSymbol_sign (arithmetic : Arithmetic) : isSymbol arithmetic.sign = true := by
  cases arithmetic <;> decide

theorem Assignment.item_expression (hstops : ∀ k ∈ stops, k ∈ clauseWords)
    (h : assignment.isPrintable = true) : Item stops assignment.expression := by
  rcases Assignment.printable_parts h with ⟨hcolumn, hvalue, -⟩
  have hitem : Item stops assignment.value.cells := item_value hstops hvalue
  unfold Assignment.expression
  cases assignment.arithmetic with
  | none => exact hitem
  | some arithmetic =>
    exact (item_name hstops hcolumn).words
      ((item_symbol hstops (isSymbol_sign arithmetic)).words hitem)

theorem Assignment.item (hstops : ∀ k ∈ stops, k ∈ clauseWords)
    (h : assignment.isPrintable = true) : Item stops assignment.cells := by
  rw [Assignment.cells_eq]
  exact (item_name hstops (Assignment.printable_parts h).1).append
    (joins_words (w := "=") (item_symbol hstops (by decide)) (by decide))
    (Assignment.item_expression hstops h)

theorem Assignment.not_separates (h : assignment.isPrintable = true) :
    ∀ c ∈ assignment.cells, c.separates = false := by
  rcases Assignment.printable_parts h with ⟨hcolumn, hvalue, -⟩
  have hname := (solid_plain (isWord_of_isPlainName hcolumn)).separates
  have hliteral := (Value.solid_cells hvalue).separates
  have hblank : ∀ c ∈ plain " ", c.separates = false := by decide
  have hequal : ∀ c ∈ plain " = ", c.separates = false := by decide
  rw [Assignment.cells_eq]
  unfold Assignment.expression
  cases assignment.arithmetic with
  | none =>
    simp only [List.forall_mem_append]
    exact ⟨hname, hequal, hliteral⟩
  | some arithmetic =>
    have hsign := (solid_symbol (isSymbol_sign arithmetic)).separates
    simp only [List.forall_mem_append]
    exact ⟨hname, hequal, hname, hblank, hsign, hblank, hliteral⟩

theorem assignmentParts?_cells (h : assignment.isPrintable = true) :
    assignmentParts? assignment.cells = some (assignment.column, assignment.expression) := by
  have hexpression : Item [] assignment.expression := Assignment.item_expression (by simp) h
  have hmark : mark? '=' (skipBlanks (plain " = " ++ assignment.expression))
      = some (plain " " ++ assignment.expression) := rfl
  have hblank : skipBlanks (plain " " ++ assignment.expression) = assignment.expression := by
    change skipBlanks assignment.expression = _
    exact skipBlanks_of_text hexpression.trimmed.1
  unfold assignmentParts?
  rw [Assignment.cells_eq,
    word?_plain (isWord_of_isPlainName (Assignment.printable_parts h).1) (by rfl)]
  simp only [Option.bind_eq_bind, Option.bind_some, hmark, hblank]
  rw [if_neg]
  simpa using hexpression.ne_nil

/-- A sum of the assigned column and an integer. -/
theorem sumParts?_sum {column : String} (hcolumn : isPlainName column = true)
    (arithmetic : Arithmetic) (n : Int) :
    sumParts? (plain column ++ (plain " " ++ (plain arithmetic.sign
        ++ (plain " " ++ (Value.int n).cells))))
      = some (column, arithmetic, (Value.int n).cells) := by
  have hsign : ∀ s, arithmetic? (skipBlanks (plain " " ++ (plain arithmetic.sign ++ s)))
      = some (arithmetic, s) := by
    intro s
    cases arithmetic <;> rfl
  have hblank : skipBlanks (plain " " ++ (Value.int n).cells) = (Value.int n).cells := by
    change skipBlanks (Value.int n).cells = _
    exact skipBlanks_of_text (solid_symbol (isSymbol_toString n)).atBlank
  have hnumber : isNumber (Value.int n).cells = true := isNumber_toString n
  unfold sumParts?
  rw [word?_plain (isWord_of_isPlainName hcolumn) (by rfl)]
  simp only [Option.bind_eq_bind, Option.bind_some, hsign, hblank, hnumber, if_true]

/-- What is assigned is read back. -/
theorem readExpression_cells (sql : String) (h : assignment.isPrintable = true) :
    readExpression sql assignment.column assignment.expression = .ok assignment := by
  rcases Assignment.printable_parts h with ⟨hcolumn, hvalue, hint⟩
  rcases assignment with ⟨column, value, _ | arithmetic⟩
  · unfold Assignment.expression readExpression
    dsimp only
    rw [Value.sumParts?_cells hvalue, Value.ofLiteral_cells hvalue]
    rfl
  · rcases hint rfl with ⟨n, hn⟩
    dsimp only at hn hvalue
    rw [hn] at hvalue ⊢
    unfold Assignment.expression readExpression
    dsimp only
    rw [sumParts?_sum hcolumn arithmetic n]
    dsimp only
    rw [if_pos rfl, Value.ofLiteral_cells hvalue]
    rfl

/-- Printed assignments are read back if no column is assigned twice. -/
theorem readAssignments_cells (sql : String) {assignments : List Assignment} {seen : List String}
    (h : ∀ assignment ∈ assignments, assignment.isPrintable = true)
    (hnodup : (assignments.map Assignment.column).Nodup)
    (hseen : ∀ assignment ∈ assignments, assignment.column ∉ seen) :
    readAssignments sql seen (assignments.map Assignment.cells) = .ok assignments := by
  induction assignments generalizing seen with
  | nil => rfl
  | cons assignment assignments ih =>
    have hfirst := h assignment List.mem_cons_self
    have hitem : Item [] assignment.expression := Assignment.item_expression (by simp) hfirst
    have htrim : trimCells assignment.expression = assignment.expression := hitem.trimmed.trimBy
    rw [List.map_cons, List.nodup_cons] at hnodup
    have hnew : seen.contains assignment.column = false := by
      simpa using hseen assignment List.mem_cons_self
    -- The columns that come later are others than this one.
    have hlater : ∀ other ∈ assignments, other.column ∉ assignment.column :: seen := by
      intro other hother hmem
      rcases List.mem_cons.mp hmem with heq | hmem
      · exact hnodup.1 (heq ▸ List.mem_map_of_mem hother)
      · exact hseen other (List.mem_cons_of_mem assignment hother) hmem
    have hrest := ih (fun other hother => h other (List.mem_cons_of_mem assignment hother))
      hnodup.2 hlater
    rw [List.map_cons, readAssignments, assignmentParts?_cells hfirst]
    dsimp only
    rw [hnew, if_neg Bool.false_ne_true, htrim, readExpression_cells sql hfirst, ok_bind, hrest,
      ok_bind]

variable {table : String} {assignments : List Assignment}

theorem update_cells (style : Style) (table : String) (assignments : List Assignment)
    (conditions : List Condition) :
    (Statement.update table assignments conditions).cells style
      = plain "UPDATE" ++ (plain " " ++ (plain table ++ (plain " SET "
        ++ (listed ", " (assignments.map Assignment.cells) ++ whereCells conditions)))) := by
  simp only [Statement.cells, plain_append, List.append_assoc]
  rfl

/-- A change is read back. -/
theorem readUpdate_cells (sql : String) (htable : isPlainName table = true)
    (hne : assignments ≠ [])
    (hassignments : ∀ assignment ∈ assignments, assignment.isPrintable = true)
    (hnodup : (assignments.map Assignment.column).Nodup)
    (hconditions : ∀ condition ∈ conditions, condition.isPrintable = true) :
    readUpdate sql ((Statement.update table assignments conditions).cells style)
      = .ok (.update table assignments conditions) := by
  have hitem : Item ["WHERE"] (listed ", " (assignments.map Assignment.cells)) :=
    Item.listed joins_comma (by simpa using hne) (List.forall_mem_map.mpr fun assignment hmem =>
      Assignment.item (by decide) (hassignments assignment hmem))
  have hword := isWord_of_isPlainName htable
  have hblank : ∀ s, blanks? (plain " " ++ (plain table ++ s)) = some (plain table ++ s) :=
    fun s => blanks?_of_text (by rfl) (atBlank_plain hword)
  have hset : spacedPhrase? ["SET"] (plain " SET "
      ++ (listed ", " (assignments.map Assignment.cells) ++ whereCells conditions))
      = some (listed ", " (assignments.map Assignment.cells) ++ whereCells conditions) :=
    spacedPhrase?_text (fun _ => rfl) (hitem.atBlank _)
  have hparts : updateParts? ((Statement.update table assignments conditions).cells style)
      = some (table, listed ", " (assignments.map Assignment.cells),
        clauseBody " AND " (conditions.map Condition.cells)) := by
    unfold updateParts? phrase?
    rw [update_cells, keyword?_plain]
    simp only [Option.bind_eq_bind, Option.bind_some, hblank,
      word?_plain hword (show atDelimiter (plain " SET " ++ _) = true from rfl), hset,
      upToWhere?_cells hitem hconditions]
  have hsplit : splitAtCommas (listed ", " (assignments.map Assignment.cells))
      = .ok (assignments.map Assignment.cells) :=
    splitAtCommas_map hne
      (fun assignment hmem => Assignment.item (by simp) (hassignments assignment hmem))
      fun assignment hmem => Assignment.not_separates (hassignments assignment hmem)
  unfold readUpdate
  rw [hparts]
  dsimp only
  rw [hsplit, ok_bind, readAssignments_cells sql hassignments hnodup (by simp), ok_bind,
    readOptionalWhere_cells hconditions, ok_bind]

theorem item_update (htable : isPlainName table = true) (hne : assignments ≠ [])
    (hassignments : ∀ assignment ∈ assignments, assignment.isPrintable = true)
    (hconditions : ∀ condition ∈ conditions, condition.isPrintable = true) :
    Item [] ((Statement.update table assignments conditions).cells style) := by
  have hset : Joins [] " SET " := joins_words (item_of_isWord "SET" (by decide)) (by decide)
  have hlist : Item [] (listed ", " (assignments.map Assignment.cells)) :=
    Item.listed joins_comma (by simpa using hne) (List.forall_mem_map.mpr fun assignment hmem =>
      Assignment.item (by simp) (hassignments assignment hmem))
  have hhead : Item [] (plain "UPDATE" ++ (plain " " ++ (plain table ++ (plain " SET "
      ++ listed ", " (assignments.map Assignment.cells))))) :=
    (item_of_isWord "UPDATE" (by decide)).words ((item_name (by simp) htable).append hset hlist)
  have hwhole := hhead.whereClause hconditions
  rw [update_cells]
  simp only [List.append_assoc] at hwhole
  exact hwhole

/-- A change is read back from its text. -/
theorem ofText_update (style : Style) (htable : isPlainName table = true) (hne : assignments ≠ [])
    (hassignments : ∀ assignment ∈ assignments, assignment.isPrintable = true)
    (hnodup : (assignments.map Assignment.column).Nodup)
    (hconditions : ∀ condition ∈ conditions, condition.isPrintable = true) :
    Statement.ofText (some ((Statement.update table assignments conditions).text style))
      = .ok (.update table assignments conditions) := by
  have hkind : Statement.kindOf? (Statement.leadingWords
      ((Statement.update table assignments conditions).cells style)) = some .update := by
    rw [update_cells]
    exact kindOf?_word (by decide) (fun _ => rfl) _
  rw [Statement.text, ofText_cells (item_update htable hne hassignments hconditions) hkind]
  exact readUpdate_cells _ htable hne hassignments hnodup hconditions

theorem delete_cells (style : Style) (table : String) (conditions : List Condition) :
    (Statement.delete table conditions).cells style
      = plain "DELETE" ++ (plain " " ++ (plain "FROM" ++ (plain " "
        ++ (plain table ++ whereCells conditions)))) := by
  simp only [Statement.cells, plain_append, List.append_assoc]
  rfl

/-- A removal is read back. -/
theorem readDelete_cells (sql : String) (htable : isPlainName table = true)
    (hconditions : ∀ condition ∈ conditions, condition.isPrintable = true) :
    readDelete sql ((Statement.delete table conditions).cells style)
      = .ok (.delete table conditions) := by
  have hword := isWord_of_isPlainName htable
  have hr : atDelimiter (whereCells conditions) = true := by
    have hclause := @atDelimiter_clauseCells " WHERE " " AND " (conditions.map Condition.cells) []
      (fun _ => rfl) rfl
    rwa [List.append_nil] at hclause
  have hphrase : phrase? ["DELETE", "FROM"] (plain "DELETE" ++ (plain " " ++ (plain "FROM"
      ++ (plain " " ++ (plain table ++ whereCells conditions)))))
      = some (plain " " ++ (plain table ++ whereCells conditions)) := rfl
  have hblank : blanks? (plain " " ++ (plain table ++ whereCells conditions))
      = some (plain table ++ whereCells conditions) :=
    blanks?_of_text (by rfl) (atBlank_plain hword)
  have hparts : deleteParts? ((Statement.delete table conditions).cells style)
      = some (table, clauseBody " AND " (conditions.map Condition.cells)) := by
    unfold deleteParts?
    rw [delete_cells, hphrase]
    simp only [Option.bind_eq_bind, Option.bind_some, hblank, word?_plain hword hr]
    by_cases hne : conditions = []
    · rw [hne]
      rfl
    · rw [whereClause?_cells hne hconditions, clauseBody_of_ne_nil (by simpa using hne)]
  unfold readDelete
  rw [hparts]
  dsimp only
  rw [readOptionalWhere_cells hconditions, ok_bind]

theorem item_delete (htable : isPlainName table = true)
    (hconditions : ∀ condition ∈ conditions, condition.isPrintable = true) :
    Item [] ((Statement.delete table conditions).cells style) := by
  have hhead : Item [] (plain "DELETE" ++ (plain " " ++ (plain "FROM" ++ (plain " "
      ++ plain table)))) :=
    (item_of_isWord "DELETE" (by decide)).words
      ((item_of_isWord "FROM" (by decide)).words (item_name (by simp) htable))
  have hwhole := hhead.whereClause hconditions
  rw [delete_cells]
  simp only [List.append_assoc] at hwhole
  exact hwhole

/-- A removal of rows is read back from its text. -/
theorem ofText_delete (style : Style) (htable : isPlainName table = true)
    (hconditions : ∀ condition ∈ conditions, condition.isPrintable = true) :
    Statement.ofText (some ((Statement.delete table conditions).text style))
      = .ok (.delete table conditions) := by
  have hkind : Statement.kindOf? (Statement.leadingWords
      ((Statement.delete table conditions).cells style)) = some .delete := by
    rw [delete_cells]
    exact kindOf?_word (by decide) (fun _ => rfl) _
  rw [Statement.text, ofText_cells (item_delete htable hconditions) hkind]
  exact readDelete_cells _ htable hconditions

end Change

namespace Statement

/-- Reading undoes printing for queries, changes and removals. Any of these is
    read back from its text, whatever its lists and literals contain, unless a
    limit or an offset has more digits than numbers are read with. -/
theorem ofText_text_of_search {s : Statement} (style : Style) (hs : s.isPrintable = true)
    (hkind : s.kind ∈ [.select, .update, .delete]) :
    ofText (some (s.text style))
      = if s.countsWithinLimit then .ok s else .error .digitLimit := by
  cases s with
  | select table items conditions order limit offset =>
    simp only [isPrintable, Bool.and_eq_true, List.all_eq_true] at hs
    rcases hs with ⟨⟨⟨htable, hitems⟩, hconditions⟩, horder⟩
    exact ofText_select style htable hitems hconditions horder
  | update table assignments conditions =>
    simp only [isPrintable, Bool.and_eq_true, List.all_eq_true, decide_eq_true_eq,
      Bool.not_eq_true', List.isEmpty_eq_false_iff] at hs
    rcases hs with ⟨⟨⟨⟨htable, hne⟩, hassignments⟩, hnodup⟩, hconditions⟩
    exact ofText_update style htable hne hassignments hnodup hconditions
  | delete table conditions =>
    simp only [isPrintable, Bool.and_eq_true, List.all_eq_true] at hs
    exact ofText_delete style hs.1 hs.2
  | _ => exact absurd hkind (by simp [kind])

/-- A query with names that begin with keywords and texts that look like the
    rest of a query. -/
def lookalikes : Statement :=
  select "orders" [⟨"fromage", some "as_is"⟩, ⟨"limit_2", none⟩]
    [⟨"android", .notLike, .text "%' AND b = 'x"⟩, ⟨"whereabouts", .equal, .text " ORDER BY a"⟩,
      ⟨"notes", .lessOrEqual, .int (-10)⟩]
    [⟨"offset_", true⟩, ⟨"ascii", false⟩] (some 10) (some 0)

theorem ofText_text_of_search_lookalikes :
    lookalikes.isPrintable = true ∧ lookalikes.kind ∈ [.select, .update, .delete]
      ∧ ofText (some (lookalikes.text { semicolon := true })) = .ok lookalikes := by
  have hprintable : lookalikes.isPrintable = true := by decide +kernel
  have hkind : lookalikes.kind ∈ [.select, .update, .delete] := by decide
  have hcounts : lookalikes.countsWithinLimit = true := by decide +kernel
  have hread := ofText_text_of_search { semicolon := true } hprintable hkind
  rw [if_pos hcounts] at hread
  exact ⟨hprintable, hkind, hread⟩

end Statement

end TableStore
