import TableStore.Proofs.Except
import TableStore.Proofs.Statement.Items

/-!
# Printed Conditions

The conditions of a clause are read back as they were printed. Three words are
looked for in the whole clause before it is taken apart: OR and NOT, which are
refused, and AND. None of them is found in a name, for a name is no keyword, or
in a literal; the word NOT is found in NOT LIKE and is excused there.

Whether the clause itself ends too early is a matter of the words at which
clauses end, and of those none begins in a condition.

## Theorems

* `Condition.item`: A printed condition is an item.
* `readCondition_cells`: A printed condition is read back.
* `readWhere_listed`: So is a list of conditions.
-/

namespace TableStore

section Operators

variable {stops : List String} {operator : ComparisonOperator} {s : List Cell}

/-- The operator with words is known by these. -/
theorem wordOperator?_found {words : List String} {u rest : List Cell} {c : Cell}
    (hfound : phrase? words (u ++ c :: rest) = some (c :: rest)) (hc : c.isBlank = true) :
    wordOperator? words (u ++ c :: rest)
      = some (.ofSymbol (String.intercalate " " ((Text.splitWords
          (Text.toUpper (u.map Cell.visible))).map String.ofList)), c :: rest) := by
  have hlength : (u ++ c :: rest).length - (c :: rest).length = u.length := by
    rw [List.length_append]
    omega
  unfold wordOperator?
  rw [hfound]
  simp only [Option.bind_eq_bind, Option.bind_some, hc, Bool.true_or, if_true, hlength,
    List.take_left]

/-- A printed operator is the first one that leaves a literal. -/
theorem operatorAndLiteral?_symbol (hoperator : operator.isKnown = true)
    (hs : Text.atBlank Cell.isBlank s = false) :
    operatorAndLiteral? (plain operator.symbol ++ (plain " " ++ s)) = some (operator, s) := by
  have hliteral : skipBlanks (plain " " ++ s) = s := by
    change skipBlanks (⟨' ', false⟩ :: s) = s
    unfold skipBlanks
    rw [List.dropWhile_cons_of_pos (by decide)]
    exact skipBlanks_of_text hs
  have hempty : s.isEmpty = false := by
    cases s with
    | nil => exact absurd hs (by decide)
    | cons c s => rfl
  have hfirst : ∀ found later, operators (plain operator.symbol ++ (plain " " ++ s))
      = (found, plain " " ++ s) :: later → found = operator →
      operatorAndLiteral? (plain operator.symbol ++ (plain " " ++ s)) = some (operator, s) := by
    rintro found later hlist rfl
    unfold operatorAndLiteral?
    rw [hlist, List.findSome?_cons]
    simp only [hliteral, hempty, Bool.false_eq_true, if_false]
  -- The other operators are tried in vain, or after the right one.
  cases operator with
  | unknown symbol => exact absurd hoperator Bool.false_ne_true
  | like =>
    have hword := @wordOperator?_found ["LIKE"] (plain "LIKE") s ⟨' ', false⟩ rfl rfl
    have hlist : operators (plain "LIKE" ++ (plain " " ++ s))
        = [wordOperator? ["LIKE"] (plain "LIKE" ++ ⟨' ', false⟩ :: s)].filterMap id := rfl
    rw [hword] at hlist
    exact hfirst _ _ hlist rfl
  | notLike =>
    have hword := @wordOperator?_found ["NOT", "LIKE"] (plain "NOT LIKE") s ⟨' ', false⟩ rfl rfl
    have hlist : operators (plain "NOT LIKE" ++ (plain " " ++ s))
        = [wordOperator? ["NOT", "LIKE"] (plain "NOT LIKE" ++ ⟨' ', false⟩ :: s)].filterMap id :=
      rfl
    rw [hword] at hlist
    exact hfirst _ _ hlist rfl
  | _ => exact hfirst _ _ rfl rfl

theorem item_symbol_operator (hstops : ∀ k ∈ stops, k ∈ clauseWords)
    (hoperator : operator.isKnown = true) : Item stops (plain operator.symbol) := by
  cases operator with
  | unknown symbol => exact absurd hoperator Bool.false_ne_true
  | like => exact item_otherWord hstops "LIKE" (by decide) (by decide)
  | notLike =>
    exact (item_otherWord hstops "NOT" (by decide) (by decide)).words
      (item_otherWord hstops "LIKE" (by decide) (by decide))
  | _ => exact item_symbol hstops (by decide)

end Operators

section Conditions

variable {stops : List String} {condition : Condition} {s : List Cell}

theorem Condition.cells_eq (condition : Condition) :
    condition.cells = plain condition.column ++ (plain " "
      ++ (plain condition.operator.symbol ++ (plain " " ++ condition.value.cells))) := by
  simp only [Condition.cells, plain_append, List.append_assoc]

theorem Condition.printable_parts (h : condition.isPrintable = true) :
    isPlainName condition.column = true ∧ condition.operator.isKnown = true
      ∧ condition.value.isLiteral = true := by
  unfold Condition.isPrintable at h
  rw [Bool.and_eq_true, Bool.and_eq_true] at h
  exact ⟨h.1.1, h.1.2, h.2⟩

/-- A printed condition is an item. -/
theorem Condition.item (hstops : ∀ k ∈ stops, k ∈ clauseWords) (h : condition.isPrintable = true) :
    Item stops condition.cells := by
  rcases Condition.printable_parts h with ⟨hcolumn, hoperator, hvalue⟩
  rw [Condition.cells_eq]
  exact (item_name hstops hcolumn).words
    ((item_symbol_operator hstops hoperator).words (item_value hstops hvalue))

theorem comparison?_cells (h : condition.isPrintable = true) :
    comparison? condition.cells
      = some (condition.column, condition.operator, condition.value.cells) := by
  rcases Condition.printable_parts h with ⟨hcolumn, hoperator, hvalue⟩
  have hitem : Item [] (plain condition.operator.symbol) := item_symbol_operator (by simp) hoperator
  rw [Condition.cells_eq]
  refine someWordSplit?_plain (isWord_of_isPlainName hcolumn) rfl ?_
  have hblank : skipBlanks (plain " " ++ (plain condition.operator.symbol
      ++ (plain " " ++ condition.value.cells)))
      = plain condition.operator.symbol ++ (plain " " ++ condition.value.cells) :=
    skipBlanks_of_text (hitem.atBlank _)
  rw [hblank, operatorAndLiteral?_symbol hoperator (Value.solid_cells hvalue).atBlank]
  rfl

/-- A printed condition is read back. -/
theorem readCondition_cells (clause : String) (h : condition.isPrintable = true) :
    readCondition clause condition.cells = .ok condition := by
  have hvalue := (Condition.printable_parts h).2.2
  have htrim : trimCells condition.value.cells = condition.value.cells :=
    (Value.solid_cells hvalue).trimmed.trimBy
  unfold readCondition
  rw [comparison?_cells h]
  dsimp only
  rw [htrim, Value.hasTextAfterLiteral_cells hvalue, Value.ofLiteral_cells hvalue]
  rfl

/-- No parenthesis is shown in a printed condition. -/
theorem Condition.not_separates (h : condition.isPrintable = true) :
    ∀ c ∈ condition.cells, c.separates = false := by
  rcases Condition.printable_parts h with ⟨hcolumn, hoperator, hvalue⟩
  have hsymbol : ∀ c ∈ plain condition.operator.symbol, c.separates = false := by
    cases hcases : condition.operator with
    | unknown symbol =>
      rw [hcases] at hoperator
      exact absurd hoperator Bool.false_ne_true
    | _ => decide
  have hblank : ∀ c ∈ plain " ", c.separates = false := by decide
  rw [Condition.cells_eq]
  simp only [List.forall_mem_append]
  exact ⟨(solid_plain (isWord_of_isPlainName hcolumn)).separates, hblank, hsymbol, hblank,
    (Value.solid_cells hvalue).separates⟩

/-- The words that are refused are not found in a printed condition, but for
    the word NOT before LIKE. -/
theorem Condition.absent {k : String} {excuse : List Cell → Bool} (hk : k = "OR" ∨ k = "NOT")
    (hexcuse : k = "NOT" → ∀ t, excuse (plain " LIKE " ++ t) = true)
    (h : condition.isPrintable = true) (hr : atDelimiter s = true) (hs : Absent k excuse s) :
    Absent k excuse (condition.cells ++ s) := by
  rcases Condition.printable_parts h with ⟨hcolumn, hoperator, hvalue⟩
  have hcapital : isCapital k = true ∧ k ∈ keywords := by rcases hk with rfl | rfl <;> decide
  have hliteral := absent_blank hcapital.1 (Value.absent_cells hk hvalue hr hs)
  have hword : ∀ w t, isWord w = true → capitals w ∉ ["OR", "NOT"] → atDelimiter t = true →
      Absent k excuse t → Absent k excuse (plain w ++ t) := by
    intro w t hw hne hdelimiter ht
    refine absent_word hcapital.1 hw (fun heq => absurd ?_ hne) hdelimiter ht
    rw [heq]
    rcases hk with rfl | rfl <;> decide
  -- The words of an operator are the only ones that could be refused.
  have hoperators : Absent k excuse (plain condition.operator.symbol
      ++ (plain " " ++ (condition.value.cells ++ s))) := by
    cases hcases : condition.operator with
    | unknown symbol =>
      rw [hcases] at hoperator
      exact absurd hoperator Bool.false_ne_true
    | like => exact hword "LIKE" _ (by decide) (by decide) rfl hliteral
    | notLike =>
      have hlike := absent_blank hcapital.1 (hword "LIKE" _ (by decide) (by decide) rfl hliteral)
      refine absent_word (w := "NOT") hcapital.1 (by decide) ?_ rfl hlike
      rintro rfl
      exact hexcuse rfl _
    | _ => exact absent_symbol hcapital.1 (by decide) hliteral
  rw [Condition.cells_eq]
  simp only [List.append_assoc]
  refine absent_word hcapital.1 (isWord_of_isPlainName hcolumn) ?_ rfl
    (absent_blank hcapital.1 hoperators)
  exact fun heq => absurd heq (capitals_ne_of_isPlainName hcolumn hcapital.2)

end Conditions

section Clause

variable {stops : List String} {conditions : List Condition}

theorem joins_and (hstops : ∀ k ∈ stops, k ∈ clauseWords) (hand : "AND" ∉ stops) :
    Joins stops " AND " := by
  have hword : capitals "AND" = "AND" := by decide
  refine joins_words (w := "AND") (item_word hstops (by decide) fun k hk heq => ?_) (by decide)
  rw [hword] at heq
  exact hand (heq ▸ hk)

theorem absent_listed {k : String} {excuse : List Cell → Bool} (hk : k = "OR" ∨ k = "NOT")
    (hexcuse : k = "NOT" → ∀ t, excuse (plain " LIKE " ++ t) = true)
    (h : ∀ condition ∈ conditions, condition.isPrintable = true) :
    Absent k excuse (listed " AND " (conditions.map Condition.cells)) := by
  have hcapital : isCapital k = true := by rcases hk with rfl | rfl <;> decide
  -- Each condition after the first has the word AND before it, so these are taken by induction.
  have hrest : ∀ later : List Condition, (∀ condition ∈ later, condition.isPrintable = true) →
      Absent k excuse ((later.map Condition.cells).flatMap (plain " AND " ++ ·))
        ∧ atDelimiter ((later.map Condition.cells).flatMap (plain " AND " ++ ·)) = true := by
    intro later
    induction later with
    | nil => exact fun _ => ⟨absent_nil, rfl⟩
    | cons condition later ih =>
      intro hlater
      have htail := ih fun other hother => hlater other (List.mem_cons_of_mem condition hother)
      refine ⟨?_, rfl⟩
      rw [List.map_cons, List.flatMap_cons, List.append_assoc]
      have hcondition := Condition.absent hk hexcuse (hlater condition List.mem_cons_self)
        htail.2 htail.1
      refine absent_blank hcapital (absent_word (w := "AND") hcapital (by decide) ?_ rfl
        (absent_blank hcapital hcondition))
      rintro rfl
      rcases hk with heq | heq <;> exact absurd heq (by decide)
  cases conditions with
  | nil => exact absent_nil
  | cons condition later =>
    have htail := hrest later fun other hother => h other (List.mem_cons_of_mem condition hother)
    exact Condition.absent hk hexcuse (h condition List.mem_cons_self) htail.2 htail.1

/-- A list of conditions is an item. -/
theorem item_conditions (hstops : ∀ k ∈ stops, k ∈ clauseWords) (hand : "AND" ∉ stops)
    (hne : conditions ≠ []) (h : ∀ condition ∈ conditions, condition.isPrintable = true) :
    Item stops (listed " AND " (conditions.map Condition.cells)) := by
  refine Item.listed (joins_and hstops hand) (by simpa using hne) ?_
  intro u hu
  rcases List.mem_map.mp hu with ⟨condition, hmem, rfl⟩
  exact Condition.item hstops (h condition hmem)

/-- A list of conditions is read back. -/
theorem readWhere_listed (hne : conditions ≠ [])
    (h : ∀ condition ∈ conditions, condition.isPrintable = true) :
    readWhere (listed " AND " (conditions.map Condition.cells)) = .ok conditions := by
  have hor : Absent "OR" (fun _ => false) (listed " AND " (conditions.map Condition.cells)) :=
    absent_listed (Or.inl rfl) (fun heq => absurd heq (by decide)) h
  have hnot : Absent "NOT" continuesWithLike (listed " AND " (conditions.map Condition.cells)) :=
    absent_listed (Or.inr rfl) (fun _ _ => rfl) h
  -- What separates is hidden in the literals, so there are no parentheses to refuse.
  have hparentheses : ((listed " AND " (conditions.map Condition.cells)).any fun c =>
      c.shows '(' || c.shows ')') = false := by
    have hitem : ∀ u ∈ conditions.map Condition.cells, ∀ c ∈ u, c.separates = false := by
      intro u hu
      rcases List.mem_map.mp hu with ⟨condition, hmem, rfl⟩
      exact Condition.not_separates (h condition hmem)
    rw [List.any_eq_false]
    intro c hc
    have hseparates := not_separates_listed (by decide) hitem c hc
    simp only [Cell.separates, Bool.or_eq_false_iff] at hseparates
    simp [hseparates.1.1, hseparates.1.2]
  have hpieces : splitAtAnd 0 (listed " AND " (conditions.map Condition.cells))
      = conditions.map Condition.cells := by
    refine splitAtAnd_listed (by simpa using hne) ?_
    intro u hu
    rcases List.mem_map.mp hu with ⟨condition, hmem, rfl⟩
    exact Condition.item (by decide) (h condition hmem)
  have htrim : (conditions.map Condition.cells).map trimCells = conditions.map Condition.cells := by
    rw [List.map_map]
    refine List.map_congr_left fun condition hmem => ?_
    have hitem : Item [] condition.cells := Condition.item (by simp) (h condition hmem)
    exact hitem.trimmed.trimBy
  unfold readWhere
  dsimp only
  rw [hor false, hnot false, hparentheses, hpieces, htrim]
  exact mapM_map_eq_ok fun condition hmem => readCondition_cells _ (h condition hmem)

end Clause

end TableStore
