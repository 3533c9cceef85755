import TableStore.Proofs.Statement.Alike

/-!
# Queries and Changes Are Read Alike

The statements about rows, clause by clause: texts that are the same outside of
their literals have the same conditions, lists, orders and limits, up to the
texts that they compare with or assign.

## Main definitions

* `PartsAlike`: The clauses of two queries that are read alike.

## Theorems

* `SameShown.readWhere`: Conditions are read alike.
* `SameShown.readInsert`, `SameShown.readSelect`, `SameShown.readUpdate`,
  `SameShown.readDelete`: So are the statements.
-/

namespace TableStore

namespace SameShown

variable {s t : List Cell} {sql sql' : String}

section Where

theorem symbolOperator? {symbol : String} {operator : ComparisonOperator}
    (hw : plainWord symbol = true) (h : SameShown s t) :
    Option.Rel SameAfter (TableStore.symbolOperator? symbol operator s)
      (TableStore.symbolOperator? symbol operator t) :=
  rel_map (h.keyword? hw) fun _ _ hrest => ⟨rfl, hrest.1⟩

/-- The operator is known by the words that were read, which are the same. -/
theorem wordOperator? {words : List String} (hw : words.all plainWord = true)
    (h : SameShown s t) :
    Option.Rel SameAfter (TableStore.wordOperator? words s) (TableStore.wordOperator? words t) := by
  refine rel_bind (h.phrase? hw) ?_
  rintro s' t' ⟨hrest, u, rfl, rfl⟩
  -- What was read of both texts is what stands before the rest.
  have htake : ∀ rest : List Cell, (u ++ rest).take ((u ++ rest).length - rest.length) = u := by
    intro rest
    rw [List.length_append, Nat.add_sub_cancel, List.take_left]
  cases hrest with
  | nil => exact .none
  | @shown c s t hc hst =>
    dsimp only
    rw [htake, htake]
    split
    · exact .some ⟨rfl, .shown hc hst⟩
    · exact .none
  | @literal q a b s t hq hst =>
    have hlit := SameShown.literal a b hq hst
    simp only [literalCells, List.cons_append] at hlit ⊢
    rw [htake, htake]
    split
    · exact .some ⟨rfl, hlit⟩
    · exact .none

theorem operators (h : SameShown s t) :
    List.Forall₂ SameAfter (TableStore.operators s) (TableStore.operators t) := by
  have hfound : ∀ {x y : List (Option (ComparisonOperator × List Cell))},
      List.Forall₂ (Option.Rel SameAfter) x y →
      List.Forall₂ SameAfter (x.filterMap id) (y.filterMap id) := by
    intro x y hxy
    induction hxy with
    | nil => exact .nil
    | cons hab _ ih =>
      cases hab with
      | none => exact ih
      | some hab => exact .cons hab ih
  refine hfound ?_
  exact .cons (h.symbolOperator? (by decide)) <| .cons (h.symbolOperator? (by decide)) <|
    .cons (h.symbolOperator? (by decide)) <| .cons (h.symbolOperator? (by decide)) <|
    .cons (h.symbolOperator? (by decide)) <| .cons (h.symbolOperator? (by decide)) <|
    .cons (h.symbolOperator? (by decide)) <| .cons (h.wordOperator? (by decide)) <|
    .cons (h.wordOperator? (by decide)) .nil

theorem operatorAndLiteral? (h : SameShown s t) :
    Option.Rel SameAfter (TableStore.operatorAndLiteral? s)
      (TableStore.operatorAndLiteral? t) := by
  refine rel_findSome? h.operators ?_
  rintro ⟨operator, s'⟩ ⟨_, t'⟩ ⟨rfl, hrest⟩
  dsimp only
  rw [hrest.skipBlanks.isEmpty_eq]
  split
  · exact .none
  · exact .some ⟨rfl, hrest.skipBlanks⟩

theorem comparison? (h : SameShown s t) :
    Option.Rel (fun p p' => p.1 = p'.1 ∧ SameAfter p.2 p'.2) (TableStore.comparison? s)
      (TableStore.comparison? t) := by
  refine h.someWordSplit? fun name s t hst => ?_
  exact rel_map hst.skipBlanks.operatorAndLiteral? fun p p' hp => ⟨rfl, hp⟩

theorem hasTextAfterLiteral (h : SameShown s t) :
    TableStore.hasTextAfterLiteral s = TableStore.hasTextAfterLiteral t := by
  cases h with
  | nil => rfl
  | @shown c s t hc hst =>
    have hshow : isQuote (Cell.visible ⟨c, false⟩) = false := hc
    rw [TableStore.hasTextAfterLiteral, TableStore.hasTextAfterLiteral, hshow,
      (SameShown.shown hc hst).splitRuns.length_eq]
    rfl
  | @literal q a b s t hq hst =>
    have hshow : Cell.visible ⟨q, false⟩ = q := rfl
    simp only [literalCells, List.cons_append, List.append_assoc, List.nil_append,
      TableStore.hasTextAfterLiteral, hshow, hq, if_true, afterNext_literal _ _ hq,
      hst.skipBlanks.isEmpty_eq]

theorem readCondition {clause clause' : String} (h : SameShown s t) :
    AlikeBy (SameBut Condition.withoutText) (TableStore.readCondition clause s)
      (TableStore.readCondition clause' t) := by
  unfold TableStore.readCondition
  refine rel_elim h.comparison? .parse ?_
  rintro ⟨column, operator, literal⟩ ⟨_, _, literal'⟩ ⟨rfl, rfl, hliteral⟩
  dsimp only
  rw [hliteral.trimCells.hasTextAfterLiteral]
  split
  · exact .parse
  · refine hliteral.ofLiteral.bind fun v w hvw => .ok ?_
    exact congrArg (Condition.mk column operator) hvw

theorem continuesWithLike (h : SameShown s t) :
    TableStore.continuesWithLike s = TableStore.continuesWithLike t := by
  have hrest : Option.Rel SameShown ((TableStore.blanks? s).bind (TableStore.keyword? "LIKE"))
      ((TableStore.blanks? t).bind (TableStore.keyword? "LIKE")) :=
    rel_bind h.blanks? fun s' t' h' => rel_imp (h'.1.keyword? (by decide)) fun _ _ hcut => hcut.1
  unfold TableStore.continuesWithLike
  exact rel_elim hrest rfl fun _ _ hlike => hlike.atWordEnd

theorem any_parenthesis (h : SameShown s t) :
    (s.any fun c => c.shows '(' || c.shows ')') = t.any fun c => c.shows '(' || c.shows ')' := by
  have hliteral : ∀ {q : Char}, isQuote q = true → ∀ body,
      ((literalCells q body).any fun c => c.shows '(' || c.shows ')') = false := by
    intro q hq body
    refine List.any_eq_false.mpr fun c hc => ?_
    have hcell := sealed_of_mem_literalCells hq hc
    simp [hcell.shows (a := '(') (by decide) (by decide),
      hcell.shows (a := ')') (by decide) (by decide)]
  induction h with
  | nil => rfl
  | shown hc _ ih => rw [List.any_cons, List.any_cons, ih]
  | literal a b hq _ ih => rw [List.any_append, List.any_append, hliteral hq, hliteral hq, ih]

theorem readWhere (h : SameShown s t) :
    AlikeBy (SameBut (List.map Condition.withoutText)) (TableStore.readWhere s)
      (TableStore.readWhere t) := by
  unfold TableStore.readWhere
  dsimp only
  rw [h.containsWord (w := "OR") (by decide) (fun _ _ _ => rfl), h.any_parenthesis,
    h.containsWord (w := "NOT") (by decide) fun _ _ hst => hst.continuesWithLike]
  split
  · exact .parse
  · split
    · exact .parse
    · split
      · exact .parse
      · have hpieces : List.Forall₂ SameShown ((TableStore.splitAtAnd 0 s).map TableStore.trimCells)
            ((TableStore.splitAtAnd 0 t).map TableStore.trimCells) := by
          rw [List.forall₂_map_left_iff, List.forall₂_map_right_iff]
          exact h.splitAtAnd.imp fun _ _ hw => hw.trimCells
        exact (AlikeBy.mapM hpieces fun _ _ hw => hw.readCondition).imp fun _ _ => sameBut_map

theorem readOptionalWhere {x y : Option (List Cell)} (h : Option.Rel SameShown x y) :
    AlikeBy (SameBut (List.map Condition.withoutText)) (TableStore.readOptionalWhere x)
      (TableStore.readOptionalWhere y) := by
  cases h with
  | none => exact .ok rfl
  | some hst => exact hst.readWhere

theorem whereClause? (h : SameShown s t) :
    Option.Rel SameShown (TableStore.whereClause? s) (TableStore.whereClause? t) := by
  refine rel_bind (h.spacedPhrase? (by decide)) fun s' t' hrest => ?_
  rw [hrest.1.isEmpty_eq]
  split
  · exact .none
  · exact .some hrest.1

end Where

section Insert

theorem columnList (h : SameShown s t) :
    Option.Rel SameShown (TableStore.columnList s).1 (TableStore.columnList t).1
      ∧ SameShown (TableStore.columnList s).2 (TableStore.columnList t).2 := by
  have hlist : Option.Rel (fun p p' => SameShown p.1 p'.1 ∧ SameShown p.2 p'.2)
      ((TableStore.mark? '(' s).bind TableStore.untilClosing?)
      ((TableStore.mark? '(' t).bind TableStore.untilClosing?) :=
    rel_bind (h.mark? (by decide) (by decide)) fun _ _ hrest => hrest.untilClosing?
  unfold TableStore.columnList
  exact rel_elim hlist ⟨.none, h⟩ fun _ _ hp => ⟨.some hp.1, hp.2.skipBlanks⟩

theorem insertParts? (h : SameShown s t) :
    Option.Rel (fun p p' => p.1 = p'.1 ∧ Option.Rel SameShown p.2.1 p'.2.1
      ∧ SameShown p.2.2 p'.2.2) (TableStore.insertParts? s) (TableStore.insertParts? t) := by
  refine rel_bind (h.phrase? (by decide)) fun s₁ t₁ h₁ => ?_
  refine rel_bind h₁.1.blanks? fun s₂ t₂ h₂ => h₂.1.someWordSplit? fun name s t hst => ?_
  have hlists : Option.Rel (fun p p' => Option.Rel SameShown p.1 p'.1 ∧ SameShown p.2 p'.2)
      (TableStore.insertLists? s) (TableStore.insertLists? t) := by
    have hcolumns := hst.skipBlanks.columnList
    refine rel_bind (hcolumns.2.keyword? (by decide)) fun s₃ t₃ h₃ => ?_
    refine rel_bind (h₃.1.skipBlanks.mark? (by decide) (by decide)) fun s₄ t₄ h₄ => ?_
    exact rel_bind h₄.enclosed? fun s₅ t₅ h₅ => .some ⟨hcolumns.1, h₅⟩
  exact rel_map hlists fun p p' hp => ⟨rfl, hp⟩

theorem readNames (h : SameShown s t) :
    AlikeBy Eq (TableStore.readNames s) (TableStore.readNames t) := by
  have hpieces : List.Forall₂ SameShown ((TableStore.nameList s).map TableStore.trimCells)
      ((TableStore.nameList t).map TableStore.trimCells) := by
    rw [List.forall₂_map_left_iff, List.forall₂_map_right_iff]
    exact h.nameList.imp fun _ _ hw => hw.trimCells
  -- A name has no literal in it, so names that are read are the same.
  refine (AlikeBy.mapM (R := Eq) hpieces fun u v huv => ?_).imp fun names names' hnames =>
    List.forall₂_eq_eq_eq ▸ hnames
  rw [huv.isEmpty_eq, huv.all_isWordChar.1]
  split
  · rename_i hname
    rw [huv.all_isWordChar.2 (by
      rw [huv.all_isWordChar.1]
      exact (Bool.and_eq_true_iff.mp hname).2)]
    exact .ok rfl
  · exact .parse

theorem readInsertColumns {x y : Option (List Cell)} (h : Option.Rel SameShown x y) :
    AlikeBy Eq (TableStore.readInsertColumns sql x) (TableStore.readInsertColumns sql' y) := by
  cases h with
  | none => exact .ok rfl
  | some hst =>
    refine hst.readNames.bind ?_
    rintro names _ rfl
    split
    · exact .parse
    · exact .ok rfl

theorem readValues (h : SameShown s t) :
    AlikeBy (SameBut (List.map Value.withoutText)) (TableStore.readValues s)
      (TableStore.readValues t) := by
  unfold TableStore.readValues
  rw [h.trimCells.isEmpty_eq]
  split
  · exact .parse
  · refine h.splitAtCommas.bind fun ws ws' hws => ?_
    have hempty : ws.any List.isEmpty = ws'.any List.isEmpty := by
      induction hws with
      | nil => rfl
      | cons hw _ ih => rw [List.any_cons, List.any_cons, hw.isEmpty_eq, ih]
    rw [hempty]
    split
    · exact .parse
    · exact (AlikeBy.mapM hws fun _ _ hw => hw.ofLiteral).imp fun _ _ => sameBut_map

theorem readInsert (h : SameShown s t) :
    AlikeBy (SameBut Statement.withoutTexts) (TableStore.readInsert sql s)
      (TableStore.readInsert sql' t) := by
  unfold TableStore.readInsert
  refine rel_elim h.insertParts? .parse ?_
  rintro ⟨table, columns, values⟩ ⟨_, columns', values'⟩ ⟨rfl, hcolumns, hvalues⟩
  refine (readInsertColumns hcolumns).bind ?_
  rintro names _ rfl
  refine hvalues.readValues.bind fun vs vs' hvs => .ok ?_
  exact congrArg (Statement.insert table names) hvs

end Insert

section Select

theorem count? {w : String} (hw : plainWord w = true) (h : SameShown s t) :
    SameAfter (TableStore.count? w s) (TableStore.count? w t) := by
  have hcount : Option.Rel SameAfter ((TableStore.spacedPhrase? [w] s).bind TableStore.digits?)
      ((TableStore.spacedPhrase? [w] t).bind TableStore.digits?) :=
    rel_bind (h.spacedPhrase? (by simp [hw])) fun _ _ hrest => hrest.1.digits?
  unfold TableStore.count?
  exact rel_elim hcount ⟨rfl, h⟩ fun _ _ hp => ⟨congrArg some hp.1, hp.2⟩

theorem counts? (h : SameShown s t) : TableStore.counts? s = TableStore.counts? t := by
  have hlimit := h.count? (w := "LIMIT") (by decide)
  have hoffset := hlimit.2.count? (w := "OFFSET") (by decide)
  unfold TableStore.counts?
  dsimp only
  rw [hoffset.2.atEnd?, hlimit.1, hoffset.1]

theorem rel_counts? (h : SameShown s t) :
    Option.Rel Eq (TableStore.counts? s) (TableStore.counts? t) := by
  rw [h.counts?]
  cases TableStore.counts? t with
  | none => exact .none
  | some p => exact .some rfl

theorem orderAndCounts? (h : SameShown s t) :
    Option.Rel (fun p p' => Option.Rel SameShown p.1 p'.1 ∧ p.2 = p'.2)
      (TableStore.orderAndCounts? s) (TableStore.orderAndCounts? t) := by
  have horder : Option.Rel (fun p p' => SameShown p.1 p'.1 ∧ p.2 = p'.2)
      ((TableStore.spacedPhrase? ["ORDER", "BY"] s).bind
        (TableStore.shortestPrefix? TableStore.counts?))
      ((TableStore.spacedPhrase? ["ORDER", "BY"] t).bind
        (TableStore.shortestPrefix? TableStore.counts?)) :=
    rel_bind (h.spacedPhrase? (by decide)) fun _ _ hrest =>
      hrest.1.shortestPrefix? (fun _ _ hst => hst.rel_counts?) stopsAt_counts?
  unfold TableStore.orderAndCounts?
  refine rel_elim horder ?_ fun p p' hp => .some ⟨.some hp.1, hp.2⟩
  exact rel_map h.rel_counts? fun _ _ hp => ⟨.none, hp⟩

theorem clauses? (h : SameShown s t) :
    Option.Rel (fun p p' => Option.Rel SameShown p.1 p'.1 ∧ Option.Rel SameShown p.2.1 p'.2.1
      ∧ p.2.2 = p'.2.2) (TableStore.clauses? s) (TableStore.clauses? t) := by
  have hwhere : Option.Rel (fun p p' => SameShown p.1 p'.1
        ∧ Option.Rel SameShown p.2.1 p'.2.1 ∧ p.2.2 = p'.2.2)
      ((TableStore.spacedPhrase? ["WHERE"] s).bind
        (TableStore.shortestPrefix? TableStore.orderAndCounts?))
      ((TableStore.spacedPhrase? ["WHERE"] t).bind
        (TableStore.shortestPrefix? TableStore.orderAndCounts?)) :=
    rel_bind (h.spacedPhrase? (by decide)) fun _ _ hrest =>
      hrest.1.shortestPrefix? (fun _ _ hst => hst.orderAndCounts?) stopsAt_orderAndCounts?
  unfold TableStore.clauses?
  refine rel_elim hwhere ?_ fun p p' hp => .some ⟨.some hp.1, hp.2⟩
  exact rel_map h.orderAndCounts? fun _ _ hp => ⟨.none, hp⟩

/-- The clauses of two queries that are read alike. -/
structure PartsAlike (parts parts' : SelectParts) : Prop where
  items : SameShown parts.items parts'.items
  table : parts.table = parts'.table
  conditions : Option.Rel SameShown parts.conditions parts'.conditions
  order : Option.Rel SameShown parts.order parts'.order
  limit : parts.limit = parts'.limit
  offset : parts.offset = parts'.offset

theorem fromTable? (h : SameShown s t) :
    Option.Rel PartsAlike (TableStore.fromTable? s) (TableStore.fromTable? t) := by
  refine rel_bind (h.spacedPhrase? (by decide)) fun s₁ t₁ h₁ => ?_
  refine rel_bind h₁.1.word? ?_
  rintro ⟨table, s₂⟩ ⟨_, t₂⟩ ⟨rfl, h₂⟩
  refine rel_bind h₂.clauses? ?_
  rintro ⟨conditions, order, limit, offset⟩ ⟨conditions', order', _, _⟩ ⟨hconditions, horder, heq⟩
  have hcounts := Prod.mk.inj heq
  exact .some ⟨.nil, rfl, hconditions, horder, hcounts.1, hcounts.2⟩

theorem selectParts? (h : SameShown s t) :
    Option.Rel PartsAlike (TableStore.selectParts? s) (TableStore.selectParts? t) := by
  refine rel_bind (h.phrase? (by decide)) fun s₁ t₁ h₁ => ?_
  rw [← h₁.1.takeWhile_eq fun _ => Sealed.isBlank]
  refine rel_findSome? (List.forall₂_same.mpr fun _ _ => rfl) ?_
  rintro i _ rfl
  have hcut := (h₁.1.cut (fun _ => Sealed.isBlank) (Nat.sub_le _ i)).2
  refine rel_map (hcut.shortestPrefix? (fun _ _ hst => hst.fromTable?) stopsAt_fromTable?) ?_
  rintro ⟨items, parts⟩ ⟨items', parts'⟩ ⟨hitems, hparts⟩
  exact { hparts with items := hitems }

theorem selectItem? (h : SameShown s t) :
    Option.Rel Eq (TableStore.selectItem? s) (TableStore.selectItem? t) := by
  refine rel_bind h.word? ?_
  rintro ⟨column, s₁⟩ ⟨_, t₁⟩ ⟨rfl, h₁⟩
  dsimp only
  rw [h₁.isEmpty_eq]
  split
  · exact .some rfl
  · refine rel_bind (h₁.spacedPhrase? (by decide)) fun s₂ t₂ h₂ => ?_
    refine rel_bind h₂.1.word? ?_
    rintro ⟨label, s₃⟩ ⟨_, t₃⟩ ⟨rfl, h₃⟩
    dsimp only
    rw [h₃.isEmpty_eq]
    split
    · exact .some rfl
    · exact .none

/-- A text with a literal in it does not ask for all columns. -/
theorem isStar (h : SameShown s t) : (visibleText s == "*") = (visibleText t == "*") := by
  have hquoted : ∀ {u : List Cell}, (∃ q, isQuote q = true ∧ ⟨q, false⟩ ∈ u) →
      (visibleText u == "*") = false := by
    rintro u ⟨q, hq, hmem⟩
    refine beq_eq_false_iff_ne.mpr fun heq => ?_
    have hchars := congrArg String.toList heq
    rw [visibleText, String.toList_ofList] at hchars
    have hstar : q ∈ "*".toList := hchars ▸ List.mem_map_of_mem (f := Cell.visible) hmem
    rcases quote_cases hq with rfl | rfl <;> exact absurd hstar (by decide)
  rcases h.eq_or_quoted with rfl | ⟨hs, ht⟩
  · rfl
  · rw [hquoted hs, hquoted ht]

theorem readItems (h : SameShown s t) :
    AlikeBy Eq (TableStore.readItems sql s) (TableStore.readItems sql' t) := by
  unfold TableStore.readItems
  rw [h.trimCells.isStar]
  split
  · exact .ok rfl
  · refine h.splitAtCommas.bind fun ws ws' hws => ?_
    refine (AlikeBy.mapM (R := Eq) hws fun w w' hw => ?_).imp
      fun _ _ hitems => List.forall₂_eq_eq_eq ▸ hitems
    exact rel_elim hw.selectItem? .parse fun _ _ hsame => .ok hsame

theorem orderItem? (h : SameShown s t) :
    Option.Rel Eq (TableStore.orderItem? s) (TableStore.orderItem? t) := by
  have hany : ∀ {w : String} {s t : List Cell}, plainWord w = true → SameShown s t →
      (TableStore.keyword? w s).any List.isEmpty = (TableStore.keyword? w t).any List.isEmpty := by
    intro w s t hw hst
    exact rel_elim (hst.keyword? hw) rfl fun _ _ hrest => hrest.1.isEmpty_eq
  refine rel_bind h.word? ?_
  rintro ⟨column, s₁⟩ ⟨_, t₁⟩ ⟨rfl, h₁⟩
  dsimp only
  rw [h₁.isEmpty_eq]
  split
  · exact .some rfl
  · refine rel_bind h₁.blanks? fun s₂ t₂ h₂ => ?_
    rw [hany (w := "ASC") (by decide) h₂.1, hany (w := "DESC") (by decide) h₂.1]
    split
    · exact .some rfl
    · split
      · exact .some rfl
      · exact .none

theorem readOrder {x y : Option (List Cell)} (h : Option.Rel SameShown x y) :
    AlikeBy Eq (TableStore.readOrder sql x) (TableStore.readOrder sql' y) := by
  cases h with
  | none => exact .ok rfl
  | some hst =>
    refine hst.splitAtCommas.bind fun ws ws' hws => ?_
    refine (AlikeBy.mapM (R := Eq) hws fun w w' hw => ?_).imp
      fun _ _ hitems => List.forall₂_eq_eq_eq ▸ hitems
    exact rel_elim hw.orderItem? .parse fun _ _ hsame => .ok hsame

theorem readSelect (h : SameShown s t) :
    AlikeBy (SameBut Statement.withoutTexts) (TableStore.readSelect sql s)
      (TableStore.readSelect sql' t) := by
  unfold TableStore.readSelect
  refine rel_elim h.selectParts? .parse fun parts parts' hp => ?_
  refine hp.items.readItems.bind ?_
  rintro items _ rfl
  refine (readOptionalWhere hp.conditions).bind fun conditions conditions' hconditions => ?_
  refine (readOrder hp.order).bind ?_
  rintro order _ rfl
  rw [hp.limit, hp.offset, hp.table]
  refine (AlikeBy.refl (R := Eq) (fun _ => rfl) _).bind ?_
  rintro limit _ rfl
  refine (AlikeBy.refl (R := Eq) (fun _ => rfl) _).bind ?_
  rintro offset _ rfl
  exact .ok (congrArg (fun cs => Statement.select _ items cs order limit offset) hconditions)

end Select

section Change

theorem upToWhere? (h : SameShown s t) :
    Option.Rel (fun p p' => SameShown p.1 p'.1 ∧ Option.Rel SameShown p.2 p'.2)
      (TableStore.upToWhere? s) (TableStore.upToWhere? t) := by
  have hclause := h.shortestPrefix? (fun _ _ hst => hst.whereClause?) stopsAt_whereClause?
  unfold TableStore.upToWhere?
  refine rel_elim hclause ?_ fun p p' hp => .some ⟨hp.1, .some hp.2⟩
  dsimp only
  rw [h.isEmpty_eq]
  split
  · exact .none
  · exact .some ⟨h, .none⟩

theorem updateParts? (h : SameShown s t) :
    Option.Rel (fun p p' => p.1 = p'.1 ∧ SameShown p.2.1 p'.2.1
      ∧ Option.Rel SameShown p.2.2 p'.2.2) (TableStore.updateParts? s)
      (TableStore.updateParts? t) := by
  refine rel_bind (h.phrase? (by decide)) fun s₁ t₁ h₁ => ?_
  refine rel_bind h₁.1.blanks? fun s₂ t₂ h₂ => ?_
  refine rel_bind h₂.1.word? ?_
  rintro ⟨table, s₃⟩ ⟨_, t₃⟩ ⟨rfl, h₃⟩
  refine rel_bind (h₃.spacedPhrase? (by decide)) fun s₄ t₄ h₄ => ?_
  exact rel_bind h₄.1.upToWhere? fun p p' hp => .some ⟨rfl, hp⟩

theorem assignmentParts? (h : SameShown s t) :
    Option.Rel SameAfter (TableStore.assignmentParts? s) (TableStore.assignmentParts? t) := by
  refine rel_bind h.word? ?_
  rintro ⟨column, s₁⟩ ⟨_, t₁⟩ ⟨rfl, h₁⟩
  refine rel_bind (h₁.skipBlanks.mark? (by decide) (by decide)) fun s₂ t₂ h₂ => ?_
  dsimp only
  rw [h₂.skipBlanks.isEmpty_eq]
  split
  · exact .none
  · exact .some ⟨rfl, h₂.skipBlanks⟩

theorem arithmetic? (h : SameShown s t) :
    Option.Rel SameAfter (TableStore.arithmetic? s) (TableStore.arithmetic? t) := by
  cases h with
  | nil => exact .none
  | @shown c s t hc hst =>
    rw [TableStore.arithmetic?, TableStore.arithmetic?]
    split
    · exact .some ⟨rfl, hst⟩
    · split
      · exact .some ⟨rfl, hst⟩
      · exact .none
  | @literal q a b s t hq hst =>
    have hplus : Cell.shows ⟨q, false⟩ '+' = false :=
      Sealed.shows (Or.inr hq) (by decide) (by decide)
    have hminus : Cell.shows ⟨q, false⟩ '-' = false :=
      Sealed.shows (Or.inr hq) (by decide) (by decide)
    simp only [literalCells, List.cons_append, TableStore.arithmetic?, hplus, hminus]
    exact .none

theorem skipPlaces (h : SameShown s t) :
    SameShown (TableStore.skipPlaces s) (TableStore.skipPlaces t) := by
  have hplaces : Option.Rel SameAfter ((TableStore.mark? '.' s).bind TableStore.digits?)
      ((TableStore.mark? '.' t).bind TableStore.digits?) :=
    rel_bind (h.mark? (by decide) (by decide)) fun _ _ hrest => hrest.digits?
  unfold TableStore.skipPlaces
  exact rel_elim hplaces h fun _ _ hp => hp.2

theorem isNumber (h : SameShown s t) : TableStore.isNumber s = TableStore.isNumber t := by
  have hunsigned : SameShown (((TableStore.arithmetic? s).map Prod.snd).getD s)
      (((TableStore.arithmetic? t).map Prod.snd).getD t) :=
    rel_elim h.arithmetic? h fun _ _ hp => hp.2
  rw [isNumber_eq, isNumber_eq]
  exact rel_elim hunsigned.digits? rfl fun _ _ hp => hp.2.skipPlaces.isEmpty_eq

theorem sumParts? (h : SameShown s t) :
    Option.Rel (fun p p' => p.1 = p'.1 ∧ SameAfter p.2 p'.2) (TableStore.sumParts? s)
      (TableStore.sumParts? t) := by
  refine rel_bind h.word? ?_
  rintro ⟨column, s₁⟩ ⟨_, t₁⟩ ⟨rfl, h₁⟩
  refine rel_bind h₁.skipBlanks.arithmetic? ?_
  rintro ⟨sign, s₂⟩ ⟨_, t₂⟩ ⟨rfl, h₂⟩
  dsimp only
  rw [h₂.skipBlanks.isNumber]
  split
  · exact .some ⟨rfl, rfl, h₂.skipBlanks⟩
  · exact .none

theorem readExpression {column : String} (h : SameShown s t) :
    AlikeBy (SameBut Assignment.withoutText) (TableStore.readExpression sql column s)
      (TableStore.readExpression sql' column t) := by
  unfold TableStore.readExpression
  refine rel_elim h.sumParts? ?_ ?_
  · exact h.ofLiteral.bind fun v w hvw => .ok (congrArg (Assignment.mk column · none) hvw)
  · rintro ⟨name, sign, number⟩ ⟨_, _, number'⟩ ⟨rfl, rfl, hnumber⟩
    dsimp only
    split
    · exact hnumber.ofLiteral.bind fun v w hvw =>
        .ok (congrArg (Assignment.mk column · (some sign)) hvw)
    · exact .parse

theorem readAssignments {seen : List String} {ws ws' : List (List Cell)}
    (h : List.Forall₂ SameShown ws ws') :
    AlikeBy (SameBut (List.map Assignment.withoutText)) (TableStore.readAssignments sql seen ws)
      (TableStore.readAssignments sql' seen ws') := by
  induction h generalizing seen with
  | nil => exact .ok rfl
  | @cons w w' ws ws' hw _ ih =>
    rw [TableStore.readAssignments, TableStore.readAssignments]
    refine rel_elim hw.assignmentParts? .parse ?_
    rintro ⟨column, expression⟩ ⟨_, expression'⟩ ⟨rfl, hexpression⟩
    dsimp only
    split
    · exact .parse
    · refine hexpression.trimCells.readExpression.bind fun a b hab => ?_
      exact ih.bind fun as bs has => .ok (congrArg₂ List.cons hab has)

theorem readUpdate (h : SameShown s t) :
    AlikeBy (SameBut Statement.withoutTexts) (TableStore.readUpdate sql s)
      (TableStore.readUpdate sql' t) := by
  unfold TableStore.readUpdate
  refine rel_elim h.updateParts? .parse ?_
  rintro ⟨table, list, conditions⟩ ⟨_, list', conditions'⟩ ⟨rfl, hlist, hconditions⟩
  refine hlist.splitAtCommas.bind fun ws ws' hws => ?_
  refine (readAssignments hws).bind fun as bs has => ?_
  refine (readOptionalWhere hconditions).bind fun cs ds hcs => .ok ?_
  exact congrArg₂ (Statement.update table) has hcs

theorem deleteParts? (h : SameShown s t) :
    Option.Rel (fun p p' => p.1 = p'.1 ∧ Option.Rel SameShown p.2 p'.2)
      (TableStore.deleteParts? s) (TableStore.deleteParts? t) := by
  refine rel_bind (h.phrase? (by decide)) fun s₁ t₁ h₁ => ?_
  refine rel_bind h₁.1.blanks? fun s₂ t₂ h₂ => ?_
  refine rel_bind h₂.1.word? ?_
  rintro ⟨table, s₃⟩ ⟨_, t₃⟩ ⟨rfl, h₃⟩
  dsimp only
  refine rel_elim h₃.whereClause? ?_ fun _ _ hclause => .some ⟨rfl, .some hclause⟩
  dsimp only
  rw [h₃.skipBlanks.isEmpty_eq]
  split
  · exact .some ⟨rfl, .none⟩
  · exact .none

theorem readDelete (h : SameShown s t) :
    AlikeBy (SameBut Statement.withoutTexts) (TableStore.readDelete sql s)
      (TableStore.readDelete sql' t) := by
  unfold TableStore.readDelete
  refine rel_elim h.deleteParts? .parse ?_
  rintro ⟨table, conditions⟩ ⟨_, conditions'⟩ ⟨rfl, hconditions⟩
  refine (readOptionalWhere hconditions).bind fun cs ds hcs => .ok ?_
  exact congrArg (Statement.delete table) hcs

end Change

end SameShown

end TableStore
