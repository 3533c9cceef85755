import TableStore.Proofs.Statement.Alike
import TableStore.Proofs.Statement.Cuts

/-!
# Definitions Are Read Alike

The statements that change the catalog. The number of steps that bounds the
reading of a column's constraints depends on the length of its text, and so on
what its literals hold; but any number that is not less than the length leads
to the same result.

## Main definitions

* `ConstraintAlike`: Constraints of a column that are read alike.

## Theorems

* `SameShown.readConstraints`, `SameShown.readColumn`: Columns are read alike.
* `SameShown.settlePrimaryKey`: What is settled about the primary key.
* `SameShown.readCreateTable`, `SameShown.dropTable?`, `SameShown.createIndex?`,
  `SameShown.dropIndex?`: So are the statements.
-/

namespace TableStore

namespace SameShown

variable {s t : List Cell} {sql sql' : String}

section Definitions

/-- Constraints of a column that are read alike. -/
inductive ConstraintAlike : Constraint → Constraint → Prop
  | primaryKey : ConstraintAlike .primaryKey .primaryKey
  | notNull : ConstraintAlike .notNull .notNull
  | null : ConstraintAlike .null .null
  | default {s t : List Cell} (h : SameShown s t) : ConstraintAlike (.default s) (.default t)

theorem untilBlank (h : SameShown s t) :
    SameShown (TableStore.untilBlank s).1 (TableStore.untilBlank t).1
      ∧ SameShown (TableStore.untilBlank s).2 (TableStore.untilBlank t).2 := by
  unfold TableStore.untilBlank
  induction h with
  | nil => exact ⟨.nil, .nil⟩
  | @shown c s t hc hst ih =>
    by_cases hblank : Cell.isBlank ⟨c, false⟩ = true
    · simp only [List.takeWhile_cons, List.dropWhile_cons, hblank]
      exact ⟨.nil, .shown hc hst⟩
    · rw [Bool.not_eq_true] at hblank
      simp only [List.takeWhile_cons, List.dropWhile_cons, hblank]
      exact ⟨.shown hc ih.1, ih.2⟩
  | @literal q a b s t hq _ ih =>
    have hpass : ∀ body, ∀ c ∈ literalCells q body, (!c.isBlank) = true := by
      intro body c hc
      rw [(sealed_of_mem_literalCells hq hc).isBlank]
      rfl
    dsimp only at ih ⊢
    rw [List.takeWhile_append_of_pos (hpass a), List.takeWhile_append_of_pos (hpass b),
      List.dropWhile_append_of_pos (hpass a), List.dropWhile_append_of_pos (hpass b)]
    exact ⟨.literal a b hq ih.1, ih.2⟩

theorem constraint? (h : SameShown s t) :
    Option.Rel (fun p p' => ConstraintAlike p.1 p'.1 ∧ SameShown p.2 p'.2)
      (TableStore.constraint? s) (TableStore.constraint? t) := by
  have hphrase : ∀ {words : List String} {constraint : Constraint} {s t : List Cell},
      words.all plainWord = true → ConstraintAlike constraint constraint → SameShown s t →
      Option.Rel (fun p p' => ConstraintAlike p.1 p'.1 ∧ SameShown p.2 p'.2)
        (constraintPhrase? words constraint s) (constraintPhrase? words constraint t) := by
    intro words constraint s t hw hsame hst
    refine rel_bind (hst.phrase? hw) ?_
    rintro s' t' ⟨hrest, -⟩
    cases hrest with
    | nil => exact .some ⟨hsame, .nil⟩
    | @shown c s t hc hst =>
      dsimp only
      split
      · exact .some ⟨hsame, .shown hc hst⟩
      · exact .none
    | @literal q a b s t hq hst =>
      have hstop : Cell.isBlank ⟨q, false⟩ = false := Sealed.isBlank (Or.inr hq)
      simp only [literalCells, List.cons_append, hstop]
      exact .none
  have hdefault : ∀ {s t : List Cell}, SameShown s t →
      Option.Rel (fun p p' => ConstraintAlike p.1 p'.1 ∧ SameShown p.2 p'.2) (default? s)
        (default? t) := by
    intro s t hst
    refine rel_bind (hst.keyword? (by decide)) fun s₁ t₁ h₁ => ?_
    refine rel_bind h₁.1.blanks? fun s₂ t₂ h₂ => ?_
    have hsplit := h₂.1.untilBlank
    dsimp only
    rw [hsplit.1.isEmpty_eq]
    split
    · exact .none
    · exact .some ⟨.default hsplit.1, hsplit.2⟩
  refine rel_bind h.blanks? fun s₁ t₁ h₁ => ?_
  exact rel_orElse (hphrase (by decide) .primaryKey h₁.1) <|
    rel_orElse (hphrase (by decide) .notNull h₁.1) <|
    rel_orElse (hphrase (by decide) .null h₁.1) (hdefault h₁.1)

theorem applyConstraint {column column' : Column} {c c' : Constraint}
    (hcolumn : SameBut Column.withoutText column column') (h : ConstraintAlike c c') :
    AlikeBy (SameBut Column.withoutText) (TableStore.applyConstraint column c)
      (TableStore.applyConstraint column' c') := by
  unfold SameBut Column.withoutText at hcolumn
  rw [Column.mk.injEq] at hcolumn
  rcases hcolumn with ⟨hname, htype, hnullable, hkey, hdefault⟩
  cases h with
  | primaryKey =>
    refine .ok ?_
    unfold SameBut Column.withoutText
    simp only [hname, htype, hnullable, hdefault]
  | notNull =>
    refine .ok ?_
    unfold SameBut Column.withoutText
    simp only [hname, htype, hkey, hdefault]
  | null =>
    refine .ok ?_
    unfold SameBut Column.withoutText
    simp only [hname, htype, hkey, hdefault]
  | default hst =>
    refine hst.ofLiteral.bind fun v w hvw => .ok ?_
    unfold SameBut at hvw
    unfold SameBut Column.withoutText
    simp only [hname, htype, hnullable, hkey, hvw]

/-- Any two numbers of steps do that are not less than the texts are long. -/
theorem readConstraints {definition definition' : String} {m n : Nat} {column column' : Column}
    (hcolumn : SameBut Column.withoutText column column') (hm : s.length ≤ m) (hn : t.length ≤ n)
    (h : SameShown s t) :
    AlikeBy (SameBut Column.withoutText) (TableStore.readConstraints definition sql m column s)
      (TableStore.readConstraints definition' sql' n column' t) := by
  induction m generalizing n column column' s t with
  | zero =>
    -- Without a step there is no text left, in the other text neither.
    have hs : s.isEmpty = true := by
      rw [List.length_eq_zero_iff.mp (Nat.le_zero.mp hm)]
      rfl
    have ht : t.isEmpty = true := by rw [← h.isEmpty_eq, hs]
    cases n with
    | zero => exact .ok hcolumn
    | succ n =>
      rw [TableStore.readConstraints, TableStore.readConstraints, if_pos ht]
      exact .ok hcolumn
  | succ m ih =>
    cases n with
    | zero =>
      have ht : t.isEmpty = true := by
        rw [List.length_eq_zero_iff.mp (Nat.le_zero.mp hn)]
        rfl
      rw [TableStore.readConstraints, TableStore.readConstraints, h.isEmpty_eq, if_pos ht]
      exact .ok hcolumn
    | succ n =>
      rw [TableStore.readConstraints, TableStore.readConstraints, h.isEmpty_eq]
      split
      · exact .ok hcolumn
      · rcases rel_cases h.constraint? with ⟨hx, hy⟩ | ⟨⟨c, rest⟩, ⟨c', rest'⟩, hx, hy, hsame, hrest⟩
        · rw [hx, hy]
          exact .parse
        · rw [hx, hy]
          -- A constraint takes something of the text, so fewer steps are enough for the rest.
          have hshort := (constraint?_cuts hx).2.1
          have hshort' := (constraint?_cuts hy).2.1
          exact (applyConstraint hcolumn hsame).bind fun d d' hd =>
            ih hd (by omega) (by omega) hrest

theorem nameAndType? (h : SameShown s t) :
    Option.Rel (fun p p' => p.1 = p'.1 ∧ SameAfter p.2 p'.2) (TableStore.nameAndType? s)
      (TableStore.nameAndType? t) := by
  have hskip : ∀ {s t : List Cell}, SameShown s t →
      SameShown (skipLength s) (skipLength t) := by
    intro s t hst
    have hlength : Option.Rel (fun p p' => SameShown p.1 p'.1 ∧ SameShown p.2 p'.2)
        ((TableStore.mark? '(' (TableStore.skipBlanks s)).bind TableStore.untilClosing?)
        ((TableStore.mark? '(' (TableStore.skipBlanks t)).bind TableStore.untilClosing?) :=
      rel_bind (hst.skipBlanks.mark? (by decide) (by decide)) fun _ _ hrest => hrest.untilClosing?
    unfold skipLength
    exact rel_elim hlength hst fun _ _ hp => hp.2
  refine rel_bind h.word? ?_
  rintro ⟨name, s₁⟩ ⟨_, t₁⟩ ⟨rfl, h₁⟩
  refine rel_bind h₁.blanks? fun s₂ t₂ h₂ => ?_
  refine rel_bind h₂.1.word? ?_
  rintro ⟨typeName, s₃⟩ ⟨_, t₃⟩ ⟨rfl, h₃⟩
  exact .some ⟨rfl, rfl, hskip h₃⟩

theorem readColumn (h : SameShown s t) :
    AlikeBy (SameBut Column.withoutText) (TableStore.readColumn sql s)
      (TableStore.readColumn sql' t) := by
  unfold TableStore.readColumn
  refine rel_elim h.nameAndType? .parse ?_
  rintro ⟨name, typeName, rest⟩ ⟨_, _, rest'⟩ ⟨rfl, rfl, hrest⟩
  refine (readConstraints rfl (Nat.le_refl _) (Nat.le_refl _) hrest).bind fun c d hcd => .ok ?_
  unfold SameBut Column.withoutText at hcd ⊢
  rw [Column.mk.injEq] at hcd
  simp only [hcd.1, hcd.2.1, hcd.2.2.1, hcd.2.2.2.1, hcd.2.2.2.2]

theorem isKeyClause (h : SameShown s t) :
    TableStore.isKeyClause s = TableStore.isKeyClause t := by
  have hphrase := h.phrase? (show ["PRIMARY", "KEY"].all plainWord = true by decide)
  unfold TableStore.isKeyClause
  exact rel_elim hphrase rfl fun _ _ hrest => hrest.1.atWordEnd

theorem rel_atEnd? (h : SameShown s t) :
    Option.Rel (fun _ _ => True) (TableStore.atEnd? s) (TableStore.atEnd? t) := by
  rw [h.atEnd?]
  cases TableStore.atEnd? t with
  | none => exact .none
  | some _ => exact .some trivial

theorem keyColumn? (h : SameShown s t) :
    Option.Rel Eq (TableStore.keyColumn? s) (TableStore.keyColumn? t) := by
  refine rel_bind (h.phrase? (by decide)) fun s₁ t₁ h₁ => ?_
  refine rel_bind (h₁.1.skipBlanks.mark? (by decide) (by decide)) fun s₂ t₂ h₂ => ?_
  refine rel_bind h₂.skipBlanks.word? ?_
  rintro ⟨column, s₃⟩ ⟨_, t₃⟩ ⟨rfl, h₃⟩
  refine rel_bind (h₃.skipBlanks.mark? (by decide) (by decide)) fun s₄ t₄ h₄ => ?_
  exact rel_bind h₄.rel_atEnd? fun _ _ _ => .some rfl

theorem readDefinitions {clause : Option String} {ws ws' : List (List Cell)}
    (h : List.Forall₂ SameShown ws ws') :
    AlikeBy (SameBut (Prod.map (List.map Column.withoutText) id))
      (TableStore.readDefinitions sql clause ws) (TableStore.readDefinitions sql' clause ws') := by
  induction h generalizing clause with
  | nil => exact .ok rfl
  | @cons w w' ws ws' hw _ ih =>
    rw [TableStore.readDefinitions, TableStore.readDefinitions, hw.isEmpty_eq, hw.isKeyClause]
    split
    · exact .parse
    · split
      · refine rel_elim hw.keyColumn? .parse ?_
        rintro column _ rfl
        dsimp only
        split
        · exact .parse
        · exact ih
      · refine hw.readColumn.bind fun c d hcd => ih.bind ?_
        rintro ⟨cs, clause⟩ ⟨ds, clause'⟩ hrest
        have hparts := Prod.mk.inj hrest
        exact .ok (Prod.ext (congrArg₂ List.cons hcd hparts.1) hparts.2)

/-- What is settled about the primary key depends on names and marks only. -/
theorem settlePrimaryKey {columns columns' : List Column} {clause : Option String}
    (h : SameBut (List.map Column.withoutText) columns columns') :
    AlikeBy (SameBut (Prod.map (List.map Column.withoutText) id))
      (TableStore.settlePrimaryKey sql columns clause)
      (TableStore.settlePrimaryKey sql' columns' clause) := by
  unfold SameBut at h
  -- The texts of defaults are not looked at: names and marks are the same in both.
  have hnames : columns.map Column.name = columns'.map Column.name := by
    have hmap := congrArg (List.map Column.name) h
    rwa [List.map_map, List.map_map] at hmap
  have hmarked : (columns.filter Column.primaryKey).map Column.name
      = (columns'.filter Column.primaryKey).map Column.name := by
    have hmap := congrArg (fun cs => (cs.filter Column.primaryKey).map Column.name) h
    rwa [List.filter_map, List.filter_map, List.map_map, List.map_map] at hmap
  have hempty : columns.isEmpty = columns'.isEmpty := by
    have hmap := congrArg List.isEmpty h
    rwa [List.isEmpty_map, List.isEmpty_map] at hmap
  have hmark : ∀ name, SameBut (List.map Column.withoutText) (columns.map (markPrimaryKey name))
      (columns'.map (markPrimaryKey name)) := by
    intro name
    have hswap : Column.withoutText ∘ markPrimaryKey name
        = markPrimaryKey name ∘ Column.withoutText := by
      funext column
      unfold Function.comp markPrimaryKey Column.withoutText
      split <;> rfl
    unfold SameBut
    rw [List.map_map, List.map_map, hswap, ← List.map_map, h, List.map_map]
  have hok : ∀ {cs cs' : List Column} {primaryKey : Option String},
      SameBut (List.map Column.withoutText) cs cs' →
      AlikeBy (SameBut (Prod.map (List.map Column.withoutText) id)) (.ok (cs, primaryKey))
        (.ok (cs', primaryKey)) := fun hcs => .ok (Prod.ext hcs rfl)
  unfold TableStore.settlePrimaryKey
  dsimp only
  rw [hnames, hmarked, hempty]
  split
  · exact .parse
  · split
    · exact .parse
    · split
      · exact .parse
      · cases clause with
        | none => exact hok h
        | some column =>
          dsimp only
          split
          · exact .parse
          · split
            · split
              · exact hok (hmark column)
              · exact .parse
            · exact hok (hmark column)

theorem createTableParts? (h : SameShown s t) :
    Option.Rel (fun p p' => p.1 = p'.1 ∧ SameAfter p.2 p'.2) (TableStore.createTableParts? s)
      (TableStore.createTableParts? t) := by
  refine rel_bind (h.phrase? (by decide)) fun s₁ t₁ h₁ => ?_
  refine rel_bind h₁.1.blanks? fun s₂ t₂ h₂ => ?_
  have h₃ := h₂.1.option? (show ["IF", "NOT", "EXISTS"].all plainWord = true by decide)
  refine rel_bind h₃.2.word? ?_
  rintro ⟨table, s₄⟩ ⟨_, t₄⟩ ⟨rfl, h₄⟩
  refine rel_bind (h₄.skipBlanks.mark? (by decide) (by decide)) fun s₅ t₅ h₅ => ?_
  exact rel_bind h₅.enclosed? fun s₆ t₆ h₆ => .some ⟨h₃.1, rfl, h₆⟩

theorem readCreateTable (h : SameShown s t) :
    AlikeBy (SameBut Statement.withoutTexts) (TableStore.readCreateTable sql s)
      (TableStore.readCreateTable sql' t) := by
  unfold TableStore.readCreateTable
  refine rel_elim h.createTableParts? .parse ?_
  rintro ⟨mayExist, table, body⟩ ⟨_, _, body'⟩ ⟨rfl, rfl, hbody⟩
  refine hbody.splitAtCommas.bind fun ws ws' hws => ?_
  refine (readDefinitions hws).bind ?_
  rintro ⟨columns, clause⟩ ⟨columns', _⟩ hcolumns
  rcases Prod.mk.inj hcolumns with ⟨hread, rfl⟩
  refine (settlePrimaryKey hread).bind ?_
  rintro ⟨settled, primaryKey⟩ ⟨settled', _⟩ hsettled
  rcases Prod.mk.inj hsettled with ⟨hsame, rfl⟩
  exact .ok (congrArg (Statement.createTable table · primaryKey mayExist) hsame)

theorem dropTable? (h : SameShown s t) :
    Option.Rel Eq (TableStore.dropTable? s) (TableStore.dropTable? t) := by
  refine rel_bind (h.phrase? (by decide)) fun s₁ t₁ h₁ => ?_
  refine rel_bind h₁.1.blanks? fun s₂ t₂ h₂ => ?_
  have h₃ := h₂.1.option? (show ["IF", "EXISTS"].all plainWord = true by decide)
  refine rel_bind h₃.2.word? ?_
  rintro ⟨table, s₄⟩ ⟨_, t₄⟩ ⟨rfl, h₄⟩
  exact rel_bind h₄.rel_atEnd? fun _ _ _ => .some (congrArg (Statement.dropTable table) h₃.1)

theorem createIndex? (h : SameShown s t) :
    Option.Rel Eq (TableStore.createIndex? s) (TableStore.createIndex? t) := by
  refine rel_bind (h.phrase? (by decide)) fun s₁ t₁ h₁ => ?_
  refine rel_bind h₁.1.blanks? fun s₂ t₂ h₂ => ?_
  have h₃ := h₂.1.option? (show ["IF", "NOT", "EXISTS"].all plainWord = true by decide)
  refine rel_bind h₃.2.word? ?_
  rintro ⟨index, s₄⟩ ⟨_, t₄⟩ ⟨rfl, h₄⟩
  refine rel_bind (h₄.spacedPhrase? (by decide)) fun s₅ t₅ h₅ => ?_
  refine rel_bind h₅.1.word? ?_
  rintro ⟨table, s₆⟩ ⟨_, t₆⟩ ⟨rfl, h₆⟩
  refine rel_bind (h₆.skipBlanks.mark? (by decide) (by decide)) fun s₇ t₇ h₇ => ?_
  refine rel_bind h₇.skipBlanks.word? ?_
  rintro ⟨column, s₈⟩ ⟨_, t₈⟩ ⟨rfl, h₈⟩
  refine rel_bind (h₈.skipBlanks.mark? (by decide) (by decide)) fun s₉ t₉ h₉ => ?_
  exact rel_bind h₉.rel_atEnd? fun _ _ _ =>
    .some (congrArg (Statement.createIndex index table column) h₃.1)

theorem dropIndex? (h : SameShown s t) :
    Option.Rel Eq (TableStore.dropIndex? s) (TableStore.dropIndex? t) := by
  refine rel_bind (h.phrase? (by decide)) fun s₁ t₁ h₁ => ?_
  refine rel_bind h₁.1.blanks? fun s₂ t₂ h₂ => ?_
  have h₃ := h₂.1.option? (show ["IF", "EXISTS"].all plainWord = true by decide)
  refine rel_bind h₃.2.word? ?_
  rintro ⟨index, s₄⟩ ⟨_, t₄⟩ ⟨rfl, h₄⟩
  refine rel_bind (h₄.spacedPhrase? (by decide)) fun s₅ t₅ h₅ => ?_
  refine rel_bind h₅.1.word? ?_
  rintro ⟨table, s₆⟩ ⟨_, t₆⟩ ⟨rfl, h₆⟩
  exact rel_bind h₆.rel_atEnd? fun _ _ _ =>
    .some (congrArg (Statement.dropIndex index table) h₃.1)

theorem readWhole {kind : StatementKind} {x y : Option Statement} (h : Option.Rel Eq x y) :
    AlikeBy (SameBut Statement.withoutTexts) (TableStore.readWhole kind sql x)
      (TableStore.readWhole kind sql' y) := by
  cases h with
  | none => exact .parse
  | some hsame => exact .ok (congrArg Statement.withoutTexts hsame)

end Definitions

end SameShown

end TableStore
