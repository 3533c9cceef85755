import TableStore.Proofs.Except
import TableStore.Proofs.Statement.Items
import TableStore.Statement.Definition

/-!
# Printed Columns

The definition of a column is read back from its text: a name, a type, and
constraints that are applied one after another. A default ends at the next
blank outside of literals, so the blanks of a literal are no end of it.

A column does not say of itself what a clause of the primary key says of it.
`Column.declared` is what its own definition says.

## Main definitions

* `Constraint.IsPrinted`: A constraint as it is printed.
* `Column.declared`: What the definition of a column says.

## Theorems

* `constraint?_cells`, `readConstraints_cells`: Constraints are read back.
* `readColumn_cells`: So is a column, as far as its definition goes.
* `Column.item_cells`: A column is an item.
-/

namespace TableStore

/-- A constraint as it is printed: a default is the literal of a value. -/
def Constraint.IsPrinted (constraint : Constraint) : Prop :=
  ∀ literal, constraint = .default literal → ∃ v : Value, v.isLiteral = true ∧ literal = v.cells

/-- What the definition of a column says, if the primary key may be declared in
    a clause of its own. -/
def Column.declared (style : Style) (column : Column) : Column :=
  { column with
    primaryKey := column.primaryKey && !style.keyClause
    nullable :=
      if column.primaryKey then style.keyClause && !style.writesNotNull else column.nullable }

section Constraints

variable {constraint : Constraint} {constraints : List Constraint} {rest : List Cell}

theorem constraintPhrase?_found {words : List String} {s : List Cell}
    (h : phrase? words s = some rest) (hr : Text.atBlank Cell.isBlank rest = true) :
    constraintPhrase? words constraint s = some (constraint, rest) := by
  unfold constraintPhrase?
  rw [h]
  cases rest with
  | nil => rfl
  | cons c rest => exact if_pos hr

theorem constraintPhrase?_missing {words : List String} {s : List Cell}
    (h : phrase? words s = none) : constraintPhrase? words constraint s = none := by
  unfold constraintPhrase?
  rw [h]
  rfl

/-- A default ends where its literal does. -/
theorem default?_cells {v : Value} (hv : v.isLiteral = true)
    (hr : Text.atBlank Cell.isBlank rest = true) :
    default? (plain "DEFAULT " ++ (v.cells ++ rest)) = some (.default v.cells, rest) := by
  have hsolid := Value.solid_cells hv
  have hblank : blanks? (plain " " ++ (v.cells ++ rest)) = some (v.cells ++ rest) :=
    blanks?_of_text (by rfl) (Text.atBlank_append hsolid.atBlank rest)
  have hcells : ∀ c ∈ v.cells, (!c.isBlank) = true := by
    intro c hc
    rw [hsolid.isBlank c hc]
    rfl
  have hstop : rest.takeWhile (fun c => !c.isBlank) = []
      ∧ rest.dropWhile (fun c => !c.isBlank) = rest := by
    cases rest with
    | nil => exact ⟨rfl, rfl⟩
    | cons c rest =>
      have hc : c.isBlank = true := hr
      exact ⟨List.takeWhile_cons_of_neg (by simp [hc]), List.dropWhile_cons_of_neg (by simp [hc])⟩
  have huntil : untilBlank (v.cells ++ rest) = (v.cells, rest) := by
    unfold untilBlank
    rw [List.takeWhile_append_of_pos hcells, List.dropWhile_append_of_pos hcells, hstop.1,
      hstop.2, List.append_nil]
  have hkeyword : keyword? "DEFAULT" (plain "DEFAULT " ++ (v.cells ++ rest))
      = some (plain " " ++ (v.cells ++ rest)) := rfl
  unfold default?
  simp only [hkeyword, hblank, huntil, Option.bind_eq_bind, Option.bind_some]
  exact if_neg (by simpa using hsolid.ne_nil)

/-- A constraint is read up to the next one. -/
theorem constraint?_cells (h : constraint.IsPrinted)
    (hr : Text.atBlank Cell.isBlank rest = true) :
    constraint? (constraint.cells ++ rest) = some (constraint, rest) := by
  cases constraint with
  | primaryKey =>
    have hblank : blanks? (Constraint.primaryKey.cells ++ rest)
        = some (plain "PRIMARY KEY" ++ rest) := rfl
    have hkey : phrase? ["PRIMARY", "KEY"] (plain "PRIMARY KEY" ++ rest) = some rest := rfl
    unfold constraint?
    simp only [hblank, Option.bind_eq_bind, Option.bind_some, constraintPhrase?_found hkey hr]
    rfl
  | notNull =>
    have hblank : blanks? (Constraint.notNull.cells ++ rest)
        = some (plain "NOT NULL" ++ rest) := rfl
    have hkey : phrase? ["PRIMARY", "KEY"] (plain "NOT NULL" ++ rest) = none := rfl
    have hnull : phrase? ["NOT", "NULL"] (plain "NOT NULL" ++ rest) = some rest := rfl
    unfold constraint?
    simp only [hblank, Option.bind_eq_bind, Option.bind_some, constraintPhrase?_missing hkey,
      constraintPhrase?_found hnull hr]
    rfl
  | null =>
    have hblank : blanks? (Constraint.null.cells ++ rest) = some (plain "NULL" ++ rest) := rfl
    have hkey : phrase? ["PRIMARY", "KEY"] (plain "NULL" ++ rest) = none := rfl
    have hnot : phrase? ["NOT", "NULL"] (plain "NULL" ++ rest) = none := rfl
    have hnull : phrase? ["NULL"] (plain "NULL" ++ rest) = some rest := rfl
    unfold constraint?
    simp only [hblank, Option.bind_eq_bind, Option.bind_some, constraintPhrase?_missing hkey,
      constraintPhrase?_missing hnot, constraintPhrase?_found hnull hr]
    rfl
  | default literal =>
    rcases h literal rfl with ⟨v, hv, rfl⟩
    have hblank : blanks? (Constraint.cells (.default v.cells) ++ rest)
        = some (plain "DEFAULT " ++ (v.cells ++ rest)) := by
      rw [Constraint.cells, List.append_assoc]
      rfl
    have hkey : phrase? ["PRIMARY", "KEY"] (plain "DEFAULT " ++ (v.cells ++ rest)) = none := rfl
    have hnot : phrase? ["NOT", "NULL"] (plain "DEFAULT " ++ (v.cells ++ rest)) = none := rfl
    have hnull : phrase? ["NULL"] (plain "DEFAULT " ++ (v.cells ++ rest)) = none := rfl
    unfold constraint?
    simp only [hblank, Option.bind_eq_bind, Option.bind_some, constraintPhrase?_missing hkey,
      constraintPhrase?_missing hnot, constraintPhrase?_missing hnull, default?_cells hv hr]
    rfl

/-- Constraints follow a blank each. -/
theorem atBlank_constraints (constraints : List Constraint) :
    Text.atBlank Cell.isBlank (constraints.flatMap Constraint.cells) = true := by
  rcases constraints with _ | ⟨constraint, constraints⟩
  · rfl
  · cases constraint <;> rfl

theorem atDelimiter_constraints (constraints : List Constraint) :
    atDelimiter (constraints.flatMap Constraint.cells) = true := by
  rcases constraints with _ | ⟨constraint, constraints⟩
  · rfl
  · cases constraint <;> rfl

/-- No constraint looks like the length of a type. -/
theorem skipLength_constraints (constraints : List Constraint) :
    skipLength (constraints.flatMap Constraint.cells) = constraints.flatMap Constraint.cells := by
  have hmark : mark? '(' (skipBlanks (constraints.flatMap Constraint.cells)) = none := by
    rcases constraints with _ | ⟨constraint, constraints⟩
    · rfl
    · cases constraint <;> rfl
  unfold skipLength
  rw [hmark]
  rfl

theorem Constraint.length_cells_pos (constraint : Constraint) : 0 < constraint.cells.length := by
  cases constraint <;> simp [Constraint.cells, plain]

/-- Constraints are applied in the order in which they were printed. -/
theorem readConstraints_cells (definition sql : String) (h : ∀ c ∈ constraints, c.IsPrinted)
    {steps : Nat} (hsteps : (constraints.flatMap Constraint.cells).length ≤ steps)
    (column : Column) :
    readConstraints definition sql steps column (constraints.flatMap Constraint.cells)
      = constraints.foldlM applyConstraint column := by
  induction constraints generalizing steps column with
  | nil => cases steps <;> rfl
  | cons constraint constraints ih =>
    have hpos := constraint.length_cells_pos
    rw [List.flatMap_cons, List.length_append] at hsteps
    -- Each constraint has a text, so there is a step for it.
    obtain ⟨n, rfl⟩ : ∃ n, steps = n + 1 := ⟨steps - 1, by omega⟩
    have hempty : (constraint.cells ++ constraints.flatMap Constraint.cells).isEmpty = false := by
      rw [List.isEmpty_eq_false_iff, List.ne_nil_iff_length_pos, List.length_append]
      omega
    rw [List.flatMap_cons, readConstraints, hempty, if_neg Bool.false_ne_true,
      constraint?_cells (h constraint List.mem_cons_self) (atBlank_constraints constraints),
      List.foldlM_cons]
    exact congrArg (applyConstraint column constraint >>= ·)
      (funext fun column =>
        ih (fun c hc => h c (List.mem_cons_of_mem constraint hc)) (by omega) column)

end Constraints

section Columns

variable {style : Style} {column : Column}

theorem column_cells (style : Style) (column : Column) :
    column.cells style = plain column.name ++ (plain " " ++ (plain column.typeName
      ++ (column.constraints style).flatMap Constraint.cells)) := by
  simp only [Column.cells, plain_append, List.append_assoc]

theorem isPrinted_constraints (hcolumn : column.isPrintable = true) :
    ∀ constraint ∈ column.constraints style, constraint.IsPrinted := by
  simp only [Column.isPrintable, Bool.and_eq_true] at hcolumn
  rintro constraint hmem literal rfl
  refine ⟨column.default, hcolumn.1.2, ?_⟩
  unfold Column.constraints at hmem
  simp only [List.mem_append, List.mem_ite_nil_right, List.mem_singleton, reduceCtorEq, and_false,
    false_or, Constraint.default.injEq] at hmem
  exact hmem.2

/-- A default that is not written is null. -/
theorem foldlM_default (hliteral : column.default.isLiteral = true) {c : Column}
    (hc : c.default = .null) :
    (if !column.default.isNull || style.writesNull column.name then
        [Constraint.default column.default.cells]
      else []).foldlM applyConstraint c
      = .ok { c with default := column.default } := by
  split
  · rw [List.foldlM_cons, applyConstraint, Value.ofLiteral_cells hliteral]
    rfl
  · rename_i hwritten
    have hnull : column.default = .null := by
      cases hdefault : column.default <;> simp_all [Value.isNull]
    rw [hnull, ← hc]
    rfl

/-- The constraints of a column give what its definition says. -/
theorem foldlM_constraints (hcolumn : column.isPrintable = true) :
    ((column.constraints style).foldlM applyConstraint
        { name := column.name, typeName := column.typeName }).map
        (fun c => { c with nullable := c.nullable && !c.primaryKey })
      = .ok (column.declared style) := by
  simp only [Column.isPrintable, Bool.and_eq_true, Bool.not_eq_true'] at hcolumn
  have hmarks : ((if column.primaryKey && !style.keyClause then [Constraint.primaryKey] else [])
      ++ (if !column.nullable && (!column.primaryKey || style.writesNotNull) then
          [Constraint.notNull]
        else [])).foldlM applyConstraint { name := column.name, typeName := column.typeName }
      = .ok { name := column.name, typeName := column.typeName,
              primaryKey := column.primaryKey && !style.keyClause,
              nullable := !(!column.nullable && (!column.primaryKey || style.writesNotNull)) } := by
    cases column.primaryKey && !style.keyClause <;>
      cases !column.nullable && (!column.primaryKey || style.writesNotNull) <;> rfl
  -- A primary key that is not said to have no nulls has none by itself.
  have hnullable : (!(!column.nullable && (!column.primaryKey || style.writesNotNull))
      && !(column.primaryKey && !style.keyClause))
      = if column.primaryKey then style.keyClause && !style.writesNotNull else column.nullable := by
    have hkey := hcolumn.2
    revert hkey
    cases column.primaryKey <;> cases column.nullable <;> cases style.keyClause <;>
      cases style.writesNotNull <;> decide
  unfold Column.constraints
  rw [List.foldlM_append, hmarks, ok_bind, foldlM_default hcolumn.1.2 rfl, ok_map, hnullable]
  rfl

/-- A column is read back, as far as its definition goes. -/
theorem readColumn_cells (sql : String) (hcolumn : column.isPrintable = true) :
    readColumn sql (column.cells style) = .ok (column.declared style) := by
  have hprinted := @isPrinted_constraints style column hcolumn
  have hfold := @foldlM_constraints style column hcolumn
  simp only [Column.isPrintable, Bool.and_eq_true, beq_iff_eq] at hcolumn
  have hname := isWord_of_isPlainName hcolumn.1.1.1.1
  have htype := isWord_of_isPlainName hcolumn.1.1.1.2
  have hparts : nameAndType? (column.cells style) = some (column.name, column.typeName,
      (column.constraints style).flatMap Constraint.cells) := by
    have hblank : ∀ s, blanks? (plain " " ++ (plain column.typeName ++ s))
        = some (plain column.typeName ++ s) :=
      fun s => blanks?_of_text (by rfl) (atBlank_plain htype)
    have hfirst : ∀ s, word? (plain column.name ++ (plain " " ++ s))
        = some (column.name, plain " " ++ s) :=
      fun s => word?_plain hname (by rfl)
    unfold nameAndType?
    rw [column_cells]
    simp only [Option.bind_eq_bind, Option.bind_some, hfirst, hblank,
      word?_plain htype (atDelimiter_constraints _), skipLength_constraints]
  unfold readColumn
  rw [hparts]
  dsimp only
  rw [hcolumn.1.1.2, readConstraints_cells _ _ hprinted le_rfl, ← hfold]
  rfl

/-- A constraint follows a blank. -/
theorem Constraint.item_cells {constraint : Constraint} (h : constraint.IsPrinted) :
    ∃ u, constraint.cells = plain " " ++ u ∧ Item [] u ∧ ∀ c ∈ u, c.separates = false := by
  cases constraint with
  | primaryKey =>
    exact ⟨plain "PRIMARY" ++ (plain " " ++ plain "KEY"), rfl,
      (item_of_isWord "PRIMARY" (by decide)).words (item_of_isWord "KEY" (by decide)), by decide⟩
  | notNull =>
    exact ⟨plain "NOT" ++ (plain " " ++ plain "NULL"), rfl,
      (item_of_isWord "NOT" (by decide)).words (item_of_isWord "NULL" (by decide)), by decide⟩
  | null => exact ⟨plain "NULL", rfl, item_of_isWord "NULL" (by decide), by decide⟩
  | default literal =>
    rcases h literal rfl with ⟨v, hv, rfl⟩
    refine ⟨plain "DEFAULT" ++ (plain " " ++ v.cells), rfl,
      (item_of_isWord "DEFAULT" (by decide)).words (item_value (by simp) hv), ?_⟩
    intro c hc
    rw [← List.append_assoc, List.mem_append] at hc
    rcases hc with hc | hc
    · exact (show ∀ c ∈ plain "DEFAULT" ++ plain " ", c.separates = false by decide) c hc
    · exact (Value.solid_cells hv).separates c hc

/-- Constraints after an item belong to it. -/
theorem Item.constraints {u : List Cell} (hu : Item [] u) {constraints : List Constraint}
    (h : ∀ c ∈ constraints, c.IsPrinted) :
    Item [] (u ++ constraints.flatMap Constraint.cells) := by
  induction constraints generalizing u with
  | nil =>
    rw [List.flatMap_nil, List.append_nil]
    exact hu
  | cons constraint constraints ih =>
    rcases Constraint.item_cells (h constraint List.mem_cons_self) with ⟨v, hcells, hv, -⟩
    rw [List.flatMap_cons, ← List.append_assoc, hcells]
    exact ih (hu.words hv) fun c hc => h c (List.mem_cons_of_mem constraint hc)

theorem Column.item_cells (hcolumn : column.isPrintable = true) :
    Item [] (column.cells style) := by
  have hprinted := @isPrinted_constraints style column hcolumn
  simp only [Column.isPrintable, Bool.and_eq_true] at hcolumn
  have hname : Item [] (plain column.name) := item_name (by simp) hcolumn.1.1.1.1
  have hitem := (hname.words (item_name (by simp) hcolumn.1.1.1.2)).constraints hprinted
  rw [column_cells]
  simp only [List.append_assoc] at hitem
  exact hitem

/-- A column is one piece of a list of definitions. -/
theorem Column.not_separates_cells (hcolumn : column.isPrintable = true) :
    ∀ c ∈ column.cells style, c.separates = false := by
  have hprinted := @isPrinted_constraints style column hcolumn
  simp only [Column.isPrintable, Bool.and_eq_true] at hcolumn
  intro c hc
  rw [column_cells] at hc
  simp only [List.mem_append, List.mem_flatMap] at hc
  rcases hc with hc | hc | hc | ⟨constraint, hconstraint, hc⟩
  · exact (solid_plain (isWord_of_isPlainName hcolumn.1.1.1.1)).separates c hc
  · exact (show ∀ c ∈ plain " ", c.separates = false by decide) c hc
  · exact (solid_plain (isWord_of_isPlainName hcolumn.1.1.1.2)).separates c hc
  · rcases Constraint.item_cells (hprinted constraint hconstraint) with ⟨u, hcells, -, hu⟩
    rw [hcells, List.mem_append] at hc
    rcases hc with hc | hc
    · exact (show ∀ c ∈ plain " ", c.separates = false by decide) c hc
    · exact hu c hc

end Columns

end TableStore
