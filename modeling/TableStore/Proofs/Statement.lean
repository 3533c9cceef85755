import TableStore.Proofs.Schema
import TableStore.Statement.Reader

/-!
# What a Statement Can Say

A statement is read from a text, and that limits what it can ask for. Every
value in it was denoted by a literal, so it is a scalar, and a table is only
declared with columns of different names. Both are what stored rows and
schemas rely on, and they hold for every text, because the reader refuses the
others.

## Main definitions

* `Statement.Plain`: What every statement that was read has.

## Theorems

* `Value.isDenoted_ofLiteral`: A literal denotes no bytes and no infinite number.
* `Statement.plain_of_ofText`: Every statement that is read is plain.
* `Statement.insert_of_ofText`: What an insertion that is read has besides.
-/

namespace TableStore

theorem Value.isDenoted_ofLiteral {s : List Char} {v : Value} (h : Value.ofLiteral s = .ok v) :
    v.IsDenoted := by
  simp only [Value.ofLiteral, Value.ofTrimmed] at h
  split at h
  · rw [← Except.ok.inj h]
    trivial
  · split at h
    · rw [← Except.ok.inj h]
      trivial
    · split at h
      · rw [← Except.ok.inj h]
        trivial
      · split at h
        · rw [← Except.ok.inj h]
          trivial
        · split at h
          · -- A number that is out of range is not read as one.
            rename_i d hfinite
            rw [← Except.ok.inj h]
            exact (Option.filter_eq_some_iff.mp hfinite).2
          · split at h
            · rcases exists_of_map_eq_ok h with ⟨n, -, rfl⟩
              trivial
            · rw [← Except.ok.inj h]
              trivial

theorem nodup_of_hasRepeats {names : List String} (h : hasRepeats names = false) :
    names.Nodup := by
  induction names with
  | nil => exact List.nodup_nil
  | cons name rest ih =>
    rw [hasRepeats, Bool.or_eq_false_iff] at h
    refine List.nodup_cons.mpr ⟨fun hmem => ?_, ih h.2⟩
    exact absurd (List.contains_iff_mem.mpr hmem) (by rw [h.1]; exact Bool.false_ne_true)

section Columns

variable {sql : String}

theorem applyConstraint_regular {column column' : Column} {constraint : Constraint}
    (hc : column.default.IsRegular) (h : applyConstraint column constraint = .ok column') :
    column'.default.IsRegular := by
  cases constraint with
  | default literal =>
    rcases exists_of_bind_eq_ok h with ⟨v, hv, h⟩
    rw [← Except.ok.inj h]
    exact (Value.isDenoted_ofLiteral hv).isRegular
  | _ =>
    rw [← Except.ok.inj h]
    exact hc

/-- What every constraint keeps of a column is kept by all that a text consists of. -/
theorem keeps_of_readConstraints {P : Column → Prop}
    (hstep : ∀ {column constraint column'}, applyConstraint column constraint = .ok column' →
      P column → P column')
    {definition : String} {steps : Nat} {column column' : Column} {s : List Cell}
    (hcolumn : P column) (h : readConstraints definition sql steps column s = .ok column') :
    P column' := by
  induction steps generalizing column s with
  | zero =>
    rw [← Except.ok.inj h]
    exact hcolumn
  | succ steps ih =>
    rw [readConstraints] at h
    split at h
    · rw [← Except.ok.inj h]
      exact hcolumn
    · split at h
      · exact absurd h (by simp)
      · rcases exists_of_bind_eq_ok h with ⟨next, hnext, h⟩
        exact ih (hstep hnext hcolumn) h

theorem readColumn_regular {definition : List Cell} {column : Column}
    (h : readColumn sql definition = .ok column) : column.default.IsRegular := by
  rw [readColumn] at h
  split at h
  · exact absurd h (by simp)
  · rcases exists_of_bind_eq_ok h with ⟨read, hread, h⟩
    -- Before its constraints are read a column has null as its default.
    have hdefault : read.default.IsRegular :=
      keeps_of_readConstraints (P := fun column => column.default.IsRegular)
        (fun happly hcolumn => applyConstraint_regular hcolumn happly)
        (show Value.IsRegular .null from ⟨trivial, rfl⟩) hread
    rw [← Except.ok.inj h]
    exact hdefault

/-- What every definition that is read has is had by all columns of a list of definitions. -/
theorem forall_of_readDefinitions {P : Column → Prop}
    (hread : ∀ {definition column}, readColumn sql definition = .ok column → P column)
    {definitions : List (List Cell)} {clause clause' : Option String} {columns : List Column}
    (h : readDefinitions sql clause definitions = .ok (columns, clause')) :
    ∀ column ∈ columns, P column := by
  induction definitions generalizing clause columns clause' with
  | nil =>
    rw [readDefinitions, Except.ok.injEq, Prod.mk.injEq] at h
    rw [← h.1]
    exact fun column hcolumn => absurd hcolumn List.not_mem_nil
  | cons definition rest ih =>
    rw [readDefinitions] at h
    split at h
    · exact absurd h (by simp)
    · split at h
      · -- A clause of the primary key is no column.
        split at h
        · exact absurd h (by simp)
        · split at h
          · exact absurd h (by simp)
          · exact ih h
      · rcases exists_of_bind_eq_ok h with ⟨column, hcolumn, h⟩
        rcases exists_of_bind_eq_ok h with ⟨⟨others, last⟩, hrest, h⟩
        rw [Except.ok.injEq, Prod.mk.injEq] at h
        rw [← h.1]
        exact List.forall_mem_cons.mpr ⟨hread hcolumn, ih hrest⟩

theorem markPrimaryKey_name (name : String) (column : Column) :
    (markPrimaryKey name column).name = column.name := by
  rw [markPrimaryKey]
  split <;> rfl

theorem markPrimaryKey_default (name : String) (column : Column) :
    (markPrimaryKey name column).default = column.default := by
  rw [markPrimaryKey]
  split <;> rfl

/-- What is settled about the primary key. Without a clause the columns stay as they are, and
    the one that is marked is the key. A clause names a column, and no other is marked. -/
theorem settlePrimaryKey_cases {columns columns' : List Column} {clause primaryKey : Option String}
    (h : settlePrimaryKey sql columns clause = .ok (columns', primaryKey)) :
    columns ≠ [] ∧ (columns.map Column.name).Nodup
      ∧ ((clause = none ∧ columns' = columns
          ∧ (columns.filter Column.primaryKey).map Column.name = primaryKey.toList)
        ∨ ∃ name, clause = some name ∧ name ∈ columns.map Column.name
          ∧ (∀ column ∈ columns, column.primaryKey = true → column.name = name)
          ∧ columns' = columns.map (markPrimaryKey name) ∧ primaryKey = some name) := by
  simp only [settlePrimaryKey] at h
  split at h
  · exact absurd h (by simp)
  rename_i hempty
  split at h
  · exact absurd h (by simp)
  rename_i hrepeats
  refine ⟨by simpa using hempty, nodup_of_hasRepeats (by simpa using hrepeats), ?_⟩
  split at h
  · exact absurd h (by simp)
  rename_i hfew
  -- There is at most one mark, so all of them are known from the first.
  have hmarks : (columns.filter Column.primaryKey).map Column.name
      = ((columns.filter Column.primaryKey).map Column.name).head?.toList := by
    generalize (columns.filter Column.primaryKey).map Column.name = marks at hfew
    rcases marks with _ | ⟨first, _ | ⟨second, rest⟩⟩
    · rfl
    · rfl
    · exact absurd (by simp) hfew
  split at h
  · rcases Prod.mk.inj (Except.ok.inj h) with ⟨rfl, rfl⟩
    exact Or.inl ⟨rfl, rfl, hmarks⟩
  rename_i name
  split at h
  · exact absurd h (by simp)
  rename_i hcontains
  have hmem : name ∈ columns.map Column.name := by simpa using hcontains
  have hnamed : ∀ column ∈ columns, column.primaryKey = true →
      ((columns.filter Column.primaryKey).map Column.name).head? = some column.name := by
    intro column hcolumn hprimary
    rw [← Option.mem_toList, ← hmarks]
    exact List.mem_map_of_mem (List.mem_filter.mpr ⟨hcolumn, hprimary⟩)
  split at h
  · rename_i other hother
    rw [hother] at hnamed
    split at h
    · rename_i hsame
      rcases Prod.mk.inj (Except.ok.inj h) with ⟨rfl, rfl⟩
      exact Or.inr ⟨name, rfl, hmem, fun column hcolumn hprimary =>
        (Option.some.inj (hnamed column hcolumn hprimary)).symm.trans hsame, rfl, rfl⟩
    · exact absurd h (by simp)
  · rename_i hnone
    rw [hnone] at hnamed
    rcases Prod.mk.inj (Except.ok.inj h) with ⟨rfl, rfl⟩
    exact Or.inr ⟨name, rfl, hmem, fun column hcolumn hprimary =>
      absurd (hnamed column hcolumn hprimary) (by simp), rfl, rfl⟩

/-- Marking the primary key leaves names and defaults as they are. -/
theorem settlePrimaryKey_columns {columns columns' : List Column} {clause primaryKey : Option String}
    (h : settlePrimaryKey sql columns clause = .ok (columns', primaryKey)) :
    (columns.map Column.name).Nodup ∧ (columns' = columns
      ∨ ∃ name, columns' = columns.map (markPrimaryKey name)) := by
  rcases settlePrimaryKey_cases h with ⟨-, hnodup, ⟨-, hsame, -⟩ | ⟨name, -, -, -, hsame, -⟩⟩
  · exact ⟨hnodup, Or.inl hsame⟩
  · exact ⟨hnodup, Or.inr ⟨name, hsame⟩⟩

/-- The primary key is one of the columns. -/
theorem settlePrimaryKey_mem {columns columns' : List Column} {clause primaryKey : Option String}
    (h : settlePrimaryKey sql columns clause = .ok (columns', primaryKey)) {name : String}
    (hname : primaryKey = some name) : name ∈ columns.map Column.name := by
  subst hname
  rcases settlePrimaryKey_cases h with ⟨-, -, ⟨-, -, hmarked⟩ | ⟨key, -, hmem, -, -, hkey⟩⟩
  · have hmem : name ∈ (columns.filter Column.primaryKey).map Column.name := by
      rw [hmarked]
      exact List.mem_singleton_self name
    exact List.map_subset Column.name List.filter_sublist.subset hmem
  · rw [Option.some.inj hkey]
    exact hmem

theorem settlePrimaryKey_wellFormed {columns columns' : List Column}
    {clause primaryKey : Option String} (hregular : ∀ column ∈ columns, column.default.IsRegular)
    (h : settlePrimaryKey sql columns clause = .ok (columns', primaryKey)) (table : String) :
    (TableSchema.mk table columns' primaryKey).WellFormed := by
  rcases settlePrimaryKey_columns h with ⟨hnodup, rfl | ⟨name, rfl⟩⟩
  · exact ⟨hnodup, hregular, fun _ => settlePrimaryKey_mem h⟩
  · -- The mark of the key changes neither names nor defaults.
    have hnames : (columns.map (markPrimaryKey name)).map Column.name = columns.map Column.name := by
      rw [List.map_map]
      exact List.map_congr_left fun column _ => markPrimaryKey_name name column
    constructor
    · rw [TableSchema.names, hnames]
      exact hnodup
    · intro column hcolumn
      rcases List.mem_map.mp hcolumn with ⟨c, hc, rfl⟩
      rw [markPrimaryKey_default]
      exact hregular c hc
    · intro key hkey
      rw [TableSchema.names, hnames]
      exact settlePrimaryKey_mem h hkey

end Columns

namespace Statement

/-- What every statement that was read has: literals denote the values in it, and
    a declared table is well formed. -/
def Plain : Statement → Prop
  | createTable table columns primaryKey _ => (TableSchema.mk table columns primaryKey).WellFormed
  | insert _ _ values => ∀ v ∈ values, v.IsDenoted
  | update _ assignments _ => ∀ a ∈ assignments, a.value.IsDenoted
  | _ => True

/-- A plain statement of a kind. -/
structure PlainAs (statement : Statement) (kind : StatementKind) : Prop where
  kind_eq : statement.kind = kind
  plain : statement.Plain

theorem plain_of_readWhole {kind : StatementKind} {sql : String} {found : Option Statement}
    {statement : Statement} (hfound : ∀ s, found = some s → s.PlainAs kind)
    (h : readWhole kind sql found = .ok statement) : statement.PlainAs kind := by
  unfold readWhole at h
  split at h
  · rename_i s
    rw [← Except.ok.inj h]
    exact hfound s rfl
  · exact absurd h (by simp)

theorem plain_of_readCreateTable {sql : String} {s : List Cell} {statement : Statement}
    (h : readCreateTable sql s = .ok statement) : statement.PlainAs .createTable := by
  rw [readCreateTable] at h
  split at h
  · exact absurd h (by simp)
  · rcases exists_of_bind_eq_ok h with ⟨definitions, -, h⟩
    rcases exists_of_bind_eq_ok h with ⟨⟨columns, clause⟩, hcolumns, h⟩
    rcases exists_of_bind_eq_ok h with ⟨⟨settled, primaryKey⟩, hsettled, h⟩
    rw [← Except.ok.inj h]
    exact ⟨rfl, settlePrimaryKey_wellFormed (forall_of_readDefinitions readColumn_regular hcolumns)
      hsettled _⟩

theorem denoted_of_readValues {list : List Cell} {values : List Value}
    (h : readValues list = .ok values) : ∀ v ∈ values, v.IsDenoted := by
  rw [readValues] at h
  split at h
  · exact absurd h (by simp)
  · rcases exists_of_bind_eq_ok h with ⟨pieces, -, h⟩
    split at h
    · exact absurd h (by simp)
    · have hall := forall₂_of_mapM_eq_ok h
      intro v hv
      rcases exists_of_forall₂ hall.flip hv with ⟨piece, -, hpiece⟩
      exact Value.isDenoted_ofLiteral hpiece

theorem nodup_of_readInsertColumns {sql : String} {list : Option (List Cell)}
    {columns : Option (List String)} (h : readInsertColumns sql list = .ok columns) :
    ∀ names, columns = some names → names.Nodup := by
  rintro names rfl
  cases list with
  | none => exact absurd (Except.ok.inj h) (by simp)
  | some list =>
    rcases exists_of_bind_eq_ok h with ⟨read, -, h⟩
    split at h
    · exact absurd h (by simp)
    · rename_i hrepeats
      rw [← Option.some.inj (Except.ok.inj h)]
      exact nodup_of_hasRepeats (by simpa using hrepeats)

/-- The parts of an insertion that was read. -/
theorem exists_of_readInsert {sql : String} {s : List Cell} {statement : Statement}
    (h : readInsert sql s = .ok statement) :
    ∃ table columns values, statement = .insert table columns values
      ∧ (∀ names, columns = some names → names.Nodup) ∧ ∀ v ∈ values, v.IsDenoted := by
  rw [readInsert] at h
  split at h
  · exact absurd h (by simp)
  · rcases exists_of_bind_eq_ok h with ⟨columns, hcolumns, h⟩
    rcases exists_of_bind_eq_ok h with ⟨values, hvalues, h⟩
    exact ⟨_, columns, values, (Except.ok.inj h).symm, nodup_of_readInsertColumns hcolumns,
      denoted_of_readValues hvalues⟩

theorem plain_of_readInsert {sql : String} {s : List Cell} {statement : Statement}
    (h : readInsert sql s = .ok statement) : statement.PlainAs .insert := by
  rcases exists_of_readInsert h with ⟨_, _, values, rfl, -, hvalues⟩
  exact ⟨rfl, hvalues⟩

theorem plain_of_readSelect {sql : String} {s : List Cell} {statement : Statement}
    (h : readSelect sql s = .ok statement) : statement.PlainAs .select := by
  rw [readSelect] at h
  split at h
  · exact absurd h (by simp)
  · rcases exists_of_bind_eq_ok h with ⟨_, -, h⟩
    rcases exists_of_bind_eq_ok h with ⟨_, -, h⟩
    rcases exists_of_bind_eq_ok h with ⟨_, -, h⟩
    rcases exists_of_bind_eq_ok h with ⟨_, -, h⟩
    rcases exists_of_bind_eq_ok h with ⟨_, -, h⟩
    rw [← Except.ok.inj h]
    exact ⟨rfl, trivial⟩

theorem denoted_of_readExpression {sql column : String} {expression : List Cell}
    {assignment : Assignment} (h : readExpression sql column expression = .ok assignment) :
    assignment.value.IsDenoted := by
  rw [readExpression] at h
  split at h
  · split at h
    · rcases exists_of_bind_eq_ok h with ⟨v, hv, h⟩
      rw [← Except.ok.inj h]
      exact Value.isDenoted_ofLiteral hv
    · exact absurd h (by simp)
  · rcases exists_of_bind_eq_ok h with ⟨v, hv, h⟩
    rw [← Except.ok.inj h]
    exact Value.isDenoted_ofLiteral hv

/-- Each assignment of a list is read from one of its pieces. -/
theorem forall₂_of_readAssignments {sql : String} {pieces : List (List Cell)} {seen : List String}
    {assignments : List Assignment} (h : readAssignments sql seen pieces = .ok assignments) :
    List.Forall₂ (fun piece assignment => ∃ column expression,
      assignmentParts? piece = some (column, expression)
        ∧ readExpression sql column (trimCells expression) = .ok assignment)
      pieces assignments := by
  induction pieces generalizing seen assignments with
  | nil =>
    rw [← Except.ok.inj h]
    exact .nil
  | cons piece rest ih =>
    rw [readAssignments] at h
    split at h
    · exact absurd h (by simp)
    · rename_i column expression hparts
      split at h
      · exact absurd h (by simp)
      · rcases exists_of_bind_eq_ok h with ⟨first, hfirst, h⟩
        rcases exists_of_bind_eq_ok h with ⟨others, hothers, h⟩
        rw [← Except.ok.inj h]
        exact .cons ⟨column, expression, hparts, hfirst⟩ (ih hothers)

theorem denoted_of_readAssignments {sql : String} {pieces : List (List Cell)} {seen : List String}
    {assignments : List Assignment} (h : readAssignments sql seen pieces = .ok assignments) :
    ∀ a ∈ assignments, a.value.IsDenoted := by
  have hread := forall₂_of_readAssignments h
  clear h
  induction hread with
  | nil => exact fun a ha => absurd ha List.not_mem_nil
  | cons hread _ ih =>
    rcases hread with ⟨column, expression, -, hfirst⟩
    exact List.forall_mem_cons.mpr ⟨denoted_of_readExpression hfirst, ih⟩

theorem plain_of_readUpdate {sql : String} {s : List Cell} {statement : Statement}
    (h : readUpdate sql s = .ok statement) : statement.PlainAs .update := by
  rw [readUpdate] at h
  split at h
  · exact absurd h (by simp)
  · rcases exists_of_bind_eq_ok h with ⟨_, -, h⟩
    rcases exists_of_bind_eq_ok h with ⟨assignments, hassignments, h⟩
    rcases exists_of_bind_eq_ok h with ⟨_, -, h⟩
    rw [← Except.ok.inj h]
    exact ⟨rfl, denoted_of_readAssignments hassignments⟩

theorem plain_of_readDelete {sql : String} {s : List Cell} {statement : Statement}
    (h : readDelete sql s = .ok statement) : statement.PlainAs .delete := by
  rw [readDelete] at h
  split at h
  · exact absurd h (by simp)
  · rcases exists_of_bind_eq_ok h with ⟨_, -, h⟩
    rw [← Except.ok.inj h]
    exact ⟨rfl, trivial⟩

theorem plain_of_dropTable? {s : List Cell} {statement : Statement}
    (h : dropTable? s = some statement) : statement.PlainAs .dropTable := by
  simp only [dropTable?, Option.bind_eq_bind, Option.bind_eq_some_iff] at h
  rcases h with ⟨_, -, _, -, _, -, _, -, h⟩
  rw [← Option.some.inj h]
  exact ⟨rfl, trivial⟩

theorem plain_of_createIndex? {s : List Cell} {statement : Statement}
    (h : createIndex? s = some statement) : statement.PlainAs .createIndex := by
  simp only [createIndex?, Option.bind_eq_bind, Option.bind_eq_some_iff] at h
  rcases h with ⟨_, -, _, -, _, -, _, -, _, -, _, -, _, -, _, -, _, -, h⟩
  rw [← Option.some.inj h]
  exact ⟨rfl, trivial⟩

theorem plain_of_dropIndex? {s : List Cell} {statement : Statement}
    (h : dropIndex? s = some statement) : statement.PlainAs .dropIndex := by
  simp only [dropIndex?, Option.bind_eq_bind, Option.bind_eq_some_iff] at h
  rcases h with ⟨_, -, _, -, _, -, _, -, _, -, _, -, h⟩
  rw [← Option.some.inj h]
  exact ⟨rfl, trivial⟩

theorem plain_of_readAs {kind : StatementKind} {sql : String} {s : List Cell}
    {statement : Statement} (h : readAs kind sql s = .ok statement) : statement.PlainAs kind := by
  cases kind with
  | createTable => exact plain_of_readCreateTable h
  | dropTable => exact plain_of_readWhole (fun _ => plain_of_dropTable?) h
  | createIndex => exact plain_of_readWhole (fun _ => plain_of_createIndex?) h
  | dropIndex => exact plain_of_readWhole (fun _ => plain_of_dropIndex?) h
  | insert => exact plain_of_readInsert h
  | select => exact plain_of_readSelect h
  | update => exact plain_of_readUpdate h
  | delete => exact plain_of_readDelete h

/-- A statement that is read was marked, and then read as one of some kind. -/
theorem exists_marked {sql : Option String} {statement : Statement}
    (h : ofText sql = .ok statement) :
    ∃ text chars cells kind, sql = some text ∧ chars = dropSemicolon (Text.trimBlanks text.toList)
      ∧ hideLiterals chars = some cells
      ∧ readAs kind (String.ofList chars) cells = .ok statement := by
  unfold ofText at h
  split at h
  · exact absurd h (by simp)
  · dsimp only at h
    split at h
    · exact absurd h (by simp)
    · split at h
      · exact absurd h (by simp)
      · simp only [ofChars] at h
        split at h
        · exact absurd h (by simp)
        · rename_i cells hcells
          split at h
          · exact absurd h (by simp)
          · exact ⟨_, _, cells, _, rfl, rfl, hcells, h⟩

/-- A statement that is read was read as one of some kind. -/
theorem exists_readAs {sql : Option String} {statement : Statement}
    (h : ofText sql = .ok statement) : ∃ kind text s, readAs kind text s = .ok statement := by
  rcases exists_marked h with ⟨_, _, cells, kind, -, -, -, hread⟩
  exact ⟨kind, _, cells, hread⟩

/-- Every statement that is read is plain. -/
theorem plain_of_ofText {sql : Option String} {statement : Statement}
    (h : ofText sql = .ok statement) : statement.Plain := by
  rcases exists_readAs h with ⟨kind, text, s, hread⟩
  exact (plain_of_readAs hread).plain

/-- The columns of an insertion that is read are different, and its values are
    what literals denote. -/
theorem insert_of_ofText {sql : Option String} {table : String} {columns : Option (List String)}
    {values : List Value} (h : ofText sql = .ok (.insert table columns values)) :
    (∀ names, columns = some names → names.Nodup) ∧ ∀ v ∈ values, v.IsDenoted := by
  rcases exists_readAs h with ⟨kind, text, s, hread⟩
  have hkind : StatementKind.insert = kind := (plain_of_readAs hread).kind_eq
  subst hkind
  rcases exists_of_readInsert hread with ⟨_, _, _, hsame, hnodup, hdenoted⟩
  rw [Statement.insert.injEq] at hsame
  rcases hsame with ⟨-, rfl, rfl⟩
  exact ⟨hnodup, hdenoted⟩

end Statement

end TableStore
