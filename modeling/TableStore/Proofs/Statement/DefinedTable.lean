import TableStore.Proofs.Statement

/-!
# Tables Are Defined Completely

What a table definition says about its primary key it says in two places, at a
column and in a clause of its own, in any order, with NULL and NOT NULL in
between. Everything after the reader trusts that the two agree: that the name of
the key and the marks of the columns tell the same, and that a key is not null.

The constraints of one column are read in a loop that changes its marks and its
default only. Its name and its type are settled before the loop, and that a key
is not null after it. The columns of a table are then compared with each other
and with the clause, and from this comparison come the marks that are left.

## Main definitions

* `ColumnType.Settled`: A type name with nothing left to be replaced.
* `Column.Complete`: What a column has once its definition is read.
* `DefinesTable`: What the columns and the key of a table have.

## Theorems

* `readColumn_complete`: A definition that is read is complete.
* `settlePrimaryKey_marks`: The marks of the columns tell the primary key.
* `Statement.definesTable_of_ofText`: Every table definition that is read.
-/

namespace TableStore

/-- A type name with nothing left to be replaced: if it stands for a checked type, in any
    case, it is the name of one. -/
def ColumnType.Settled (typeName : String) : Prop :=
  ∀ type, ofSynonym? (String.ofList (Text.toUpper typeName.toList)) = some type →
    ∃ canonical : ColumnType, typeName = canonical.name

/-- What a column has once its definition is read: a name, a settled type, and values if
    it is the primary key. -/
structure Column.Complete (column : Column) : Prop where
  name_ne_empty : column.name ≠ ""
  type_settled : ColumnType.Settled column.typeName
  key_not_null : column.primaryKey = true → column.nullable = false

/-- What the columns and the key of a table have. Exactly one column is marked if there
    is a key, and it is the column of that name. -/
structure DefinesTable (columns : List Column) (primaryKey : Option String) : Prop where
  columns_ne_nil : columns ≠ []
  names_nodup : (columns.map Column.name).Nodup
  complete : ∀ column ∈ columns, column.Complete
  marked : ∀ name, primaryKey = some name → ∃ column, columns.filter Column.primaryKey = [column]
    ∧ column.name = name ∧ column.nullable = false
  unmarked : primaryKey = none → columns.filter Column.primaryKey = []

section Columns

variable {sql : String} {columns columns' : List Column} {clause primaryKey : Option String}

/-- A type name that was replaced, or kept because it stands for no type, is settled. -/
theorem settled_canonicalTypeName (token : String) :
    ColumnType.Settled (canonicalTypeName token) := by
  intro type htype
  rw [canonicalTypeName] at htype ⊢
  split at htype
  · rename_i canonical _
    exact ⟨canonical, rfl⟩
  · rename_i hnone
    rw [hnone] at htype
    cases htype

theorem word?_ne_empty {s rest : List Cell} {name : String} (h : word? s = some (name, rest)) :
    name ≠ "" := by
  unfold word? at h
  dsimp only at h
  split at h
  · cases h
  · rename_i hword
    rw [Option.some.injEq, Prod.mk.injEq] at h
    rintro rfl
    refine hword ?_
    have hchars := congrArg String.toList h.1
    rw [cellText, String.toList_ofList] at hchars
    rw [List.map_eq_nil_iff.mp hchars]
    rfl

theorem nameAndType?_ne_empty {s rest : List Cell} {name typeName : String}
    (h : nameAndType? s = some (name, typeName, rest)) : name ≠ "" := by
  simp only [nameAndType?, Option.bind_eq_bind, Option.bind_eq_some_iff] at h
  rcases h with ⟨⟨word, after⟩, hword, _, -, _, -, h⟩
  rw [Option.some.injEq, Prod.mk.injEq] at h
  rw [← h.1]
  exact word?_ne_empty hword

/-- A constraint changes neither the name of a column nor its type. -/
theorem applyConstraint_keeps {column column' : Column} {constraint : Constraint}
    (h : applyConstraint column constraint = .ok column') :
    column'.name = column.name ∧ column'.typeName = column.typeName := by
  cases constraint with
  | default literal =>
    rcases exists_of_bind_eq_ok h with ⟨v, -, h⟩
    rw [← Except.ok.inj h]
    exact ⟨rfl, rfl⟩
  | primaryKey | notNull | null =>
    rw [← Except.ok.inj h]
    exact ⟨rfl, rfl⟩

/-- A definition that is read is complete. -/
theorem readColumn_complete {definition : List Cell} {column : Column}
    (h : readColumn sql definition = .ok column) : column.Complete := by
  rw [readColumn] at h
  split at h
  · cases h
  · rename_i name typeName rest hhead
    rcases exists_of_bind_eq_ok h with ⟨read, hread, h⟩
    have hkept : read.name = name ∧ read.typeName = canonicalTypeName typeName :=
      keeps_of_readConstraints
        (P := fun column => column.name = name ∧ column.typeName = canonicalTypeName typeName)
        (fun happly hcolumn => (applyConstraint_keeps happly).imp (·.trans hcolumn.1) (·.trans hcolumn.2))
        ⟨rfl, rfl⟩ hread
    rw [← Except.ok.inj h]
    refine ⟨?_, ?_, fun hkey => ?_⟩
    · rw [hkept.1]
      exact nameAndType?_ne_empty hhead
    · rw [hkept.2]
      exact settled_canonicalTypeName typeName
    · dsimp only at hkey ⊢
      rw [hkey, Bool.not_true, Bool.and_false]

end Columns

section Keys

variable {sql name : String} {columns columns' : List Column} {clause primaryKey : Option String}

theorem Column.Complete.mark {column : Column} (h : column.Complete) (name : String) :
    (markPrimaryKey name column).Complete := by
  rw [markPrimaryKey]
  split
  · exact ⟨h.name_ne_empty, h.type_settled, fun _ => rfl⟩
  · exact h

/-- A column is marked afterwards if it is the one of the name, or was marked before. -/
theorem primaryKey_markPrimaryKey (column : Column) :
    (markPrimaryKey name column).primaryKey
      = (decide (column.name = name) || column.primaryKey) := by
  rw [markPrimaryKey]
  split
  · rename_i hname
    rw [decide_eq_true hname, Bool.true_or]
  · rename_i hname
    rw [decide_eq_false hname, Bool.false_or]

/-- In columns of different names the name of one column marks that column. -/
theorem filter_markPrimaryKey (hnodup : (columns.map Column.name).Nodup)
    (hmem : name ∈ columns.map Column.name)
    (hmarked : ∀ column ∈ columns, column.primaryKey = true → column.name = name) :
    ∃ column, (columns.map (markPrimaryKey name)).filter Column.primaryKey = [column]
      ∧ column.name = name ∧ column.nullable = false := by
  rcases List.mem_map.mp hmem with ⟨key, hkey, rfl⟩
  rcases List.append_of_mem hkey with ⟨first, last, rfl⟩
  rw [List.map_append, List.map_cons, List.nodup_middle, List.nodup_cons,
    ← List.map_append] at hnodup
  -- No other column has the name, so none of them was marked before or is now.
  have hother : ∀ {part : List Column}, part ⊆ first ++ last →
      (part.map (markPrimaryKey key.name)).filter Column.primaryKey = [] := by
    intro part hpart
    rw [List.filter_eq_nil_iff]
    intro column hcolumn hprimary
    rcases List.mem_map.mp hcolumn with ⟨other, hmem, rfl⟩
    have hne : other.name ≠ key.name := fun heq =>
      hnodup.1 (heq ▸ List.mem_map_of_mem (hpart hmem))
    rw [primaryKey_markPrimaryKey, decide_eq_false hne, Bool.false_or] at hprimary
    refine hne (hmarked other ?_ hprimary)
    rcases List.mem_append.mp (hpart hmem) with hfirst | hlast
    · exact List.mem_append_left _ hfirst
    · exact List.mem_append_right _ (List.mem_cons_of_mem _ hlast)
  refine ⟨markPrimaryKey key.name key, ?_, ?_, ?_⟩
  · rw [List.map_append, List.map_cons, List.filter_append, List.filter_cons,
      primaryKey_markPrimaryKey, decide_eq_true rfl, Bool.true_or, if_pos rfl,
      hother (List.subset_append_left first last), hother (List.subset_append_right first last),
      List.nil_append]
  · rw [markPrimaryKey, if_pos rfl]
  · rw [markPrimaryKey, if_pos rfl]

/-- Without a key clause the marks are kept, and the column that is marked is the key. -/
theorem definesTable_of_marked (hne : columns ≠ []) (hnames : (columns.map Column.name).Nodup)
    (hcomplete : ∀ column ∈ columns, column.Complete)
    (hmarked : (columns.filter Column.primaryKey).map Column.name = primaryKey.toList) :
    DefinesTable columns primaryKey := by
  refine ⟨hne, hnames, hcomplete, ?_, ?_⟩
  · rintro name rfl
    rcases List.map_eq_singleton_iff.mp hmarked with ⟨key, hkey, hname⟩
    have hmem : key ∈ columns.filter Column.primaryKey := by
      rw [hkey]
      exact List.mem_singleton_self key
    rw [List.mem_filter] at hmem
    exact ⟨key, hkey, hname, (hcomplete key hmem.1).key_not_null hmem.2⟩
  · rintro rfl
    exact List.map_eq_nil_iff.mp hmarked

/-- A key clause marks the column it names, if no other column is marked. -/
theorem definesTable_of_clause (hne : columns ≠ []) (hnames : (columns.map Column.name).Nodup)
    (hcomplete : ∀ column ∈ columns, column.Complete) (hmem : name ∈ columns.map Column.name)
    (hmarked : ∀ column ∈ columns, column.primaryKey = true → column.name = name) :
    DefinesTable (columns.map (markPrimaryKey name)) (some name) := by
  refine ⟨by simpa using hne, ?_, ?_, ?_, fun hnone => by cases hnone⟩
  · have hkept : Column.name ∘ markPrimaryKey name = Column.name :=
      funext fun column => markPrimaryKey_name name column
    rw [List.map_map, hkept]
    exact hnames
  · intro column hcolumn
    rcases List.mem_map.mp hcolumn with ⟨other, hother, rfl⟩
    exact (hcomplete other hother).mark name
  · rintro _ ⟨⟩
    exact filter_markPrimaryKey hnames hmem hmarked

/-- The marks of the columns tell the primary key. -/
theorem settlePrimaryKey_marks (hcomplete : ∀ column ∈ columns, column.Complete)
    (h : settlePrimaryKey sql columns clause = .ok (columns', primaryKey)) :
    DefinesTable columns' primaryKey := by
  rcases settlePrimaryKey_cases h with
    ⟨hne, hnames, ⟨-, rfl, hmarked⟩ | ⟨name, -, hmem, hmarked, rfl, rfl⟩⟩
  · exact definesTable_of_marked hne hnames hcomplete hmarked
  · exact definesTable_of_clause hne hnames hcomplete hmem hmarked

end Keys

namespace Statement

variable {sql table : String} {columns : List Column} {primaryKey : Option String}
  {mayExist : Bool}

theorem definesTable_of_readCreateTable {s : List Cell}
    (h : readCreateTable sql s = .ok (.createTable table columns primaryKey mayExist)) :
    DefinesTable columns primaryKey := by
  rw [readCreateTable] at h
  split at h
  · cases h
  · rcases exists_of_bind_eq_ok h with ⟨definitions, -, h⟩
    rcases exists_of_bind_eq_ok h with ⟨⟨read, clause⟩, hread, h⟩
    rcases exists_of_bind_eq_ok h with ⟨⟨settled, key⟩, hsettled, h⟩
    rw [Except.ok.injEq, Statement.createTable.injEq] at h
    rcases h with ⟨-, rfl, rfl, -⟩
    exact settlePrimaryKey_marks (forall_of_readDefinitions readColumn_complete hread) hsettled

/-- Every table definition that is read defines its table: it has columns with different
    names and settled types, and its key and the marks of the columns agree. -/
theorem definesTable_of_ofText {text : Option String}
    (h : ofText text = .ok (.createTable table columns primaryKey mayExist)) :
    DefinesTable columns primaryKey := by
  rcases exists_readAs h with ⟨kind, sql, s, hread⟩
  have hkind : StatementKind.createTable = kind := (plain_of_readAs hread).kind_eq
  subst hkind
  exact definesTable_of_readCreateTable hread

/-- A key that is declared twice, before and after it is said to be null, in a table with
    a type that is no synonym beside one that is. -/
theorem definesTable_of_ofText_repeated :
    ofText (some ("CREATE TABLE t (PRIMARY KEY (a), a varChar(10) NULL PRIMARY KEY NULL,"
        ++ " b Money NOT NULL)"))
      = .ok (.createTable "t"
        [⟨"a", "TEXT", false, true, .null⟩, ⟨"b", "Money", false, false, .null⟩] (some "a") false)
    ∧ DefinesTable [⟨"a", "TEXT", false, true, .null⟩, ⟨"b", "Money", false, false, .null⟩]
      (some "a") := by
  have hread : ofText (some ("CREATE TABLE t (PRIMARY KEY (a), a varChar(10) NULL PRIMARY KEY NULL,"
        ++ " b Money NOT NULL)"))
      = .ok (.createTable "t"
        [⟨"a", "TEXT", false, true, .null⟩, ⟨"b", "Money", false, false, .null⟩] (some "a")
        false) := by
    decide +kernel
  exact ⟨hread, definesTable_of_ofText hread⟩

end Statement

end TableStore
