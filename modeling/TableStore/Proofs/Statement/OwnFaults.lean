import TableStore.Proofs.Statement.Pieces

/-!
# Reading Fails With Its Own Error

Every text is a statement or is refused with an error of the reader. There is one exception.
Digits are a number, and a number with too many digits is a fault of another class, which the
reader does not turn into an error of its own. It comes from a run of digits in the statement
that is outside of literals, for what is inside of one is read as a text.

The proof follows the reader. `Reads` is said of each of its steps: a result with some property,
an error of the reader, or a run of too many digits. The property of the results is that values
come from pieces of the statement.

## Main definitions

* `Held`: A piece of which a reader of a statement has the texts.
* `ReadFrom`: A value that the text of a piece denotes.
* `Statement.values`: The values of a statement.
* `Reads`: A step of the reader.

## Theorems

* `Held.reads`: What the text of a piece denotes.
* `Statement.reads_readAs`: The steps for each kind of statement.
* `Statement.ofText_reads_in_step`: The reader fails with its own error, and its texts stay
  in step.
-/

namespace TableStore

variable {α β : Type} {s p q : List Cell} {sql : String}

/-- A piece of which a reader of a statement has the texts. -/
def Held (s p : List Cell) : Prop :=
  ∃ text masked, Holds s p text masked

/-- A value that the text of a piece denotes. -/
def ReadFrom (s : List Cell) (v : Value) : Prop :=
  ∃ p text masked, Holds s p text masked ∧ Value.ofLiteral text = .ok v

/-- The values of a statement. A column has a default only if it is not null. -/
def Statement.values : Statement → List Value
  | .createTable _ columns _ _ => (columns.map Column.default).filter fun v => !v.isNull
  | .insert _ _ values => values
  | .select _ _ conditions _ _ _ => conditions.map Condition.value
  | .update _ assignments conditions =>
    assignments.map Assignment.value ++ conditions.map Condition.value
  | .delete _ conditions => conditions.map Condition.value
  | _ => []

/-- A step of the reader of a statement: it gives a result with some property, or an error of the
    reader, or the statement has a number with too many digits outside of its literals. -/
inductive Reads (s : List Cell) (post : α → Prop) : Except Fault α → Prop
  | ok {a : α} (h : post a) : Reads s post (.ok a)
  | parse {e : ParseError} : Reads s post (.error (.parse e))
  | digitLimit {n : Nat} (hn : Text.digitLimit < n) (h : HasDigits n s) :
      Reads s post (.error .digitLimit)

section Steps

variable {post : α → Prop} {post' : β → Prop}

theorem Reads.bind {x : Except Fault α} {f : α → Except Fault β} (hx : Reads s post x)
    (hf : ∀ a, post a → Reads s post' (f a)) : Reads s post' (x >>= f) := by
  cases hx with
  | ok h => exact hf _ h
  | parse => exact .parse
  | digitLimit hn h => exact .digitLimit hn h

theorem Reads.imp {post' : α → Prop} {x : Except Fault α} (hx : Reads s post x)
    (himp : ∀ a, post a → post' a) : Reads s post' x := by
  cases hx with
  | ok h => exact .ok (himp _ h)
  | parse => exact .parse
  | digitLimit hn h => exact .digitLimit hn h

/-- Steps for all items of a list, one after the other. -/
theorem Reads.mapM {items : List α} {f : α → Except Fault β}
    (hf : ∀ a ∈ items, Reads s post' (f a)) :
    Reads s (fun results => ∀ b ∈ results, post' b) (items.mapM f) := by
  induction items with
  | nil =>
    rw [List.mapM_nil]
    exact .ok fun b hb => absurd hb (by simp)
  | cons a items ih =>
    rw [List.mapM_cons]
    refine (hf a List.mem_cons_self).bind fun b hb => ?_
    refine (ih fun c hc => hf c (List.mem_cons_of_mem a hc)).bind fun bs hbs => .ok ?_
    exact List.forall_mem_cons.mpr ⟨hb, hbs⟩

theorem Reads.mapM_any {items : List α} {f : α → Except Fault β}
    (hf : ∀ a ∈ items, Reads s (fun _ => True) (f a)) : Reads s (fun _ => True) (items.mapM f) :=
  (Reads.mapM hf).imp fun _ _ => trivial

end Steps

namespace Held

theorem statement (s : List Cell) : Held s s :=
  ⟨_, _, .statement⟩

/-- A piece that is taken has a place, and its texts are what stands there. -/
theorem take (h : Held s p) (hq : Takes p q) : Held s q := by
  rcases h with ⟨text, masked, h⟩
  rcases hq.isInfix with ⟨before, after, hplace⟩
  exact ⟨_, _, h.slice hq (by rw [← hplace, List.append_assoc])⟩

theorem trim (h : Held s p) : Held s (trimCells p) := by
  rcases h with ⟨text, masked, h⟩
  exact ⟨_, _, h.trimmed⟩

end Held

section Numbers

theorem suffix_takeSign (t : List Char) : (takeSign t).2 <:+ t := by
  unfold takeSign
  split
  · exact List.suffix_cons _ _
  · exact List.suffix_cons _ _
  · exact List.suffix_refl t

/-- Digits that a text consists of. -/
theorem takeDigits_whole {t : List Char} {digits : List Nat} (h : takeDigits t = (digits, [])) :
    digits.length = t.length ∧ ∀ c ∈ t, Text.isDigit c = true := by
  induction t generalizing digits with
  | nil =>
    obtain rfl := (Prod.mk.inj h).1
    exact ⟨rfl, fun c hc => absurd hc (by simp)⟩
  | cons c t ih =>
    rw [takeDigits] at h
    split at h
    · rename_i d hd
      rcases hrest : takeDigits t with ⟨ds, rest⟩
      rw [hrest] at h
      rcases Prod.mk.inj h with ⟨rfl, rfl⟩
      rcases ih hrest with ⟨hlength, hall⟩
      refine ⟨congrArg Nat.succ hlength, List.forall_mem_cons.mpr ⟨?_, hall⟩⟩
      rw [Text.isDigit, hd]
      rfl
    · exact absurd (Prod.mk.inj h).2 (by simp)

/-- An integer is a run of digits after a sign. -/
theorem suffix_of_readInteger? {t : List Char} {negative : Bool} {digits : List Nat}
    (h : readInteger? t = some (negative, digits)) :
    ∃ run, run <:+ t ∧ run.length = digits.length ∧ ∀ c ∈ run, Text.isDigit c = true := by
  rw [readInteger?] at h
  dsimp only at h
  rcases hdigits : takeDigits (takeSign t).2 with ⟨found, rest⟩
  rw [hdigits] at h
  split at h
  · rename_i hwhole
    obtain rfl : rest = [] := by simpa using (Bool.and_eq_true_iff.mp hwhole).2
    obtain rfl : found = digits := (Prod.mk.inj (Option.some.inj h)).2
    rcases takeDigits_whole hdigits with ⟨hlength, hall⟩
    exact ⟨_, suffix_takeSign t, hlength.symm, hall⟩
  · exact absurd h (by simp)

/-- The one way in which a text fails to denote a value. -/
theorem Value.ofTrimmed_error {t : List Char} {fault : Fault}
    (h : Value.ofTrimmed t = .error fault) :
    fault = .digitLimit ∧ ∃ negative digits, readInteger? t = some (negative, digits)
      ∧ Text.digitLimit < digits.length := by
  simp only [Value.ofTrimmed] at h
  split at h
  · exact absurd h (by simp)
  · split at h
    · exact absurd h (by simp)
    · split at h
      · exact absurd h (by simp)
      · split at h
        · exact absurd h (by simp)
        · split at h
          · exact absurd h (by simp)
          · split at h
            · rename_i negative digits hinteger
              rw [integerOf] at h
              split at h
              · exact absurd h (by simp)
              · rename_i hlimit
                exact ⟨(Except.error.inj h).symm, negative, digits, hinteger, by omega⟩
            · exact absurd h (by simp)

/-- Nothing is hidden in a piece without quotes. -/
theorem SameShown.not_hidden {t : List Cell} (h : SameShown s t)
    (hs : ∀ c ∈ s, isQuote c.char = false) : ∀ c ∈ s, c.hidden = false := by
  induction h with
  | nil => exact fun c hc => absurd hc (by simp)
  | shown _ _ ih =>
    rcases List.forall_mem_cons.mp hs with ⟨-, hrest⟩
    exact List.forall_mem_cons.mpr ⟨rfl, ih hrest⟩
  | @literal q _ _ _ _ hq _ _ =>
    have hquote : isQuote q = false := hs ⟨q, false⟩ List.mem_cons_self
    exact absurd (hquote.symm.trans hq) Bool.false_ne_true

/-- What the text of a piece denotes. If it denotes nothing, the piece is a number. -/
theorem Held.reads (hs : Balanced s) (h : Held s p) :
    Reads s (ReadFrom s) (Value.ofLiteral (cellChars p)) := by
  rcases h with ⟨text, masked, h⟩
  rcases h.inStep hs with ⟨hp, hstep⟩
  rcases hv : Value.ofLiteral (cellChars p) with fault | v
  · rw [Value.ofLiteral, hp.trimBlanks] at hv
    rcases Value.ofTrimmed_error hv with ⟨rfl, negative, digits, hinteger, hlimit⟩
    -- With a literal in it the piece would be a text, so it has no quotes and nothing is hidden.
    have hshown : ∀ c ∈ trimCells p, c.hidden = false := by
      refine (SameShown.trimCells hp).not_hidden fun c hc => Bool.eq_false_iff.mpr fun hquote => ?_
      have hnone := readInteger?_of_mem (ne_sign_of_quote hquote) (digitValue?_of_quote hquote)
        (List.mem_map_of_mem (f := Cell.char) hc)
      exact absurd (hnone.symm.trans hinteger) (by simp)
    rcases suffix_of_readInteger? hinteger with ⟨run, ⟨sign, hsplit⟩, hlength, hdigits⟩
    -- The digits are characters of cells, and these have a place in the statement.
    rcases List.map_eq_append_iff.mp hsplit.symm with ⟨first, last, hcells, -, rfl⟩
    have hstands : last <:+: s := by
      have hsuffix : last <:+ trimCells p := hcells ▸ List.suffix_append first last
      exact hsuffix.isInfix.trans ((infix_trimCells p).trans hstep.stands)
    refine .digitLimit hlimit ⟨last, hstands, by rw [← hlength, List.length_map], fun c hc => ?_⟩
    have hmem : c ∈ trimCells p := hcells ▸ List.mem_append_right first hc
    exact ⟨hshown c hmem, hdigits _ (List.mem_map_of_mem (f := Cell.char) hc)⟩
  · exact .ok ⟨p, text, masked, h, by rw [hstep.text_eq, hv]⟩

/-- The number of a clause is one whose digits the statement has. -/
theorem reads_readCount {found : Option (List Nat)}
    (h : ∀ digits, found = some digits → HasDigits digits.length s) :
    Reads s (fun _ => True) (readCount found) := by
  cases found with
  | none => exact .ok trivial
  | some digits =>
    rw [readCount, integerOf]
    split
    · exact .ok trivial
    · rename_i hlimit
      exact .digitLimit (by omega) (h digits rfl)

end Numbers

section Pieces

/-- The items of a list are pieces of the statement. -/
theorem reads_splitAtCommas (h : Held s p) :
    Reads s (fun pieces => ∀ piece ∈ pieces, Held s piece) (splitAtCommas p) := by
  rw [splitAtCommas]
  split
  · rename_i pieces hpieces
    refine .ok fun piece hpiece => ?_
    rcases List.mem_map.mp hpiece with ⟨q, hq, rfl⟩
    exact (h.take (.item hpieces hq)).trim
  · exact .parse

variable (hs : Balanced s)

include hs

theorem reads_readValues (h : Held s p) :
    Reads s (fun values => ∀ v ∈ values, ReadFrom s v) (readValues p) := by
  rw [readValues]
  split
  · exact .parse
  · refine (reads_splitAtCommas h).bind fun pieces hpieces => ?_
    split
    · exact .parse
    · exact .mapM fun piece hpiece => (hpieces piece hpiece).reads hs

theorem reads_readCondition {clause : String} (h : Held s p) :
    Reads s (fun condition => ReadFrom s condition.value) (readCondition clause p) := by
  rw [readCondition]
  split
  · exact .parse
  · rename_i column operator literal hparts
    split
    · exact .parse
    · exact ((h.take (.compared hparts)).reads hs).bind fun v hv => .ok hv

theorem reads_readWhere (h : Held s p) :
    Reads s (fun conditions => ∀ condition ∈ conditions, ReadFrom s condition.value)
      (readWhere p) := by
  unfold readWhere
  dsimp only
  split
  · exact .parse
  · split
    · exact .parse
    · split
      · exact .parse
      · refine .mapM fun piece hpiece => ?_
        rcases List.mem_map.mp hpiece with ⟨q, hq, rfl⟩
        exact reads_readCondition hs (h.take (.condition hq)).trim

theorem reads_readOptionalWhere {clause : Option (List Cell)}
    (h : ∀ p, clause = some p → Held s p) :
    Reads s (fun conditions => ∀ condition ∈ conditions, ReadFrom s condition.value)
      (readOptionalWhere clause) := by
  cases clause with
  | none => exact .ok fun condition hcondition => absurd hcondition (by simp)
  | some p => exact reads_readWhere hs (h p rfl)

theorem reads_readExpression {column : String} (h : Held s p) :
    Reads s (fun assignment => ReadFrom s assignment.value) (readExpression sql column p) := by
  rw [readExpression]
  split
  · rename_i name sign number hsum
    split
    · exact ((h.take (.summand hsum)).reads hs).bind fun v hv => .ok hv
    · exact .parse
  · exact (h.reads hs).bind fun v hv => .ok hv

theorem reads_readAssignments {pieces : List (List Cell)} {seen : List String}
    (h : ∀ piece ∈ pieces, Held s piece) :
    Reads s (fun assignments => ∀ assignment ∈ assignments, ReadFrom s assignment.value)
      (readAssignments sql seen pieces) := by
  induction pieces generalizing seen with
  | nil => exact .ok fun assignment hassignment => absurd hassignment (by simp)
  | cons piece pieces ih =>
    rcases List.forall_mem_cons.mp h with ⟨hpiece, hrest⟩
    rw [readAssignments]
    split
    · exact .parse
    · rename_i column expression hparts
      split
      · exact .parse
      · have hexpression := (hpiece.take (.assigned hparts)).trim
        refine (reads_readExpression hs hexpression).bind fun first hfirst => ?_
        refine (ih hrest).bind fun others hothers => .ok ?_
        exact List.forall_mem_cons.mpr ⟨hfirst, hothers⟩

end Pieces

section Lists

theorem reads_readInsertColumns (columns : Option (List Cell)) :
    Reads s (fun _ => True) (readInsertColumns sql columns) := by
  cases columns with
  | none => exact .ok trivial
  | some list =>
    have hnames : Reads s (fun _ => True) (readNames list) := by
      refine .mapM_any fun name _ => ?_
      split
      · exact .ok trivial
      · exact .parse
    refine hnames.bind fun names _ => ?_
    split
    · exact .parse
    · exact .ok trivial

theorem reads_readItems (h : Held s p) : Reads s (fun _ => True) (readItems sql p) := by
  rw [readItems]
  split
  · exact .ok trivial
  · refine (reads_splitAtCommas h).bind fun pieces _ => .mapM_any fun piece _ => ?_
    split
    · exact .ok trivial
    · exact .parse

theorem reads_readOrder {clause : Option (List Cell)} (h : ∀ p, clause = some p → Held s p) :
    Reads s (fun _ => True) (readOrder sql clause) := by
  cases clause with
  | none => exact .ok trivial
  | some p =>
    refine (reads_splitAtCommas (h p rfl)).bind fun pieces _ => .mapM_any fun piece _ => ?_
    split
    · exact .ok trivial
    · exact .parse

end Lists

section Columns

variable {definition : String} {clause : Option String}

/-- A default that is null or comes from a piece. -/
def DefaultFrom (s : List Cell) (column : Column) : Prop :=
  column.default = .null ∨ ReadFrom s column.default

variable (hs : Balanced s)

include hs in
theorem reads_readConstraints {steps : Nat} {column : Column} (hcolumn : DefaultFrom s column)
    (h : Held s p) :
    Reads s (DefaultFrom s) (readConstraints definition sql steps column p) := by
  induction steps generalizing column p with
  | zero => exact .ok hcolumn
  | succ steps ih =>
    rw [readConstraints]
    split
    · exact .ok hcolumn
    · split
      · exact .parse
      · rename_i constraint rest hconstraint
        -- A default is the only constraint that denotes a value.
        have happly : Reads s (DefaultFrom s) (applyConstraint column constraint) := by
          cases constraint with
          | default literal =>
            exact ((h.take (.default hconstraint)).reads hs).bind fun v hv => .ok (Or.inr hv)
          | _ => exact .ok hcolumn
        exact happly.bind fun next hnext => ih hnext (h.take (.laterConstraints hconstraint))

include hs in
theorem reads_readColumn (h : Held s p) : Reads s (DefaultFrom s) (readColumn sql p) := by
  rw [readColumn]
  split
  · exact .parse
  · rename_i name typeName rest hhead
    -- Before its constraints are read a column has null as its default.
    refine (reads_readConstraints hs (Or.inl rfl) (h.take (.constraints hhead))).bind ?_
    exact fun column hcolumn => .ok hcolumn

include hs in
theorem reads_readDefinitions {definitions : List (List Cell)}
    (h : ∀ definition ∈ definitions, Held s definition) :
    Reads s (fun read => ∀ column ∈ read.1, DefaultFrom s column)
      (readDefinitions sql clause definitions) := by
  induction definitions generalizing clause with
  | nil => exact .ok fun column hcolumn => absurd hcolumn (by simp)
  | cons definition definitions ih =>
    rcases List.forall_mem_cons.mp h with ⟨hdefinition, hrest⟩
    rw [readDefinitions]
    split
    · exact .parse
    · split
      · split
        · exact .parse
        · split
          · exact .parse
          · exact ih hrest
      · refine (reads_readColumn hs hdefinition).bind fun column hcolumn => ?_
        refine (ih hrest).bind fun others hothers => .ok ?_
        exact List.forall_mem_cons.mpr ⟨hcolumn, hothers⟩

/-- Marking the primary key changes no default. -/
theorem reads_settlePrimaryKey {columns : List Column}
    (h : ∀ column ∈ columns, DefaultFrom s column) :
    Reads s (fun settled => ∀ column ∈ settled.1, DefaultFrom s column)
      (settlePrimaryKey sql columns clause) := by
  have hmark : ∀ name, ∀ column ∈ columns.map (markPrimaryKey name), DefaultFrom s column := by
    intro name column hcolumn
    rcases List.mem_map.mp hcolumn with ⟨c, hc, rfl⟩
    unfold DefaultFrom
    rw [markPrimaryKey_default]
    exact h c hc
  unfold settlePrimaryKey
  dsimp only
  split
  · exact .parse
  · split
    · exact .parse
    · split
      · exact .parse
      · split
        · exact .ok h
        · split
          · exact .parse
          · split
            · split
              · exact .ok (hmark _)
              · exact .parse
            · exact .ok (hmark _)

end Columns

namespace Statement

variable (hs : Balanced s)

include hs

theorem reads_readCreateTable :
    Reads s (fun statement => ∀ v ∈ statement.values, ReadFrom s v) (readCreateTable sql s) := by
  rw [readCreateTable]
  split
  · exact .parse
  · rename_i mayExist table body hparts
    refine (reads_splitAtCommas ((Held.statement s).take (.columns hparts))).bind ?_
    intro definitions hdefinitions
    refine (reads_readDefinitions hs hdefinitions).bind fun read hread => ?_
    refine (reads_settlePrimaryKey hread).bind fun settled hsettled => .ok fun v hv => ?_
    rcases List.mem_filter.mp hv with ⟨hmem, hnull⟩
    rcases List.mem_map.mp hmem with ⟨column, hcolumn, rfl⟩
    rcases hsettled column hcolumn with hdefault | hread
    · rw [hdefault] at hnull
      exact absurd hnull (by decide)
    · exact hread

theorem reads_readInsert :
    Reads s (fun statement => ∀ v ∈ statement.values, ReadFrom s v) (readInsert sql s) := by
  rw [readInsert]
  split
  · exact .parse
  · rename_i table columns list hparts
    refine (reads_readInsertColumns columns).bind fun names _ => ?_
    refine (reads_readValues hs ((Held.statement s).take (.values hparts))).bind ?_
    exact fun values hvalues => .ok hvalues

theorem reads_readSelect :
    Reads s (fun statement => ∀ v ∈ statement.values, ReadFrom s v) (readSelect sql s) := by
  rw [readSelect]
  split
  · exact .parse
  · rename_i parts hparts
    have hwithin := selectParts?_within hparts
    have hclause : ∀ p, parts.conditions = some p → Held s p := fun p hp =>
      (Held.statement s).take (.queried hparts hp)
    have horder : ∀ p, parts.order = some p → Held s p := fun p hp =>
      (Held.statement s).take (.order hparts hp)
    refine (reads_readItems ((Held.statement s).take (.items hparts))).bind fun items _ => ?_
    refine (reads_readOptionalWhere hs hclause).bind fun conditions hconditions => ?_
    refine (reads_readOrder horder).bind fun order _ => ?_
    refine (reads_readCount hwithin.limit).bind fun limit _ => ?_
    refine (reads_readCount hwithin.offset).bind fun offset _ => .ok ?_
    exact List.forall_mem_map.mpr hconditions

theorem reads_readUpdate :
    Reads s (fun statement => ∀ v ∈ statement.values, ReadFrom s v) (readUpdate sql s) := by
  rw [readUpdate]
  split
  · exact .parse
  · rename_i table list clause hparts
    have hclause : ∀ p, clause = some p → Held s p := by
      rintro p rfl
      exact (Held.statement s).take (.changed hparts)
    refine (reads_splitAtCommas ((Held.statement s).take (.assignments hparts))).bind ?_
    intro pieces hpieces
    refine (reads_readAssignments hs hpieces).bind fun assignments hassignments => ?_
    refine (reads_readOptionalWhere hs hclause).bind fun conditions hconditions => .ok ?_
    exact List.forall_mem_append.mpr
      ⟨List.forall_mem_map.mpr hassignments, List.forall_mem_map.mpr hconditions⟩

theorem reads_readDelete :
    Reads s (fun statement => ∀ v ∈ statement.values, ReadFrom s v) (readDelete sql s) := by
  rw [readDelete]
  split
  · exact .parse
  · rename_i table clause hparts
    have hclause : ∀ p, clause = some p → Held s p := by
      rintro p rfl
      exact (Held.statement s).take (.removed hparts)
    refine (reads_readOptionalWhere hs hclause).bind fun conditions hconditions => .ok ?_
    exact List.forall_mem_map.mpr hconditions

omit hs in
/-- Statements that are read as a whole have names and no values. -/
theorem reads_readWhole {kind : StatementKind} {found : Option Statement}
    (hkind : kind = .dropTable ∨ kind = .createIndex ∨ kind = .dropIndex)
    (h : ∀ statement, found = some statement → statement.PlainAs kind) :
    Reads s (fun statement => ∀ v ∈ statement.values, ReadFrom s v) (readWhole kind sql found) := by
  cases found with
  | none => exact .parse
  | some statement =>
    have hnone : statement.values = [] := by
      rw [← (h statement rfl).kind_eq] at hkind
      cases statement with
      | dropTable | createIndex | dropIndex => rfl
      | _ => simp [Statement.kind] at hkind
    exact .ok fun v hv => absurd (hnone ▸ hv) List.not_mem_nil

/-- The steps for each kind of statement. -/
theorem reads_readAs (kind : StatementKind) :
    Reads s (fun statement => ∀ v ∈ statement.values, ReadFrom s v) (readAs kind sql s) := by
  cases kind with
  | createTable => exact reads_readCreateTable hs
  | dropTable => exact reads_readWhole (by decide) fun _ => plain_of_dropTable?
  | createIndex => exact reads_readWhole (by decide) fun _ => plain_of_createIndex?
  | dropIndex => exact reads_readWhole (by decide) fun _ => plain_of_dropIndex?
  | insert => exact reads_readInsert hs
  | select => exact reads_readSelect hs
  | update => exact reads_readUpdate hs
  | delete => exact reads_readDelete hs

omit hs

/-- The cells of a statement, without blanks around it and a semicolon at its end. -/
def Marks (sql : Option String) (cells : List Cell) : Prop :=
  ∃ text, sql = some text ∧ hideLiterals (dropSemicolon (Text.trimBlanks text.toList)) = some cells

/-- A text that is marked is read from its cells. -/
theorem reads_of_marks {sql : Option String} {cells : List Cell} (h : Marks sql cells) :
    Reads cells (fun statement => ∀ v ∈ statement.values, ReadFrom cells v) (ofText sql) := by
  rcases h with ⟨text, rfl, hcells⟩
  have hbalanced := (marking_of_hideLiterals hcells).balanced
  unfold ofText
  dsimp only
  split
  · exact .parse
  · split
    · exact .parse
    · unfold ofChars
      rw [hcells]
      dsimp only
      split
      · exact .parse
      · exact reads_readAs hbalanced _

/-- A text that cannot be marked is refused. -/
theorem parse_of_unmarked {sql : Option String} (h : ∀ cells, ¬Marks sql cells) :
    ∃ e, ofText sql = .error (.parse e) := by
  cases sql with
  | none => exact ⟨_, rfl⟩
  | some text =>
    have hnone : hideLiterals (dropSemicolon (Text.trimBlanks text.toList)) = none := by
      rw [Option.eq_none_iff_forall_not_mem]
      exact fun cells hcells => h cells ⟨text, rfl, hcells⟩
    unfold ofText
    dsimp only
    split
    · exact ⟨_, rfl⟩
    · split
      · exact ⟨_, rfl⟩
      · unfold ofChars
        rw [hnone]
        exact ⟨_, rfl⟩

/-- The reader fails with its own error, or on a run of too many digits in the statement
    that is outside of literals. The two texts of every piece that it takes stay in step: each
    piece has a place in the one it is taken from, what stands there in the text is what the
    masked text covers, and a piece that begins with a quote has the closing one. From such
    pieces come all values. -/
theorem ofText_reads_in_step (sql : Option String) :
    ((∃ statement, ofText sql = .ok statement) ∨ (∃ e, ofText sql = .error (.parse e))
      ∨ ofText sql = .error .digitLimit
        ∧ ∃ cells n, Marks sql cells ∧ Text.digitLimit < n ∧ HasDigits n cells)
    ∧ ∀ cells, Marks sql cells →
      (∀ p text masked, Holds cells p text masked →
        InStep cells p text masked ∧ ∀ q, Takes p q → q <:+: p)
      ∧ ∀ statement, ofText sql = .ok statement → ∀ v ∈ statement.values, ReadFrom cells v := by
  refine ⟨?_, fun cells hmarks => ⟨fun p text masked h => ?_, fun statement hread => ?_⟩⟩
  · -- A text that cannot be marked is refused before anything is read of it.
    by_cases hmarked : ∃ cells, Marks sql cells
    · rcases hmarked with ⟨cells, hmarks⟩
      have hreads := reads_of_marks hmarks
      generalize ofText sql = outcome at hreads
      cases hreads with
      | ok _ => exact Or.inl ⟨_, rfl⟩
      | parse => exact Or.inr (Or.inl ⟨_, rfl⟩)
      | digitLimit hn hdigits => exact Or.inr (Or.inr ⟨rfl, cells, _, hmarks, hn, hdigits⟩)
    · exact Or.inr (Or.inl (parse_of_unmarked fun cells hmarks => hmarked ⟨cells, hmarks⟩))
  · rcases hmarks with ⟨_, -, hcells⟩
    exact ⟨(h.inStep (marking_of_hideLiterals hcells).balanced).2, fun _ hq => hq.isInfix⟩
  · have hreads := reads_of_marks hmarks
    rw [hread] at hreads
    cases hreads with
    | ok hvalues => exact hvalues

/-- A literal with blanks at its ends and a word in it that would end a condition. -/
theorem ofText_reads_in_step_hidden : ∃ cells,
    Marks (some "DELETE FROM t WHERE a = ' b AND c ' ;") cells
      ∧ ofText (some "DELETE FROM t WHERE a = ' b AND c ' ;")
        = .ok (.delete "t" [⟨"a", .equal, .text " b AND c "⟩])
      ∧ ReadFrom cells (.text " b AND c ") := by
  have hread : ofText (some "DELETE FROM t WHERE a = ' b AND c ' ;")
      = .ok (.delete "t" [⟨"a", .equal, .text " b AND c "⟩]) := by decide +kernel
  rcases exists_marked hread with ⟨text, _, cells, _, htext, rfl, hcells, -⟩
  have hmarks : Marks (some "DELETE FROM t WHERE a = ' b AND c ' ;") cells := ⟨text, htext, hcells⟩
  exact ⟨cells, hmarks, hread,
    ((ofText_reads_in_step _).2 cells hmarks).2 _ hread _ List.mem_cons_self⟩

end Statement

end TableStore
