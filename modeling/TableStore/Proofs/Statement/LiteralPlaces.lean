import Mathlib.Data.List.TakeWhile
import TableStore.Proofs.Statement
import TableStore.Proofs.Statement.AlikeManipulation
import TableStore.Proofs.Statement.Delimited

/-!
# Text After Literals

A statement has literals at three places: among the values that are inserted, on the
right sides of assignments, and on the right sides of conditions. Text that goes on
after the closing quote is an error, but only a condition is checked for it. At the other
two places the piece is still read as one text, because the reading of a value looks at
the first and the last character only. What comes after the literal then becomes part
of the value, with the quotes around the literal if the piece does not end in a quote
of the same kind, and otherwise with those in the middle.

The pieces are cut out of the marked text, so each of them is balanced: what is hidden
in it lies in whole literals. That is `SameShown` of the piece and itself, and every
recognizer has been shown to keep this relation.

## Main definitions

* `literalPieces`: The pieces of a statement at which literals stand.
* `Statement.literals`: The values at these places.
* `Balanced`: Cells in which what is hidden lies in whole literals.
* `denotedText`: What a piece denotes that begins with a literal.
* `ReadAt`: How a piece that begins with a quote is read.

## Theorems

* `Marking.balanced`: Marked texts are balanced.
* `Balanced.ofLiteral`: A piece that begins with a literal is read as a text.
* `readAt_inserted`, `readAt_assigned`, `readAt_compared`: The three places.
* `Statement.readAt_of_ofText`: How the literals of a statement are read.
-/

namespace TableStore

/-- The places at which a statement has literals: values that are inserted, and right
    sides of assignments and of conditions. -/
inductive LiteralPlace where
  | inserted
  | assigned
  | compared
  deriving DecidableEq

/-- The pieces of a list, if it can be cut up. -/
def listPieces (list : List Cell) : List (List Cell) :=
  match splitAtCommas list with
  | .ok pieces => pieces
  | .error _ => []

/-- The right side of an assignment. -/
def assignedPiece? (piece : List Cell) : Option (List Cell) :=
  (assignmentParts? piece).map fun parts => trimCells parts.2

/-- The right side of a condition. -/
def comparedPiece? (piece : List Cell) : Option (List Cell) :=
  (comparison? piece).map fun parts => trimCells parts.2.2

/-- The right sides of the conditions of a clause that may be absent. -/
def comparedPieces : Option (List Cell) → List (LiteralPlace × List Cell)
  | none => []
  | some clause =>
    (((splitAtAnd 0 clause).map trimCells).filterMap comparedPiece?).map fun piece =>
      (.compared, piece)

/-- The pieces of a marked statement at which literals stand, in their order. -/
def literalPieces (kind : StatementKind) (s : List Cell) : List (LiteralPlace × List Cell) :=
  match kind with
  | .insert =>
    match insertParts? s with
    | some (_, _, values) => (listPieces values).map fun piece => (.inserted, piece)
    | none => []
  | .select =>
    match selectParts? s with
    | some parts => comparedPieces parts.conditions
    | none => []
  | .update =>
    match updateParts? s with
    | some (_, list, conditions) =>
      (((listPieces list).filterMap assignedPiece?).map fun piece => (.assigned, piece))
        ++ comparedPieces conditions
    | none => []
  | .delete =>
    match deleteParts? s with
    | some (_, conditions) => comparedPieces conditions
    | none => []
  | _ => []

/-- The values that conditions compare with. -/
def comparedValues (conditions : List Condition) : List (LiteralPlace × Value) :=
  conditions.map fun condition => (.compared, condition.value)

/-- The values of a statement at the places of literals, in their order. -/
def Statement.literals : Statement → List (LiteralPlace × Value)
  | .insert _ _ values => values.map fun v => (.inserted, v)
  | .select _ _ conditions _ _ _ => comparedValues conditions
  | .update _ assignments conditions =>
    (assignments.map fun assignment => (.assigned, assignment.value)) ++ comparedValues conditions
  | .delete _ conditions => comparedValues conditions
  | _ => []

/-- Cells in which what is hidden lies in whole literals. -/
def Balanced (s : List Cell) : Prop :=
  SameShown s s

/-- The text that a piece denotes which consists of a literal and of text after it. Text
    after the literal is not told from its content. -/
def denotedText (q : Char) (body : List Char) : (rest : List Char) → List Char
  | [] => unescapeQuotes q body
  | c :: rest =>
    if (c :: rest).getLast? = some q then unescapeQuotes q (body ++ q :: (c :: rest).dropLast)
    else q :: (body ++ q :: c :: rest)

/-- How a piece of a statement is read that begins with a quote: as a text, and at the
    right side of a condition only if nothing follows the literal. -/
structure ReadAt (found : LiteralPlace × List Cell) (read : LiteralPlace × Value) : Prop where
  place : found.1 = read.1
  quoted : ∀ q, isQuote q = true → found.2.head? = some ⟨q, false⟩ →
    ∃ body rest, found.2 = literalCells q body ++ rest
      ∧ read.2 = .text (String.ofList (denotedText q body (cellChars rest)))
      ∧ (found.1 = .compared → rest = [])

namespace Text

variable {α : Type} {blank : α → Bool}

theorem atBlank_dropWhile {s : List α} (hne : s.dropWhile blank ≠ []) :
    atBlank blank (s.dropWhile blank) = false := by
  induction s with
  | nil => exact absurd rfl hne
  | cons a s ih =>
    by_cases ha : blank a = true
    · rw [List.dropWhile_cons_of_pos ha] at hne ⊢
      exact ih hne
    · rw [List.dropWhile_cons_of_neg ha]
      exact Bool.eq_false_iff.mpr ha

/-- What is left when the blanks at both ends are taken off. -/
theorem trimmed_trimBy {s : List α} (hne : trimBy blank s ≠ []) : Trimmed blank (trimBy blank s) := by
  have hstart : trimStart blank s ≠ [] := by
    intro hnil
    exact hne (by rw [trimBy, hnil]; rfl)
  have hend : (trimStart blank s).reverse.dropWhile blank ≠ [] := fun hnil =>
    hne (by rw [trimBy, trimEnd, hnil]; rfl)
  refine ⟨?_, ?_⟩
  · rcases List.exists_cons_of_ne_nil hstart with ⟨a, rest, hcons⟩
    have ha : blank a = false := by
      have hat : atBlank blank (trimStart blank s) = false := atBlank_dropWhile hstart
      rwa [hcons] at hat
    have hkept := @trimEnd_append_cons _ blank a ha [] rest
    rw [List.nil_append, List.nil_append] at hkept
    rw [trimBy, hcons, hkept]
    exact ha
  · rw [trimBy, trimEnd, List.reverse_reverse]
    exact atBlank_dropWhile hend

end Text

section Balanced

variable {q : Char} {s t : List Cell}

/-- Marked texts are balanced. -/
theorem Marking.balanced {text : List Char} (h : Marking text s) : Balanced s := by
  unfold Balanced
  induction h with
  | nil => exact .nil
  | outside hc _ ih => exact .shown hc ih
  | literal hq _ _ _ ih => exact .literal _ _ hq ih

/-- A quote that is shown opens a literal, if it comes first. -/
theorem SameShown.exists_literal (h : SameShown s t) (hq : isQuote q = true)
    (hs : s.head? = some ⟨q, false⟩) : ∃ body rest, s = literalCells q body ++ rest := by
  cases h with
  | nil => exact absurd hs (by simp)
  | shown hc _ =>
    rw [(Cell.mk.inj (Option.some.inj hs)).1, hq] at hc
    exact absurd hc.symm Bool.false_ne_true
  | @literal p a b s t hp hst =>
    have hhead : (⟨p, false⟩ : Cell) = ⟨q, false⟩ := Option.some.inj hs
    rw [(Cell.mk.inj hhead).1]
    exact ⟨a, s, rfl⟩

theorem SameShown.dropWhile_chars (h : SameShown s t) :
    (cellChars s).dropWhile Text.isBlank = cellChars (s.dropWhile Cell.isBlank) := by
  induction h with
  | nil => rfl
  | @shown c s t hc _ ih =>
    by_cases hblank : Text.isBlank c = true
    · have hcell : Cell.isBlank ⟨c, false⟩ = true := hblank
      rw [List.dropWhile_cons_of_pos hcell, ← ih]
      exact List.dropWhile_cons_of_pos hblank
    · have hcell : ¬Cell.isBlank ⟨c, false⟩ = true := hblank
      rw [List.dropWhile_cons_of_neg hcell]
      exact List.dropWhile_cons_of_neg hblank
  | @literal q a b s t hq _ _ =>
    rw [SameShown.dropWhile_literal (fun _ => Sealed.isBlank) hq, cellChars_literalCells_append]
    exact List.dropWhile_cons_of_neg (by rw [isBlank_quote hq]; exact Bool.false_ne_true)

/-- The blanks at the ends of a balanced piece are outside of its literals. -/
theorem Balanced.trimBlanks (h : Balanced s) :
    Text.trimBlanks (cellChars s) = cellChars (trimCells s) := by
  have hreverse : ∀ u : List Cell, (cellChars u).reverse = cellChars u.reverse :=
    fun u => List.map_reverse.symm
  have hback : SameShown (s.dropWhile Cell.isBlank).reverse (s.dropWhile Cell.isBlank).reverse :=
    (SameShown.skipBlanks h).reverse
  rw [Text.trimBlanks, Text.trimBy, Text.trimStart, SameShown.dropWhile_chars h, Text.trimEnd,
    hreverse, hback.dropWhile_chars, hreverse]
  rfl

/-- What the text of a piece denotes that begins with a literal. -/
theorem Value.ofTrimmed_literal (hq : isQuote q = true) (body rest : List Char) :
    Value.ofTrimmed (q :: (body ++ q :: rest))
      = .ok (.text (String.ofList (denotedText q body rest))) := by
  rw [Value.ofTrimmed_of_quote hq]
  cases rest with
  | nil => rw [if_pos List.getLast?_concat, List.dropLast_concat, denotedText]
  | cons c rest =>
    have hlast : (body ++ q :: c :: rest).getLast? = (c :: rest).getLast? := by
      rw [List.getLast?_append_of_ne_nil _ (List.cons_ne_nil _ _), List.getLast?_cons_cons]
    have hmost : (body ++ q :: c :: rest).dropLast = body ++ q :: (c :: rest).dropLast := by
      rw [List.dropLast_append_of_ne_nil (List.cons_ne_nil _ _), List.dropLast_cons_cons]
    rw [hlast, hmost, denotedText]

/-- A balanced piece that begins with a quote is read as a text. -/
theorem Balanced.ofLiteral {v : Value} (h : Balanced s)
    (hv : Value.ofLiteral (cellChars s) = .ok v) (hq : isQuote q = true)
    (hhead : (trimCells s).head? = some ⟨q, false⟩) :
    ∃ body rest, trimCells s = literalCells q body ++ rest
      ∧ v = .text (String.ofList (denotedText q body (cellChars rest))) := by
  rcases (SameShown.trimCells h).exists_literal hq hhead with ⟨body, rest, hsplit⟩
  refine ⟨body, rest, hsplit, ?_⟩
  rw [Value.ofLiteral, h.trimBlanks, hsplit, cellChars_literalCells_append,
    Value.ofTrimmed_literal hq] at hv
  exact (Except.ok.inj hv).symm

/-- Nothing is after the literal that a piece begins with if no text is. -/
theorem rest_eq_nil {body : List Char} {rest : List Cell} (hq : isQuote q = true)
    (hsplit : trimCells s = literalCells q body ++ rest)
    (h : hasTextAfterLiteral (trimCells s) = false) : rest = [] := by
  by_contra hne
  have hblanks : skipBlanks rest = [] := by
    have hshow : Cell.visible ⟨q, false⟩ = q := rfl
    rw [hsplit, literalCells, List.cons_append, hasTextAfterLiteral, hshow, if_pos hq,
      List.append_assoc, List.singleton_append, SameShown.afterNext_literal body rest hq] at h
    simpa using h
  -- The last cell of the piece would be one of these blanks.
  have htrimmed : Text.Trimmed Cell.isBlank (literalCells q body ++ rest) := by
    rw [← hsplit]
    exact Text.trimmed_trimBy fun hnil => literalCells_ne_nil q body
      (List.append_eq_nil_iff.mp (hsplit.symm.trans hnil)).1
  rcases List.eq_nil_or_concat' rest with hnil | ⟨u, c, rfl⟩
  · exact hne hnil
  · have hblank : c.isBlank = true :=
      List.dropWhile_eq_nil_iff.mp hblanks c (List.mem_append_right u List.mem_cons_self)
    have hlast := htrimmed.2
    rw [List.reverse_append, List.reverse_concat] at hlast
    exact Bool.false_ne_true (hlast.symm.trans hblank)

end Balanced

section Places

variable {sql clause : String} {q : Char}

/-- A piece without outer blanks whose value is that of its whole text. -/
theorem readAt_trimCells {w : List Cell} {v : Value} {place : LiteralPlace}
    (hw : Balanced (trimCells w)) (hplace : place ≠ .compared)
    (hv : Value.ofLiteral (cellChars (trimCells w)) = .ok v) :
    ReadAt (place, trimCells w) (place, v) where
  place := rfl
  quoted := by
    intro q hq hhead
    have hne : trimCells w ≠ [] := by
      intro hnil
      rw [hnil] at hhead
      exact absurd hhead (by simp)
    have htwice : trimCells (trimCells w) = trimCells w := (Text.trimmed_trimBy hne).trimBy
    rcases hw.ofLiteral hv hq (by rwa [htwice]) with ⟨body, rest, hsplit, heq⟩
    exact ⟨body, rest, by rwa [htwice] at hsplit, heq, fun h => absurd h hplace⟩

/-- The pieces of a list are balanced and have no outer blanks. -/
theorem pieces_of_splitAtCommas {list : List Cell} {pieces : List (List Cell)}
    (hlist : Balanced list) (h : splitAtCommas list = .ok pieces) :
    ∀ piece ∈ pieces, Balanced piece ∧ ∃ w, piece = trimCells w := by
  have halike := SameShown.splitAtCommas hlist
  rw [h] at halike
  cases halike with
  | ok hpieces =>
    intro piece hpiece
    refine ⟨List.forall₂_same.mp hpieces piece hpiece, ?_⟩
    rw [splitAtCommas] at h
    split at h
    · rw [← Except.ok.inj h] at hpiece
      rcases List.mem_map.mp hpiece with ⟨w, -, rfl⟩
      exact ⟨w, rfl⟩
    · exact absurd h (by simp)

theorem readAt_pieces {pieces : List (List Cell)} {values : List Value}
    (hpieces : ∀ piece ∈ pieces, Balanced piece ∧ ∃ w, piece = trimCells w)
    (h : List.Forall₂ (fun piece v => Value.ofLiteral (cellChars piece) = .ok v) pieces values) :
    List.Forall₂ (fun piece v => ReadAt (.inserted, piece) (.inserted, v)) pieces values := by
  induction h with
  | nil => exact .nil
  | cons hv _ ih =>
    rcases List.forall_mem_cons.mp hpieces with ⟨⟨hpiece, w, rfl⟩, hrest⟩
    exact .cons (readAt_trimCells hpiece (by decide) hv) (ih hrest)

theorem readAt_inserted {list : List Cell} {values : List Value} (hlist : Balanced list)
    (h : readValues list = .ok values) :
    List.Forall₂ ReadAt ((listPieces list).map fun piece => (.inserted, piece))
      (values.map fun v => (.inserted, v)) := by
  rw [readValues] at h
  split at h
  · exact absurd h (by simp)
  · rcases exists_of_bind_eq_ok h with ⟨pieces, hpieces, h⟩
    split at h
    · exact absurd h (by simp)
    · have hfound : listPieces list = pieces := by rw [listPieces, hpieces]
      rw [hfound, List.forall₂_map_left_iff, List.forall₂_map_right_iff]
      exact readAt_pieces (pieces_of_splitAtCommas hlist hpieces) (forall₂_of_mapM_eq_ok h)

/-- A sum begins with a name and not with a quote. -/
theorem head?_ne_quote_of_sumParts? {expression : List Cell}
    {parts : String × Arithmetic × List Cell} (h : sumParts? expression = some parts)
    (hq : isQuote q = true) : expression.head? ≠ some ⟨q, false⟩ := by
  intro hhead
  rcases List.head?_eq_some_iff.mp hhead with ⟨rest, rfl⟩
  have hstop : ¬Cell.isWordChar ⟨q, false⟩ = true := by
    rw [Sealed.isWordChar (Or.inr hq)]
    exact Bool.false_ne_true
  have hnone : word? (⟨q, false⟩ :: rest) = none := by
    rw [word?, List.takeWhile_cons_of_neg hstop]
    rfl
  rw [sumParts?, hnone] at h
  exact absurd h (by simp)

theorem readAt_expression {column : String} {expression : List Cell} {assignment : Assignment}
    (hexpression : Balanced (trimCells expression))
    (h : readExpression sql column (trimCells expression) = .ok assignment) :
    ReadAt (.assigned, trimCells expression) (.assigned, assignment.value) := by
  rw [readExpression] at h
  split at h
  · rename_i hsum
    exact ⟨rfl, fun q hq hhead => absurd hhead (head?_ne_quote_of_sumParts? hsum hq)⟩
  · rcases exists_of_bind_eq_ok h with ⟨v, hv, h⟩
    rw [← Except.ok.inj h]
    exact readAt_trimCells hexpression (by decide) hv

theorem readAt_assigned {pieces : List (List Cell)} {seen : List String}
    {assignments : List Assignment} (hpieces : ∀ piece ∈ pieces, Balanced piece)
    (h : readAssignments sql seen pieces = .ok assignments) :
    List.Forall₂ ReadAt ((pieces.filterMap assignedPiece?).map fun piece => (.assigned, piece))
      (assignments.map fun assignment => (.assigned, assignment.value)) := by
  have hread := Statement.forall₂_of_readAssignments h
  clear h
  induction hread with
  | nil => exact .nil
  | @cons piece first pieces others hread _ ih =>
    rcases List.forall_mem_cons.mp hpieces with ⟨hpiece, hrest⟩
    rcases hread with ⟨column, expression, hparts, hfirst⟩
    -- The right side is cut out of a balanced piece, so it is balanced as well.
    have hbalanced : Balanced (trimCells expression) := by
      have hrel := SameShown.assignmentParts? hpiece
      rw [hparts] at hrel
      cases hrel with
      | some hafter => exact hafter.2.trimCells
    have hfound : assignedPiece? piece = some (trimCells expression) := by
      rw [assignedPiece?, hparts, Option.map_some]
    rw [List.filterMap_cons_some hfound]
    exact .cons (readAt_expression hbalanced hfirst) (ih hrest)

/-- The right side of a condition is a literal and nothing else, if it begins with a
    quote. -/
theorem readAt_condition {piece : List Cell} {condition : Condition} (hpiece : Balanced piece)
    (h : readCondition clause piece = .ok condition) :
    ∃ literal, comparedPiece? piece = some literal
      ∧ ReadAt (.compared, literal) (.compared, condition.value) := by
  rw [readCondition] at h
  split at h
  · exact absurd h (by simp)
  · rename_i column operator literal hparts
    split at h
    · exact absurd h (by simp)
    · rename_i htext
      rcases exists_of_bind_eq_ok h with ⟨v, hv, h⟩
      have hbalanced : Balanced literal := by
        have hrel := SameShown.comparison? hpiece
        rw [hparts] at hrel
        cases hrel with
        | some hafter => exact hafter.2.2
      refine ⟨trimCells literal, by rw [comparedPiece?, hparts, Option.map_some], rfl, ?_⟩
      intro q hq hhead
      rcases hbalanced.ofLiteral hv hq hhead with ⟨body, rest, hsplit, heq⟩
      refine ⟨body, rest, hsplit, ?_, fun _ => rest_eq_nil hq hsplit (by simpa using htext)⟩
      rw [← Except.ok.inj h]
      exact heq

theorem readAt_conditions {pieces : List (List Cell)} {conditions : List Condition}
    (hpieces : ∀ piece ∈ pieces, Balanced piece)
    (h : List.Forall₂ (fun piece condition => readCondition clause piece = .ok condition) pieces
      conditions) :
    List.Forall₂ (fun piece condition => ReadAt (.compared, piece) (.compared, condition.value))
      (pieces.filterMap comparedPiece?) conditions := by
  induction h with
  | nil => exact .nil
  | cons hcondition _ ih =>
    rcases List.forall_mem_cons.mp hpieces with ⟨hpiece, hrest⟩
    rcases readAt_condition hpiece hcondition with ⟨literal, hfound, hat⟩
    rw [List.filterMap_cons_some hfound]
    exact .cons hat (ih hrest)

theorem readAt_compared {conditions : List Condition} {clause : Option (List Cell)}
    (hclause : Option.Rel SameShown clause clause) (h : readOptionalWhere clause = .ok conditions) :
    List.Forall₂ ReadAt (comparedPieces clause) (comparedValues conditions) := by
  cases hclause with
  | none =>
    rw [← Except.ok.inj h]
    exact .nil
  | @some s _ hs =>
    have hpieces : ∀ piece ∈ (splitAtAnd 0 s).map trimCells, Balanced piece := by
      intro piece hpiece
      rcases List.mem_map.mp hpiece with ⟨w, hw, rfl⟩
      exact (List.forall₂_same.mp hs.splitAtAnd w hw).trimCells
    simp only [readOptionalWhere, readWhere] at h
    split at h
    · exact absurd h (by simp)
    · split at h
      · exact absurd h (by simp)
      · split at h
        · exact absurd h (by simp)
        · rw [comparedPieces, comparedValues, List.forall₂_map_left_iff,
            List.forall₂_map_right_iff]
          exact readAt_conditions hpieces (forall₂_of_mapM_eq_ok h)

end Places

namespace Statement

variable {s : List Cell} {sql : String} {statement : Statement}

theorem readAt_of_readInsert (hs : Balanced s) (h : readInsert sql s = .ok statement) :
    List.Forall₂ ReadAt (literalPieces .insert s) statement.literals := by
  have hparts := SameShown.insertParts? hs
  rw [readInsert] at h
  split at h
  · exact absurd h (by simp)
  · rename_i table columns values hfound
    rw [hfound] at hparts
    cases hparts with
    | some hp =>
      rcases exists_of_bind_eq_ok h with ⟨_, -, h⟩
      rcases exists_of_bind_eq_ok h with ⟨read, hread, h⟩
      simp only [literalPieces, hfound]
      rw [← Except.ok.inj h]
      exact readAt_inserted hp.2.2 hread

theorem readAt_of_readSelect (hs : Balanced s) (h : readSelect sql s = .ok statement) :
    List.Forall₂ ReadAt (literalPieces .select s) statement.literals := by
  have hparts := SameShown.selectParts? hs
  rw [readSelect] at h
  split at h
  · exact absurd h (by simp)
  · rename_i parts hfound
    rw [hfound] at hparts
    cases hparts with
    | some hp =>
      rcases exists_of_bind_eq_ok h with ⟨_, -, h⟩
      rcases exists_of_bind_eq_ok h with ⟨conditions, hconditions, h⟩
      rcases exists_of_bind_eq_ok h with ⟨_, -, h⟩
      rcases exists_of_bind_eq_ok h with ⟨_, -, h⟩
      rcases exists_of_bind_eq_ok h with ⟨_, -, h⟩
      simp only [literalPieces, hfound]
      rw [← Except.ok.inj h]
      exact readAt_compared hp.conditions hconditions

theorem readAt_of_readUpdate (hs : Balanced s) (h : readUpdate sql s = .ok statement) :
    List.Forall₂ ReadAt (literalPieces .update s) statement.literals := by
  have hparts := SameShown.updateParts? hs
  rw [readUpdate] at h
  split at h
  · exact absurd h (by simp)
  · rename_i table list clause hfound
    rw [hfound] at hparts
    cases hparts with
    | some hp =>
      rcases exists_of_bind_eq_ok h with ⟨pieces, hpieces, h⟩
      rcases exists_of_bind_eq_ok h with ⟨assignments, hassignments, h⟩
      rcases exists_of_bind_eq_ok h with ⟨conditions, hconditions, h⟩
      have hlist : listPieces list = pieces := by rw [listPieces, hpieces]
      simp only [literalPieces, hfound, hlist]
      rw [← Except.ok.inj h]
      refine List.rel_append ?_ (readAt_compared hp.2.2 hconditions)
      exact readAt_assigned
        (fun piece hpiece => (pieces_of_splitAtCommas hp.2.1 hpieces piece hpiece).1) hassignments

theorem readAt_of_readDelete (hs : Balanced s) (h : readDelete sql s = .ok statement) :
    List.Forall₂ ReadAt (literalPieces .delete s) statement.literals := by
  have hparts := SameShown.deleteParts? hs
  rw [readDelete] at h
  split at h
  · exact absurd h (by simp)
  · rename_i table clause hfound
    rw [hfound] at hparts
    cases hparts with
    | some hp =>
      rcases exists_of_bind_eq_ok h with ⟨conditions, hconditions, h⟩
      simp only [literalPieces, hfound]
      rw [← Except.ok.inj h]
      exact readAt_compared hp.2 hconditions

/-- Each literal of a statement that is read is read as a text. At the right side of a
    condition nothing follows it; among the values of an insertion and at the right side
    of an assignment text may follow, and is read as part of the value. -/
theorem readAt_of_ofText (h : ofText (some sql) = .ok statement) :
    ∃ cells, hideLiterals (dropSemicolon (Text.trimBlanks sql.toList)) = some cells
      ∧ List.Forall₂ ReadAt (literalPieces statement.kind cells) statement.literals := by
  rcases exists_marked h with ⟨_, chars, cells, kind, hsql, hchars, hcells, hread⟩
  obtain rfl := Option.some.inj hsql
  have hbalanced := (marking_of_hideLiterals hcells).balanced
  refine ⟨cells, by rw [← hchars, hcells], ?_⟩
  have hkind : statement.kind = kind := (plain_of_readAs hread).kind_eq
  rw [hkind]
  cases kind with
  | insert => exact readAt_of_readInsert hbalanced hread
  | select => exact readAt_of_readSelect hbalanced hread
  | update => exact readAt_of_readUpdate hbalanced hread
  | delete => exact readAt_of_readDelete hbalanced hread
  | createTable | dropTable | createIndex | dropIndex =>
    -- These statements have no literals at the three places.
    cases statement <;> first | exact .nil | exact absurd hkind (by simp [kind])

/-- A change that assigns a literal with text after it. -/
theorem readAt_of_ofText_runOn :
    ofText (some "UPDATE t SET a = 'b' c WHERE d = 'e'")
        = .ok (.update "t" [⟨"a", .text "'b' c", none⟩] [⟨"d", .equal, .text "e"⟩])
      ∧ ∃ cells, hideLiterals (dropSemicolon
          (Text.trimBlanks "UPDATE t SET a = 'b' c WHERE d = 'e'".toList)) = some cells
        ∧ List.Forall₂ ReadAt (literalPieces .update cells)
          [(.assigned, .text "'b' c"), (.compared, .text "e")] := by
  have hread : ofText (some "UPDATE t SET a = 'b' c WHERE d = 'e'")
      = .ok (.update "t" [⟨"a", .text "'b' c", none⟩] [⟨"d", .equal, .text "e"⟩]) := by
    decide +kernel
  exact ⟨hread, readAt_of_ofText hread⟩

/-- Text after a value that is inserted is not refused. -/
theorem text_after_inserted :
    ofText (some "INSERT INTO t VALUES ('a' b)") = .ok (.insert "t" none [.text "'a' b"])
      ∧ (hideLiterals "INSERT INTO t VALUES ('a' b)".toList).map (literalPieces .insert)
        = some [(.inserted, literalCells '\'' ['a'] ++ plain " b")] := by
  decide +kernel

end Statement

end TableStore
