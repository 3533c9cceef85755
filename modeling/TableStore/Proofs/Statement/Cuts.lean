import Mathlib.Data.List.TakeWhile
import TableStore.Proofs.Statement.Recognizer
import TableStore.Statement.Definition

/-!
# Statements Are Cut, Not Rearranged

Whatever the reader takes from a text stands in the text in one piece. A recognizer leaves
an end of the text, a clause is the beginning of such an end, and the pieces of a list stand
one after the other. So a piece, however it was come by, is a run of the cells of the
statement, and it has a place.

Numbers of a query are not kept as pieces but as the values of their digits. Of these it is
said that the text has a run of as many digits.

## Main definitions

* `HasDigits`: A run of digits outside of literals.
* `CutInto`: Pieces that stand in a text.
* `SelectParts.Within`: The clauses of a query that stand in a text.

## Theorems

* `suffix_word?`, `suffix_mark?`, `suffix_option?`: What is left after a recognizer.
* `exists_of_shortestPrefix?`: The place at which a clause ends.
* `cutInto_piecesWithin`, `cutInto_splitAtAnd`: Lists and conditions are cut up.
* `infix_createTableParts?`, `infix_insertParts?`, `selectParts?_within`,
  `infix_updateParts?`, `infix_deleteParts?`: The clauses of statements.
* `suffix_nameAndType?`, `constraint?_cuts`, `suffix_comparison?`,
  `suffix_assignmentParts?`, `suffix_sumParts?`: The parts of items.
-/

namespace TableStore

variable {s rest : List Cell}

section Suffix

theorem suffix_skipBlanks (s : List Cell) : skipBlanks s <:+ s :=
  List.dropWhile_suffix _

theorem suffix_option? (words : List String) (s : List Cell) : (option? words s).2 <:+ s := by
  rw [option?]
  split
  · rename_i rest h
    rcases Option.bind_eq_some_iff.mp h with ⟨after, hafter, hblanks⟩
    exact (suffix_blanks? hblanks).1.trans (suffix_phrase? hafter)
  · exact List.suffix_refl s

theorem suffix_word? {name : String} (h : word? s = some (name, rest)) :
    rest <:+ s := by
  rw [word?] at h
  split at h
  · exact absurd h (by simp)
  · rw [← (Prod.mk.inj (Option.some.inj h)).2]
    exact List.dropWhile_suffix _

theorem suffix_mark? {a : Char} (h : mark? a s = some rest) : rest <:+ s := by
  cases s with
  | nil => exact absurd h (by simp [mark?])
  | cons c s =>
    rw [mark?] at h
    split at h
    · exact Option.some.inj h ▸ List.suffix_cons c s
    · exact absurd h (by simp)

theorem suffix_untilClosing? {inside : List Cell}
    (h : untilClosing? s = some (inside, rest)) : rest <:+ s := by
  induction s generalizing inside with
  | nil => exact absurd h (by simp [untilClosing?])
  | cons c s ih =>
    rw [untilClosing?] at h
    split at h
    · rw [← (Prod.mk.inj (Option.some.inj h)).2]
      exact List.suffix_cons c s
    · rcases Option.map_eq_some_iff.mp h with ⟨⟨_, _⟩, hrest, heq⟩
      obtain rfl := (Prod.mk.inj heq).2
      exact (ih hrest).trans (List.suffix_cons c s)

/-- What is in parentheses that a text ends with is all but the last cell. -/
theorem prefix_enclosed? {inside : List Cell} (h : enclosed? s = some inside) : inside <+: s := by
  rw [enclosed?] at h
  split at h
  · split at h
    · exact Option.some.inj h ▸ List.dropLast_prefix s
    · exact absurd h (by simp)
  · exact absurd h (by simp)

/-- A name can be split at any place, and what is read then comes after it. -/
theorem exists_of_someWordSplit? {α : Type} {f : String → List Cell → Option α} {a : α}
    (h : someWordSplit? f s = some a) : ∃ name rest, rest <:+ s ∧ f name rest = some a := by
  rcases List.exists_of_findSome?_eq_some h with ⟨i, -, hread⟩
  exact ⟨_, _, List.drop_suffix _ s, hread⟩

/-- The shortest clause and the text from which the rest was read make up the text. -/
theorem exists_of_shortestPrefix? {α : Type} {f : List Cell → Option α} {clause : List Cell}
    {a : α} (h : shortestPrefix? f s = some (clause, a)) :
    ∃ rest, s = clause ++ rest ∧ f rest = some a := by
  induction s generalizing clause with
  | nil => exact absurd h (by simp [shortestPrefix?])
  | cons c s ih =>
    rw [shortestPrefix?] at h
    split at h
    · rename_i hread
      rcases Prod.mk.inj (Option.some.inj h) with ⟨rfl, rfl⟩
      exact ⟨s, rfl, hread⟩
    · rcases Option.map_eq_some_iff.mp h with ⟨⟨before, _⟩, hlater, heq⟩
      rcases Prod.mk.inj heq with ⟨rfl, rfl⟩
      rcases ih hlater with ⟨rest, rfl, hread⟩
      exact ⟨rest, rfl, hread⟩

/-- What is cut off, and what is read behind it, stand in the text. -/
theorem infix_shortestPrefix? {α : Type} {f : List Cell → Option α} {clause : List Cell} {a : α}
    (h : shortestPrefix? f s = some (clause, a)) :
    clause <:+: s ∧ ∃ rest, rest <:+: s ∧ f rest = some a := by
  rcases exists_of_shortestPrefix? h with ⟨rest, rfl, hread⟩
  exact ⟨(List.prefix_append clause rest).isInfix, rest,
    (List.suffix_append clause rest).isInfix, hread⟩

end Suffix

/-- A run of decimal digits of the given length outside of literals. -/
def HasDigits (n : Nat) (s : List Cell) : Prop :=
  ∃ run, run <:+: s ∧ run.length = n ∧ ∀ c ∈ run, c.hidden = false ∧ Text.isDigit c.char = true

theorem HasDigits.mono {n : Nat} {t : List Cell} (h : HasDigits n s) (hs : s <:+: t) :
    HasDigits n t := by
  rcases h with ⟨run, hrun, hlength, hdigits⟩
  exact ⟨run, hrun.trans hs, hlength, hdigits⟩

/-- A cell that shows a digit is not hidden. -/
theorem Cell.digit_of_visible {c : Cell} (h : Text.isDigit c.visible = true) :
    c.hidden = false ∧ Text.isDigit c.char = true := by
  rcases c with ⟨a, _ | _⟩
  · exact ⟨rfl, h⟩
  · have hmark : Text.isDigit '#' = true := h
    exact absurd hmark (by decide)

theorem digits?_cuts {digits : List Nat} (h : digits? s = some (digits, rest)) :
    HasDigits digits.length s ∧ rest <:+ s := by
  rw [digits?] at h
  split at h
  · exact absurd h (by simp)
  · rcases Prod.mk.inj (Option.some.inj h) with ⟨rfl, rfl⟩
    have hshown : ∀ c ∈ s.takeWhile fun c => Text.isDigit c.visible,
        Text.isDigit c.visible = true := by
      intro c hc
      have hdigit := List.mem_takeWhile_imp hc
      exact hdigit
    exact ⟨⟨_, (List.takeWhile_prefix _).isInfix,
      (List.filterMap_length_eq_length.mpr hshown).symm,
      fun c hc => Cell.digit_of_visible (hshown c hc)⟩, List.dropWhile_suffix _⟩

section Lists

/-- Pieces that stand in a text, the first of them at its beginning. -/
def CutInto (s : List Cell) : List (List Cell) → Prop
  | [] => False
  | first :: others => first <+: s ∧ ∀ piece ∈ others, piece <:+: s

namespace CutInto

variable {pieces : List (List Cell)}

theorem isInfix (h : CutInto s pieces) {piece : List Cell} (hpiece : piece ∈ pieces) :
    piece <:+: s := by
  cases pieces with
  | nil => exact absurd h id
  | cons first others =>
    rcases List.mem_cons.mp hpiece with rfl | hmem
    · exact h.1.isInfix
    · exact h.2 _ hmem

/-- The first piece takes one more cell. -/
theorem consWord (h : CutInto s pieces) (c : Cell) : CutInto (c :: s) (Text.consWord c pieces) := by
  cases pieces with
  | nil => exact absurd h id
  | cons first others =>
    exact ⟨List.prefix_cons_inj c |>.mpr h.1, fun piece hpiece => List.infix_cons (h.2 _ hpiece)⟩

/-- A piece that has just begun. -/
theorem fresh (h : CutInto rest pieces) (hs : rest <:+ s) : CutInto s ([] :: pieces) :=
  ⟨List.nil_prefix, fun _ hpiece => (h.isInfix hpiece).trans hs.isInfix⟩

end CutInto

/-- The pieces of a list stand in it. -/
theorem cutInto_piecesWithin {depth : Nat} {pieces : List (List Cell)}
    (h : piecesWithin depth s = some pieces) : CutInto s pieces := by
  induction s generalizing depth pieces with
  | nil =>
    cases depth with
    | zero => exact Option.some.inj h ▸ ⟨List.nil_prefix, fun _ hpiece => absurd hpiece (by simp)⟩
    | succ depth => exact absurd h (by simp [piecesWithin])
  | cons c s ih =>
    -- A cell either goes to the piece that has begun, or it is a comma and ends it.
    have hgoes : ∀ {depth}, (piecesWithin depth s).map (Text.consWord c) = some pieces →
        CutInto (c :: s) pieces := by
      intro depth hmap
      rcases Option.map_eq_some_iff.mp hmap with ⟨others, hothers, rfl⟩
      exact (ih hothers).consWord c
    have hends : ∀ {depth}, (piecesWithin depth s).map ([] :: ·) = some pieces →
        CutInto (c :: s) pieces := by
      intro depth hmap
      rcases Option.map_eq_some_iff.mp hmap with ⟨others, hothers, rfl⟩
      exact (ih hothers).fresh (List.suffix_cons c s)
    cases depth with
    | zero =>
      rw [piecesWithin] at h
      split at h
      · exact hgoes h
      · split at h
        · exact absurd h (by simp)
        · split at h
          · exact hends h
          · exact hgoes h
    | succ depth =>
      rw [piecesWithin] at h
      split at h
      · exact hgoes h
      · split at h
        · exact hgoes h
        · split at h
          · exact hends h
          · exact hgoes h

/-- The conditions of a clause stand in it. -/
theorem cutInto_splitAtAnd (s : List Cell) : CutInto s (splitAtAnd 0 s) := by
  -- After the word AND the search goes on in the rest, which is shorter.
  generalize hlength : s.length = n
  induction n using Nat.strongRecOn generalizing s with
  | ind n ih =>
    cases s with
    | nil =>
      rw [splitAtAnd_nil]
      exact ⟨List.nil_prefix, fun _ hpiece => absurd hpiece (by simp)⟩
    | cons c s =>
      rw [splitAtAnd_cons]
      split
      · rename_i rest hand
        rcases suffix_spacedPhrase? hand with ⟨hsuffix, hlt⟩
        exact (ih _ (by rw [← hlength]; exact hlt) rest rfl).fresh hsuffix
      · exact (ih s.length (by rw [← hlength]; exact Nat.lt_succ_self _) s rfl).consWord c

end Lists

section Clauses

theorem suffix_columnList (s : List Cell) : (columnList s).2 <:+ s := by
  rw [columnList]
  split
  · rename_i names rest h
    rcases Option.bind_eq_some_iff.mp h with ⟨after, hafter, hclosing⟩
    exact (suffix_skipBlanks rest).trans
      ((suffix_untilClosing? hclosing).trans (suffix_mark? hafter))
  · exact List.suffix_refl s

theorem infix_createTableParts? {mayExist : Bool} {table : String} {body : List Cell}
    (h : createTableParts? s = some (mayExist, table, body)) : body <:+: s := by
  simp only [createTableParts?, Option.bind_eq_bind, Option.bind_eq_some_iff] at h
  rcases h with ⟨s₁, h₁, s₂, h₂, ⟨name, s₄⟩, h₄, s₅, h₅, inside, h₆, hsame⟩
  obtain rfl := (Prod.mk.inj (Prod.mk.inj (Option.some.inj hsame)).2).2
  exact (prefix_enclosed? h₆).isInfix.trans <| List.IsSuffix.isInfix <|
    (suffix_mark? h₅).trans <| (suffix_skipBlanks s₄).trans <| (suffix_word? h₄).trans <|
    (suffix_option? _ s₂).trans <| (suffix_blanks? h₂).1.trans (suffix_phrase? h₁)

theorem infix_insertParts? {table : String} {columns : Option (List Cell)} {values : List Cell}
    (h : insertParts? s = some (table, columns, values)) : values <:+: s := by
  simp only [insertParts?, Option.bind_eq_bind, Option.bind_eq_some_iff] at h
  rcases h with ⟨s₁, h₁, s₂, h₂, h⟩
  rcases exists_of_someWordSplit? h with ⟨name, s₃, h₃, h⟩
  rcases Option.map_eq_some_iff.mp h with ⟨⟨list, body⟩, hlists, heq⟩
  obtain rfl := (Prod.mk.inj (Prod.mk.inj heq).2).2
  simp only [insertLists?, Option.bind_eq_bind, Option.bind_eq_some_iff] at hlists
  rcases hlists with ⟨s₄, h₄, s₅, h₅, inside, h₆, hsame⟩
  obtain rfl := (Prod.mk.inj (Option.some.inj hsame)).2
  exact (prefix_enclosed? h₆).isInfix.trans <| List.IsSuffix.isInfix <|
    (suffix_mark? h₅).trans <| (suffix_skipBlanks s₄).trans <| (suffix_letters? h₄).trans <|
    (suffix_columnList _).trans <| (suffix_skipBlanks s₃).trans <| h₃.trans <|
    (suffix_blanks? h₂).1.trans (suffix_phrase? h₁)

/-- The clauses of a query that stand in a text. The numbers are those of digits in it. -/
structure SelectParts.Within (parts : SelectParts) (s : List Cell) : Prop where
  items : parts.items <:+: s
  conditions : ∀ clause, parts.conditions = some clause → clause <:+: s
  order : ∀ clause, parts.order = some clause → clause <:+: s
  limit : ∀ digits, parts.limit = some digits → HasDigits digits.length s
  offset : ∀ digits, parts.offset = some digits → HasDigits digits.length s

theorem SelectParts.Within.mono {parts : SelectParts} {t : List Cell} (h : parts.Within s)
    (hs : s <:+: t) : parts.Within t where
  items := h.items.trans hs
  conditions clause hc := (h.conditions clause hc).trans hs
  order clause hc := (h.order clause hc).trans hs
  limit digits hd := (h.limit digits hd).mono hs
  offset digits hd := (h.offset digits hd).mono hs

theorem count?_cuts (w : String) (s : List Cell) :
    (∀ digits, (count? w s).1 = some digits → HasDigits digits.length s)
      ∧ (count? w s).2 <:+ s := by
  rw [count?]
  split
  · rename_i found rest h
    rcases Option.bind_eq_some_iff.mp h with ⟨after, hafter, hdigits⟩
    have hsuffix := (suffix_spacedPhrase? hafter).1
    rcases digits?_cuts hdigits with ⟨hrun, hrest⟩
    exact ⟨fun digits hsame => Option.some.inj hsame ▸ hrun.mono hsuffix.isInfix,
      hrest.trans hsuffix⟩
  · exact ⟨fun _ hnone => absurd hnone (by simp), List.suffix_refl s⟩

variable {table : String} {conditions order : Option (List Cell)} {limit offset : Option (List Nat)}

-- The clauses are read from the last one on, and each step adds one to those after it.

theorem counts?_within (h : counts? s = some (limit, offset)) :
    SelectParts.Within ⟨[], table, none, none, limit, offset⟩ s := by
  simp only [counts?, Option.bind_eq_bind, Option.bind_eq_some_iff] at h
  rcases h with ⟨_, -, hsame⟩
  rcases Prod.mk.inj (Option.some.inj hsame) with ⟨rfl, rfl⟩
  rcases count?_cuts "LIMIT" s with ⟨hlimit, hafter⟩
  exact ⟨List.nil_infix, fun _ hnone => absurd hnone (by simp),
    fun _ hnone => absurd hnone (by simp), hlimit,
    fun digits hd => ((count?_cuts "OFFSET" _).1 digits hd).mono hafter.isInfix⟩

/-- A clause after its words, and what is read behind it. -/
theorem infix_clause {α : Type} {words : List String} {f : List Cell → Option α}
    {clause : List Cell} {a : α}
    (h : (spacedPhrase? words s).bind (shortestPrefix? f) = some (clause, a)) :
    clause <:+: s ∧ ∃ rest, rest <:+: s ∧ f rest = some a := by
  rcases Option.bind_eq_some_iff.mp h with ⟨after, hafter, hshortest⟩
  rcases infix_shortestPrefix? hshortest with ⟨hclause, rest, hrest, hread⟩
  have hsuffix := (suffix_spacedPhrase? hafter).1.isInfix
  exact ⟨hclause.trans hsuffix, rest, hrest.trans hsuffix, hread⟩

theorem orderAndCounts?_within (h : orderAndCounts? s = some (order, limit, offset)) :
    SelectParts.Within ⟨[], table, none, order, limit, offset⟩ s := by
  rw [orderAndCounts?] at h
  split at h
  · rename_i clause found hfound
    rcases infix_clause hfound with ⟨hclause, rest, hrest, hread⟩
    rcases Prod.mk.inj (Option.some.inj h) with ⟨rfl, rfl⟩
    have hcounts : SelectParts.Within ⟨[], table, none, none, limit, offset⟩ s :=
      (counts?_within hread).mono hrest
    exact { hcounts with order := fun other hsame => Option.some.inj hsame ▸ hclause }
  · rcases Option.map_eq_some_iff.mp h with ⟨found, hcounts, hsame⟩
    rcases Prod.mk.inj hsame with ⟨rfl, rfl⟩
    exact counts?_within hcounts

theorem clauses?_within (h : clauses? s = some (conditions, order, limit, offset)) :
    SelectParts.Within ⟨[], table, conditions, order, limit, offset⟩ s := by
  rw [clauses?] at h
  split at h
  · rename_i clause found hfound
    rcases infix_clause hfound with ⟨hclause, rest, hrest, hread⟩
    rcases Prod.mk.inj (Option.some.inj h) with ⟨rfl, rfl⟩
    have horder : SelectParts.Within ⟨[], table, none, order, limit, offset⟩ s :=
      (orderAndCounts?_within hread).mono hrest
    exact { horder with conditions := fun other hsame => Option.some.inj hsame ▸ hclause }
  · rcases Option.map_eq_some_iff.mp h with ⟨found, horder, hsame⟩
    rcases Prod.mk.inj hsame with ⟨rfl, rfl⟩
    exact orderAndCounts?_within horder

theorem fromTable?_within {parts : SelectParts} (h : fromTable? s = some parts) :
    parts.Within s := by
  simp only [fromTable?, Option.bind_eq_bind, Option.bind_eq_some_iff] at h
  rcases h with ⟨s₁, h₁, ⟨table, s₂⟩, h₂, ⟨conditions, order, limit, offset⟩, h₃, hsame⟩
  rw [← Option.some.inj hsame]
  exact (clauses?_within h₃).mono ((suffix_word? h₂).trans (suffix_spacedPhrase? h₁).1).isInfix

/-- The clauses of a query stand in it. -/
theorem selectParts?_within {parts : SelectParts} (h : selectParts? s = some parts) :
    parts.Within s := by
  simp only [selectParts?, Option.bind_eq_bind, Option.bind_eq_some_iff] at h
  rcases h with ⟨s₁, h₁, h⟩
  rcases List.exists_of_findSome?_eq_some h with ⟨i, -, hread⟩
  rcases Option.map_eq_some_iff.mp hread with ⟨⟨items, found⟩, hshortest, rfl⟩
  rcases infix_shortestPrefix? hshortest with ⟨hitems, rest, hrest, hread⟩
  -- The items may begin among the blanks after the first word, so they are cut from an end of it.
  have hsuffix : ∀ n, s₁.drop n <:+: s := fun n =>
    ((List.drop_suffix n s₁).trans (suffix_phrase? h₁)).isInfix
  have hfound := (fromTable?_within hread).mono (hrest.trans (hsuffix _))
  exact { hfound with items := hitems.trans (hsuffix _) }

theorem suffix_whereClause? {clause : List Cell} (h : whereClause? s = some clause) :
    clause <:+ s := by
  simp only [whereClause?, Option.bind_eq_bind, Option.bind_eq_some_iff] at h
  rcases h with ⟨s₁, h₁, h⟩
  split at h
  · exact absurd h (by simp)
  · exact Option.some.inj h ▸ (suffix_spacedPhrase? h₁).1

theorem infix_updateParts? {assignments : List Cell}
    (h : updateParts? s = some (table, assignments, conditions)) :
    assignments <:+: s ∧ ∀ clause, conditions = some clause → clause <:+: s := by
  simp only [updateParts?, Option.bind_eq_bind, Option.bind_eq_some_iff] at h
  rcases h with ⟨s₁, h₁, s₂, h₂, ⟨name, s₃⟩, h₃, s₄, h₄, ⟨list, found⟩, h₅, hsame⟩
  rcases Prod.mk.inj (Prod.mk.inj (Option.some.inj hsame)).2 with ⟨rfl, rfl⟩
  have hsuffix : s₄ <:+: s := ((suffix_spacedPhrase? h₄).1.trans <| (suffix_word? h₃).trans <|
    (suffix_blanks? h₂).1.trans (suffix_phrase? h₁)).isInfix
  rw [upToWhere?] at h₅
  split at h₅
  · rename_i clause after hclause
    rcases Prod.mk.inj (Option.some.inj h₅) with ⟨rfl, rfl⟩
    rcases infix_shortestPrefix? hclause with ⟨hassignments, rest, hrest, hread⟩
    refine ⟨hassignments.trans hsuffix, fun other hsame => ?_⟩
    rw [← Option.some.inj hsame]
    exact (suffix_whereClause? hread).isInfix.trans (hrest.trans hsuffix)
  · split at h₅
    · exact absurd h₅ (by simp)
    · rcases Prod.mk.inj (Option.some.inj h₅) with ⟨rfl, rfl⟩
      exact ⟨hsuffix, fun _ hnone => absurd hnone (by simp)⟩

theorem infix_deleteParts? {clause : List Cell} (h : deleteParts? s = some (table, some clause)) :
    clause <:+: s := by
  simp only [deleteParts?, Option.bind_eq_bind, Option.bind_eq_some_iff] at h
  rcases h with ⟨s₁, h₁, s₂, h₂, ⟨name, s₃⟩, h₃, h⟩
  dsimp only at h
  split at h
  · rename_i found hfound
    obtain rfl := Option.some.inj (Prod.mk.inj (Option.some.inj h)).2
    exact ((suffix_whereClause? hfound).trans <| (suffix_word? h₃).trans <|
      (suffix_blanks? h₂).1.trans (suffix_phrase? h₁)).isInfix
  · split at h <;> exact absurd h (by simp)

end Clauses

section Items

theorem suffix_skipLength (s : List Cell) : skipLength s <:+ s := by
  rw [skipLength]
  split
  · rename_i inside rest h
    rcases Option.bind_eq_some_iff.mp h with ⟨after, hafter, hclosing⟩
    exact (suffix_untilClosing? hclosing).trans ((suffix_mark? hafter).trans (suffix_skipBlanks s))
  · exact List.suffix_refl s

theorem suffix_nameAndType? {name typeName : String}
    (h : nameAndType? s = some (name, typeName, rest)) : rest <:+ s := by
  simp only [nameAndType?, Option.bind_eq_bind, Option.bind_eq_some_iff] at h
  rcases h with ⟨⟨_, s₁⟩, h₁, s₂, h₂, ⟨_, s₃⟩, h₃, hsame⟩
  obtain rfl := (Prod.mk.inj (Prod.mk.inj (Option.some.inj hsame)).2).2
  exact (suffix_skipLength s₃).trans <| (suffix_word? h₃).trans <|
    (suffix_blanks? h₂).1.trans (suffix_word? h₁)

/-- One of two options gives the result. -/
theorem orElse_eq_some {α : Type} {x y : Option α} {a : α} (h : (x <|> y) = some a) :
    x = some a ∨ y = some a := by
  cases x with
  | none => exact Or.inr h
  | some b => exact Or.inl h

theorem constraintPhrase?_cuts {words : List String} {constraint read : Constraint}
    (h : constraintPhrase? words constraint s = some (read, rest)) :
    read = constraint ∧ rest <:+ s := by
  simp only [constraintPhrase?, Option.bind_eq_bind, Option.bind_eq_some_iff] at h
  rcases h with ⟨after, hafter, h⟩
  have hsame : constraint = read ∧ after = rest := by
    split at h
    · exact Prod.mk.inj (Option.some.inj h)
    · split at h
      · exact Prod.mk.inj (Option.some.inj h)
      · exact absurd h (by simp)
  exact ⟨hsame.1.symm, hsame.2 ▸ suffix_phrase? hafter⟩

theorem default?_cuts {constraint : Constraint} (h : default? s = some (constraint, rest)) :
    ∃ literal, constraint = .default literal ∧ literal <:+: s ∧ rest <:+ s := by
  simp only [default?, Option.bind_eq_bind, Option.bind_eq_some_iff] at h
  rcases h with ⟨s₁, h₁, s₂, h₂, h⟩
  split at h
  · exact absurd h (by simp)
  · rcases Prod.mk.inj (Option.some.inj h) with ⟨rfl, rfl⟩
    have hsuffix := (suffix_blanks? h₂).1.trans (suffix_letters? h₁)
    exact ⟨_, rfl, (List.takeWhile_prefix _).isInfix.trans hsuffix.isInfix,
      (List.dropWhile_suffix _).trans hsuffix⟩

/-- A constraint takes something of the text, and its default stands there. -/
theorem constraint?_cuts {constraint : Constraint} (h : constraint? s = some (constraint, rest)) :
    rest <:+ s ∧ rest.length < s.length
      ∧ ∀ literal, constraint = .default literal → literal <:+: s := by
  simp only [constraint?, Option.bind_eq_bind, Option.bind_eq_some_iff] at h
  rcases h with ⟨after, hafter, h⟩
  rcases suffix_blanks? hafter with ⟨hsuffix, hlt⟩
  have hcuts : rest <:+ after ∧ ∀ literal, constraint = .default literal → literal <:+: after := by
    -- Three of the four alternatives are phrases, and these have no default.
    have hphrase : ∀ {words : List String} {c : Constraint}, (∀ literal, c ≠ .default literal) →
        constraintPhrase? words c after = some (constraint, rest) →
        rest <:+ after ∧ ∀ literal, constraint = .default literal → literal <:+: after := by
      intro words c hc hread
      rcases constraintPhrase?_cuts hread with ⟨rfl, hrest⟩
      exact ⟨hrest, fun literal hsame => absurd hsame (hc literal)⟩
    rcases orElse_eq_some h with h | h
    · exact hphrase (by simp) h
    · rcases orElse_eq_some h with h | h
      · exact hphrase (by simp) h
      · rcases orElse_eq_some h with h | h
        · exact hphrase (by simp) h
        · rcases default?_cuts h with ⟨literal, rfl, hliteral, hrest⟩
          exact ⟨hrest, fun other hsame => Constraint.default.inj hsame ▸ hliteral⟩
  exact ⟨hcuts.1.trans hsuffix, Nat.lt_of_le_of_lt hcuts.1.length_le hlt,
    fun literal hsame => (hcuts.2 literal hsame).trans hsuffix.isInfix⟩

theorem suffix_operators {operator : ComparisonOperator} (h : (operator, rest) ∈ operators s) :
    rest <:+ s := by
  have hsymbol : ∀ {symbol : String} {known : ComparisonOperator},
      symbolOperator? symbol known s = some (operator, rest) → rest <:+ s := by
    intro symbol known hread
    rcases Option.map_eq_some_iff.mp hread with ⟨after, hafter, hsame⟩
    exact (Prod.mk.inj hsame).2 ▸ suffix_letters? hafter
  have hword : ∀ {words : List String},
      wordOperator? words s = some (operator, rest) → rest <:+ s := by
    intro words hread
    simp only [wordOperator?, Option.bind_eq_bind, Option.bind_eq_some_iff] at hread
    rcases hread with ⟨after, hafter, hread⟩
    split at hread
    · exact absurd hread (by simp)
    · split at hread
      · exact (Prod.mk.inj (Option.some.inj hread)).2 ▸ suffix_phrase? hafter
      · exact absurd hread (by simp)
  simp only [operators, List.mem_filterMap, id_eq, exists_eq_right, List.mem_cons, List.not_mem_nil,
    or_false] at h
  rcases h with h | h | h | h | h | h | h | h | h
  all_goals first | exact hsymbol h.symm | exact hword h.symm

theorem suffix_comparison? {column : String} {operator : ComparisonOperator} {literal : List Cell}
    (h : comparison? s = some (column, operator, literal)) : literal <:+ s := by
  rcases exists_of_someWordSplit? h with ⟨name, after, hafter, hread⟩
  rcases Option.map_eq_some_iff.mp hread with ⟨⟨found, value⟩, hfound, hsame⟩
  obtain rfl := (Prod.mk.inj (Prod.mk.inj hsame).2).2
  rcases List.exists_of_findSome?_eq_some hfound with ⟨⟨known, rest⟩, hknown, hliteral⟩
  dsimp only at hliteral
  split at hliteral
  · exact absurd hliteral (by simp)
  · obtain rfl := (Prod.mk.inj (Option.some.inj hliteral)).2
    exact (suffix_skipBlanks rest).trans <| (suffix_operators hknown).trans <|
      (suffix_skipBlanks after).trans hafter

theorem suffix_assignmentParts? {column : String} {expression : List Cell}
    (h : assignmentParts? s = some (column, expression)) : expression <:+ s := by
  simp only [assignmentParts?, Option.bind_eq_bind, Option.bind_eq_some_iff] at h
  rcases h with ⟨⟨name, s₁⟩, h₁, s₂, h₂, h⟩
  split at h
  · exact absurd h (by simp)
  · obtain rfl := (Prod.mk.inj (Option.some.inj h)).2
    exact (suffix_skipBlanks s₂).trans <| (suffix_mark? h₂).trans <|
      (suffix_skipBlanks s₁).trans (suffix_word? h₁)

theorem suffix_arithmetic? {sign : Arithmetic} (h : arithmetic? s = some (sign, rest)) :
    rest <:+ s := by
  cases s with
  | nil => exact absurd h (by simp [arithmetic?])
  | cons c s =>
    have hsame : s = rest := by
      rw [arithmetic?] at h
      split at h
      · exact (Prod.mk.inj (Option.some.inj h)).2
      · split at h
        · exact (Prod.mk.inj (Option.some.inj h)).2
        · exact absurd h (by simp)
    exact hsame ▸ List.suffix_cons c s

theorem suffix_sumParts? {column : String} {sign : Arithmetic} {number : List Cell}
    (h : sumParts? s = some (column, sign, number)) : number <:+ s := by
  simp only [sumParts?, Option.bind_eq_bind, Option.bind_eq_some_iff] at h
  rcases h with ⟨⟨name, s₁⟩, h₁, ⟨found, s₂⟩, h₂, h⟩
  split at h
  · obtain rfl := (Prod.mk.inj (Prod.mk.inj (Option.some.inj h)).2).2
    exact (suffix_skipBlanks s₂).trans <| (suffix_arithmetic? h₂).trans <|
      (suffix_skipBlanks s₁).trans (suffix_word? h₁)
  · exact absurd h (by simp)

end Items

end TableStore
