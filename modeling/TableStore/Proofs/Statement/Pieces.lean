import TableStore.Proofs.Statement.AlikeDefinition
import TableStore.Proofs.Statement.LiteralPlaces

/-!
# The Two Texts of a Piece

A reader of statements can do with two texts: that of the statement, and the same text with
the contents of its literals masked. It finds a piece in the masked text and takes from the
other text what stands at the same places, and when it takes the blanks off a piece, it takes
them off each of the two texts. Nothing keeps the two together but that they are cut alike, so
one blank too many at an end, and all places after it are those of other characters.

Here the two texts of a piece are followed through all cuts. They stay in step because no cut
is inside a literal. A piece is then balanced, and the blanks at its ends are outside of its
literals, where both texts are the same. For the same reason a piece that begins with a quote
has the closing quote as well.

## Main definitions

* `Takes`: The pieces that are taken from a piece.
* `Holds`: The two texts that a reader has of a piece.
* `InStep`: Two texts that are those of the same cells of a statement.

## Theorems

* `Takes.isInfix`: What is taken from a piece stands in it.
* `Takes.balanced`: No piece is cut inside a literal.
* `Holds.inStep`: The two texts of a piece stay in step.
-/

namespace TableStore

/-- The pieces that are taken from a piece: the clauses of a statement, the items of a list, the
    conditions of a clause, the constraints of a column, and the literals in these. -/
inductive Takes : List Cell → List Cell → Prop
  | columns {p q : List Cell} {mayExist : Bool} {table : String}
      (h : createTableParts? p = some (mayExist, table, q)) : Takes p q
  | values {p q : List Cell} {table : String} {columns : Option (List Cell)}
      (h : insertParts? p = some (table, columns, q)) : Takes p q
  | items {p : List Cell} {parts : SelectParts} (h : selectParts? p = some parts) :
      Takes p parts.items
  | queried {p q : List Cell} {parts : SelectParts} (h : selectParts? p = some parts)
      (hq : parts.conditions = some q) : Takes p q
  | order {p q : List Cell} {parts : SelectParts} (h : selectParts? p = some parts)
      (hq : parts.order = some q) : Takes p q
  | assignments {p q : List Cell} {table : String} {conditions : Option (List Cell)}
      (h : updateParts? p = some (table, q, conditions)) : Takes p q
  | changed {p q : List Cell} {table : String} {assignments : List Cell}
      (h : updateParts? p = some (table, assignments, some q)) : Takes p q
  | removed {p q : List Cell} {table : String} (h : deleteParts? p = some (table, some q)) :
      Takes p q
  | item {p q : List Cell} {pieces : List (List Cell)} (h : piecesWithin 0 p = some pieces)
      (hq : q ∈ pieces) : Takes p q
  | condition {p q : List Cell} (hq : q ∈ splitAtAnd 0 p) : Takes p q
  | constraints {p q : List Cell} {name typeName : String}
      (h : nameAndType? p = some (name, typeName, q)) : Takes p q
  | laterConstraints {p q : List Cell} {constraint : Constraint}
      (h : constraint? p = some (constraint, q)) : Takes p q
  | default {p q rest : List Cell} (h : constraint? p = some (.default q, rest)) : Takes p q
  | compared {p q : List Cell} {column : String} {operator : ComparisonOperator}
      (h : comparison? p = some (column, operator, q)) : Takes p q
  | assigned {p q : List Cell} {column : String} (h : assignmentParts? p = some (column, q)) :
      Takes p q
  | summand {p q : List Cell} {column : String} {sign : Arithmetic}
      (h : sumParts? p = some (column, sign, q)) : Takes p q

/-- The text and the masked text that a reader of a statement has of a piece. Both are cut at
    places that are found in the masked text, and each is freed of its own blanks. -/
inductive Holds (s : List Cell) : List Cell → List Char → List Char → Prop
  | statement : Holds s s (cellChars s) (s.map Cell.visible)
  | slice {p q before after : List Cell} {text masked : List Char} (h : Holds s p text masked)
      (hq : Takes p q) (hplace : p = before ++ (q ++ after)) :
      Holds s q ((text.drop before.length).take q.length)
        ((masked.drop before.length).take q.length)
  | trimmed {p : List Cell} {text masked : List Char} (h : Holds s p text masked) :
      Holds s (trimCells p) (Text.trimBlanks text) (Text.trimBlanks masked)

/-- Two texts that are those of the same cells of a statement, in which a literal that they
    begin with is closed. -/
structure InStep (s p : List Cell) (text masked : List Char) : Prop where
  stands : p <:+: s
  text_eq : text = cellChars p
  masked_eq : masked = p.map Cell.visible
  closes : ∀ a rest, isQuote a = true → masked = a :: rest → a ∈ rest

variable {s p q : List Cell}

namespace Takes

/-- What is taken from a piece stands in it. -/
theorem isInfix (h : Takes p q) : q <:+: p := by
  cases h with
  | columns h => exact infix_createTableParts? h
  | values h => exact infix_insertParts? h
  | items h => exact (selectParts?_within h).items
  | queried h hq => exact (selectParts?_within h).conditions _ hq
  | order h hq => exact (selectParts?_within h).order _ hq
  | assignments h => exact (infix_updateParts? h).1
  | changed h => exact (infix_updateParts? h).2 _ rfl
  | removed h => exact infix_deleteParts? h
  | item h hq => exact (cutInto_piecesWithin h).isInfix hq
  | condition hq => exact (cutInto_splitAtAnd p).isInfix hq
  | constraints h => exact (suffix_nameAndType? h).isInfix
  | laterConstraints h => exact (constraint?_cuts h).1.isInfix
  | default h => exact (constraint?_cuts h).2.2 _ rfl
  | compared h => exact (suffix_comparison? h).isInfix
  | assigned h => exact (suffix_assignmentParts? h).isInfix
  | summand h => exact (suffix_sumParts? h).isInfix

/-- What two equal options are related by relates what they give. -/
theorem rel_self {α : Type} {R : α → α → Prop} {x : Option α} {a : α} (h : Option.Rel R x x)
    (hx : x = some a) : R a a := by
  rw [hx] at h
  cases h with
  | some hab => exact hab

/-- No piece is cut inside a literal. -/
theorem balanced (hp : Balanced p) (h : Takes p q) : Balanced q := by
  unfold Balanced at hp
  -- A balanced text is read as itself, part by part, so each cut of it is balanced.
  cases h with
  | columns h => exact (rel_self hp.createTableParts? h).2.2
  | values h => exact (rel_self hp.insertParts? h).2.2
  | items h => exact (rel_self hp.selectParts? h).items
  | queried h hq => exact rel_self (rel_self hp.selectParts? h).conditions hq
  | order h hq => exact rel_self (rel_self hp.selectParts? h).order hq
  | assignments h => exact (rel_self hp.updateParts? h).2.1
  | changed h => exact rel_self (rel_self hp.updateParts? h).2.2 rfl
  | removed h => exact rel_self (rel_self hp.deleteParts? h).2 rfl
  | item h hq => exact List.forall₂_same.mp (rel_self hp.piecesWithin h) q hq
  | condition hq => exact List.forall₂_same.mp hp.splitAtAnd q hq
  | constraints h => exact (rel_self hp.nameAndType? h).2.2
  | laterConstraints h => exact (rel_self hp.constraint? h).2
  | default h =>
    cases (rel_self hp.constraint? h).1 with
    | default hq => exact hq
  | compared h => exact (rel_self hp.comparison? h).2.2
  | assigned h => exact (rel_self hp.assignmentParts? h).2
  | summand h => exact (rel_self hp.sumParts? h).2.2

end Takes

theorem infix_trimCells (p : List Cell) : trimCells p <:+: p := by
  have hend : trimCells p <+: p.dropWhile Cell.isBlank := by
    have hsuffix := List.dropWhile_suffix (l := (p.dropWhile Cell.isBlank).reverse) Cell.isBlank
    rwa [← List.reverse_prefix, List.reverse_reverse] at hsuffix
  exact hend.isInfix.trans (List.dropWhile_suffix _).isInfix

/-- A masked text has its blanks where the cells show them. -/
theorem trimBlanks_visible (p : List Cell) :
    Text.trimBlanks (p.map Cell.visible) = (trimCells p).map Cell.visible := by
  have hblank : Text.isBlank ∘ Cell.visible = Cell.isBlank := rfl
  rw [Text.trimBlanks, Text.trimBy, Text.trimStart, Text.trimEnd, List.dropWhile_map, hblank,
    ← List.map_reverse, List.dropWhile_map, hblank, ← List.map_reverse]
  rfl

/-- A balanced piece that begins with a quote has another one. -/
theorem Balanced.closes (hp : Balanced p) {a : Char} {rest : List Char} (ha : isQuote a = true)
    (hshown : p.map Cell.visible = a :: rest) : a ∈ rest := by
  rcases p with _ | ⟨c, p⟩
  · exact absurd hshown (by simp)
  · rcases List.cons.inj hshown with ⟨hc, hrest⟩
    -- What is hidden is shown as a mark and never as a quote.
    have hopen : c = ⟨a, false⟩ := by
      rcases c with ⟨b, _ | _⟩
      · exact congrArg (Cell.mk · false) hc
      · have hmark : '#' = a := hc
        exact absurd (hmark ▸ ha) (by decide)
    rcases SameShown.exists_literal hp ha (congrArg some hopen) with ⟨body, others, hsplit⟩
    -- The piece begins with a whole literal, which ends in the quote that it begins with.
    have hp' : p = insideCells body ++ [⟨a, false⟩] ++ others := (List.cons.inj hsplit).2
    have hmem : (⟨a, false⟩ : Cell) ∈ p := by simp [hp']
    rw [← hrest]
    exact List.mem_map_of_mem (f := Cell.visible) hmem

/-- The two texts of a piece stay in step. -/
theorem Holds.inStep (hs : Balanced s) {text masked : List Char} (h : Holds s p text masked) :
    Balanced p ∧ InStep s p text masked := by
  -- A closing quote follows from the rest, so the induction need not carry it. It has to carry
  -- that the piece is balanced, for otherwise the two texts could lose different blanks.
  suffices hstep : Balanced p ∧ p <:+: s ∧ text = cellChars p ∧ masked = p.map Cell.visible by
    rcases hstep with ⟨hp, hstands, htext, hmasked⟩
    exact ⟨hp, hstands, htext, hmasked, fun a rest ha hshown => hp.closes ha (hmasked ▸ hshown)⟩
  induction h with
  | statement => exact ⟨hs, List.infix_refl s, rfl, rfl⟩
  | @slice p q before after text masked _ hq hplace ih =>
    rcases ih with ⟨hp, hstands, rfl, rfl⟩
    -- Both texts have one character for each cell, so the place is the same in both.
    have hcut : ∀ f : Cell → Char,
        ((p.map f).drop before.length).take q.length = q.map f := by
      intro f
      rw [hplace, List.map_append, List.map_append, List.drop_left' (by simp),
        List.take_left' (by simp)]
    exact ⟨hq.balanced hp, hq.isInfix.trans hstands, hcut _, hcut _⟩
  | @trimmed p text masked _ ih =>
    rcases ih with ⟨hp, hstands, rfl, rfl⟩
    exact ⟨SameShown.trimCells hp, (infix_trimCells p).trans hstands, hp.trimBlanks,
      trimBlanks_visible p⟩

end TableStore
