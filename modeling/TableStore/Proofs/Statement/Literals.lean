import TableStore.Statement.Reader

/-!
# Texts That Differ Inside Literals

A literal ends at the first quote of its kind that is neither doubled nor
behind a backslash. What may stand in it is therefore a matter of that one
quote: everything else, other quotes, commas, parentheses and keywords, is
content. `LiteralBody` is this condition, and `SameOutside` relates two texts
that have the same literals in the same places but not the same contents.

A literal must not be followed directly by a quote of its kind. The closing
quote would then be read as doubled, and the two literals would be one.

Marking such texts gives cells that differ in hidden cells only, which is what
`SameShown` says. The blanks and the semicolon that are taken off a text
before it is marked are outside of all literals, so the relation survives that
too.

## Main definitions

* `LiteralBody`: What may stand in a literal.
* `SameOutside`: Two texts that differ in the contents of literals only.
* `doubled`: A text with its quotes doubled.
* `SlashesApart`: A text whose backslashes take no quote with them.
* `literalCells`: A literal with its content hidden.
* `SameShown`: Two marked texts that differ in hidden cells only.

## Theorems

* `markFrom_body`: A literal is marked up to its closing quote.
* `SameOutside.hideLiterals`: Marking leaves a difference in hidden cells.
* `SameOutside.trimBlanks`, `SameOutside.dropSemicolon`: What is taken off the
  ends of a text.
-/

namespace TableStore

/-- What may stand in a literal in quotes `q`: the quote only doubled or after
    a backslash, and no backslash at the end, where it would belong to the
    closing quote. -/
inductive LiteralBody (q : Char) : List Char → Prop
  | nil : LiteralBody q []
  | plain {c : Char} {s : List Char} (hc : c ≠ q)
      (hnext : c = '\\' → ∃ d rest, s = d :: rest ∧ d ≠ q) (hs : LiteralBody q s) :
      LiteralBody q (c :: s)
  | doubled {s : List Char} (hs : LiteralBody q s) : LiteralBody q (q :: q :: s)
  | escaped {s : List Char} (hs : LiteralBody q s) : LiteralBody q ('\\' :: q :: s)

/-- Two texts that are the same outside of literals and have literals with the
    same quotes in the same places. -/
inductive SameOutside : List Char → List Char → Prop
  | nil : SameOutside [] []
  | outside {c : Char} {s t : List Char} (hc : isQuote c = false) (h : SameOutside s t) :
      SameOutside (c :: s) (c :: t)
  | literal {q : Char} {a b s t : List Char} (hq : isQuote q = true) (ha : LiteralBody q a)
      (hb : LiteralBody q b) (hs : s.head? ≠ some q) (h : SameOutside s t) :
      SameOutside (q :: (a ++ q :: s)) (q :: (b ++ q :: t))

/-- A text with each of its quotes `q` twice. -/
def doubled (q : Char) (s : List Char) : List Char :=
  s.flatMap fun c => if c = q then [q, q] else [c]

/-- Whether no backslash of a text is at its end or directly before a quote
    `q`. -/
def SlashesApart (q : Char) (s : List Char) : Prop :=
  ∀ u v, s = u ++ '\\' :: v → ∃ d rest, v = d :: rest ∧ d ≠ q

/-- The characters of a text inside a literal. -/
def insideCells (s : List Char) : List Cell :=
  s.map fun c => ⟨c, true⟩

/-- A literal with its content hidden. -/
def literalCells (q : Char) (body : List Char) : List Cell :=
  ⟨q, false⟩ :: (insideCells body ++ [⟨q, false⟩])

/-- Two marked texts that are the same in all that is shown, where what is
    hidden lies between quotes. -/
inductive SameShown : List Cell → List Cell → Prop
  | nil : SameShown [] []
  | shown {c : Char} {s t : List Cell} (hc : isQuote c = false) (h : SameShown s t) :
      SameShown (⟨c, false⟩ :: s) (⟨c, false⟩ :: t)
  | literal {q : Char} (a b : List Char) {s t : List Cell} (hq : isQuote q = true)
      (h : SameShown s t) : SameShown (literalCells q a ++ s) (literalCells q b ++ t)

theorem quote_cases {q : Char} (hq : isQuote q = true) : q = '\'' ∨ q = '"' := by
  unfold isQuote at hq
  simpa only [Bool.or_eq_true, beq_iff_eq] using hq

theorem isBlank_quote {q : Char} (hq : isQuote q = true) : Text.isBlank q = false := by
  rcases quote_cases hq with rfl | rfl <;> decide

theorem SlashesApart.tail {q c : Char} {s : List Char} (hs : SlashesApart q (c :: s)) :
    SlashesApart q s :=
  fun u v heq => hs (c :: u) v (congrArg (c :: ·) heq)

theorem slashesApart_of_not_mem {q : Char} {s : List Char} (hs : '\\' ∉ s) :
    SlashesApart q s := by
  rintro u v rfl
  exact absurd (List.mem_append_right u List.mem_cons_self) hs

/-- A text can stand in a literal once its quotes are doubled, if its
    backslashes take none of them. -/
theorem SlashesApart.literalBody_doubled {q : Char} {s : List Char} (hs : SlashesApart q s) :
    LiteralBody q (doubled q s) := by
  induction s with
  | nil => exact .nil
  | cons c s ih =>
    have hrest := ih hs.tail
    unfold doubled at hrest ⊢
    rw [List.flatMap_cons]
    by_cases hc : c = q
    · rw [if_pos hc]
      exact .doubled hrest
    · rw [if_neg hc]
      refine .plain hc (fun hslash => ?_) hrest
      subst hslash
      rcases hs [] s rfl with ⟨d, rest, rfl, hd⟩
      exact ⟨d, _, by rw [List.flatMap_cons, if_neg hd]; rfl, hd⟩

/-- Any text without a backslash can stand in a literal once its quotes are
    doubled. -/
theorem literalBody_doubled {q : Char} {s : List Char} (hs : '\\' ∉ s) :
    LiteralBody q (doubled q s) :=
  (slashesApart_of_not_mem hs).literalBody_doubled

section Marking

/-- A character inside a literal that neither ends it nor belongs to a pair is
    hidden by itself. -/
theorem markFrom_plain {q c d : Char} {s : List Char} (hc : c ≠ q) (hd : c = '\\' → d ≠ q) :
    markFrom (some q) (c :: d :: s)
      = (markFrom (some q) (d :: s)).map (⟨c, true⟩ :: ·) := by
  have hpair : ((c == '\\' || c == q) && d == q) = false := by
    rw [Bool.and_eq_false_iff, Bool.or_eq_false_iff]
    by_cases hslash : c = '\\'
    · exact Or.inr (by simpa using hd hslash)
    · exact Or.inl ⟨by simpa using hslash, by simpa using hc⟩
  have hclose : (c == q) = false := by simpa using hc
  rw [markFrom, hpair, hclose]
  rfl

/-- A quote behind a backslash or another quote does not end the literal. -/
theorem markFrom_pair {q c : Char} {s : List Char} (hc : c = '\\' ∨ c = q) :
    markFrom (some q) (c :: q :: s)
      = (markFrom (some q) s).map fun cells => ⟨c, true⟩ :: ⟨q, true⟩ :: cells := by
  have hpair : ((c == '\\' || c == q) && q == q) = true := by
    rcases hc with rfl | rfl <;> simp
  rw [markFrom, if_pos hpair]

/-- A quote that no quote of its kind follows ends the literal. -/
theorem markFrom_close {q : Char} {s : List Char} (hs : s.head? ≠ some q) :
    markFrom (some q) (q :: s) = (markFrom none s).map (⟨q, false⟩ :: ·) := by
  cases s with
  | nil => simp [markFrom]
  | cons d s =>
    have hd : d ≠ q := fun heq => hs (by rw [heq]; rfl)
    have hpair : ((q == '\\' || q == q) && d == q) = false := by simp [hd]
    conv => lhs; rw [markFrom, hpair]
    simp

/-- A literal is marked up to its closing quote, and what follows is marked on
    its own. -/
theorem markFrom_body {q : Char} {body s : List Char} (hbody : LiteralBody q body)
    (hs : s.head? ≠ some q) :
    markFrom (some q) (body ++ q :: s)
      = (markFrom none s).map fun cells => insideCells body ++ ⟨q, false⟩ :: cells := by
  induction hbody with
  | nil => exact markFrom_close hs
  | @plain c rest hc hnext _ ih =>
    -- The closing quote sees to it that some character follows.
    obtain ⟨d, after, hafter⟩ : ∃ d after, rest ++ q :: s = d :: after := by
      cases rest with
      | nil => exact ⟨q, s, rfl⟩
      | cons d rest => exact ⟨d, rest ++ q :: s, rfl⟩
    have hd : c = '\\' → d ≠ q := by
      intro hslash
      rcases hnext hslash with ⟨e, more, rfl, he⟩
      rwa [← (List.cons.inj hafter).1]
    rw [List.cons_append, hafter, markFrom_plain hc hd, ← hafter, ih, Option.map_map]
    rfl
  | doubled _ ih =>
    rw [List.cons_append, List.cons_append, markFrom_pair (Or.inr rfl), ih, Option.map_map]
    rfl
  | escaped _ ih =>
    rw [List.cons_append, List.cons_append, markFrom_pair (Or.inl rfl), ih, Option.map_map]
    rfl

/-- A character outside of literals is marked as itself. -/
theorem markFrom_outside {c : Char} {s : List Char} (hc : isQuote c = false) :
    markFrom none (c :: s) = (markFrom none s).map (⟨c, false⟩ :: ·) := by
  rw [markFrom, hc]
  rfl

/-- A whole literal is marked with its content hidden. -/
theorem markFrom_literal {q : Char} {body s : List Char} (hq : isQuote q = true)
    (hbody : LiteralBody q body) (hs : s.head? ≠ some q) :
    markFrom none (q :: (body ++ q :: s)) = (markFrom none s).map (literalCells q body ++ ·) := by
  rw [markFrom, if_pos hq, markFrom_body hbody hs, Option.map_map]
  refine congrArg (fun f => Option.map f (markFrom none s)) (funext fun cells => ?_)
  simp [literalCells]

end Marking

namespace SameOutside

variable {s t : List Char}

/-- Marking two texts leaves a difference in hidden cells. -/
theorem hideLiterals (h : SameOutside s t) :
    ∃ u v, TableStore.hideLiterals s = some u ∧ TableStore.hideLiterals t = some v
      ∧ SameShown u v := by
  unfold TableStore.hideLiterals
  induction h with
  | nil => exact ⟨[], [], rfl, rfl, .nil⟩
  | outside hc _ ih =>
    rcases ih with ⟨u, v, hu, hv, huv⟩
    rw [markFrom_outside hc, markFrom_outside hc, hu, hv]
    exact ⟨_, _, rfl, rfl, .shown hc huv⟩
  | @literal q a b s t hq ha hb hs hst ih =>
    have ht : t.head? ≠ some q := by
      cases hst with
      | nil => exact hs
      | outside _ _ => exact hs
      | literal _ _ _ _ _ => exact hs
    rcases ih with ⟨u, v, hu, hv, huv⟩
    rw [markFrom_literal hq ha hs, markFrom_literal hq hb ht, hu, hv]
    exact ⟨_, _, rfl, rfl, .literal a b hq huv⟩

/-- Two texts may start with the same text without quotes. -/
theorem append_outside {u : List Char} (hu : u.all (fun c => !isQuote c) = true)
    (h : SameOutside s t) : SameOutside (u ++ s) (u ++ t) := by
  induction u with
  | nil => exact h
  | cons c u ih =>
    rw [List.all_cons, Bool.and_eq_true] at hu
    exact .outside (by simpa using hu.1) (ih hu.2)

theorem eq_nil_iff (h : SameOutside s t) : s = [] ↔ t = [] := by
  cases h with
  | nil => exact Iff.rfl
  | outside _ _ => simp
  | literal _ _ _ _ _ => simp

theorem trimStart (h : SameOutside s t) :
    SameOutside (Text.trimStart Text.isBlank s) (Text.trimStart Text.isBlank t) := by
  unfold Text.trimStart
  induction h with
  | nil => exact .nil
  | @outside c s t hc hst ih =>
    by_cases hblank : Text.isBlank c = true
    · rwa [List.dropWhile_cons_of_pos hblank, List.dropWhile_cons_of_pos hblank]
    · rw [List.dropWhile_cons_of_neg hblank, List.dropWhile_cons_of_neg hblank]
      exact .outside hc hst
  | @literal q a b s t hq ha hb hs hst _ =>
    have hblank : ¬Text.isBlank q = true := by
      rw [isBlank_quote hq]
      exact Bool.false_ne_true
    rw [List.dropWhile_cons_of_neg hblank, List.dropWhile_cons_of_neg hblank]
    exact .literal hq ha hb hs hst

end SameOutside

namespace Text

variable {α : Type} {blank : α → Bool}

/-- An element is taken off the end if all that follows it is. -/
theorem trimEnd_cons (a : α) (s : List α) :
    trimEnd blank (a :: s)
      = if trimEnd blank s = [] ∧ blank a = true then [] else a :: trimEnd blank s := by
  unfold trimEnd
  rw [List.reverse_cons, List.dropWhile_append]
  by_cases hs : s.reverse.dropWhile blank = []
  · by_cases ha : blank a = true
    · simp [hs, ha]
    · simp [hs, ha]
  · simp [hs]

/-- Nothing is taken off before an element that is no blank. -/
theorem trimEnd_append_cons {a : α} (ha : blank a = false) (u s : List α) :
    trimEnd blank (u ++ a :: s) = u ++ a :: trimEnd blank s := by
  induction u with
  | nil => simp [trimEnd_cons, ha]
  | cons b u ih => simp [trimEnd_cons, ih]

theorem head?_trimEnd (s : List α) :
    trimEnd blank s = [] ∨ (trimEnd blank s).head? = s.head? := by
  cases s with
  | nil => exact Or.inl rfl
  | cons a s =>
    rw [trimEnd_cons]
    split
    · exact Or.inl rfl
    · exact Or.inr rfl

end Text

namespace SameOutside

variable {s t : List Char}

theorem trimEnd (h : SameOutside s t) :
    SameOutside (Text.trimEnd Text.isBlank s) (Text.trimEnd Text.isBlank t) := by
  induction h with
  | nil => exact .nil
  | @outside c s t hc _ ih =>
    rw [Text.trimEnd_cons, Text.trimEnd_cons]
    by_cases hgone : Text.trimEnd Text.isBlank s = [] ∧ Text.isBlank c = true
    · rw [if_pos hgone, if_pos ⟨ih.eq_nil_iff.mp hgone.1, hgone.2⟩]
      exact .nil
    · rw [if_neg hgone, if_neg fun hboth => hgone ⟨ih.eq_nil_iff.mpr hboth.1, hboth.2⟩]
      exact .outside hc ih
  | @literal q a b s t hq ha hb hs _ ih =>
    have hblank := isBlank_quote hq
    rw [← List.cons_append, ← List.cons_append, Text.trimEnd_append_cons hblank,
      Text.trimEnd_append_cons hblank]
    refine .literal hq ha hb ?_ ih
    rcases @Text.head?_trimEnd _ Text.isBlank s with hnil | hhead
    · rw [hnil]
      simp
    · rwa [hhead]

/-- The blanks at the two ends of a text are outside of literals. -/
theorem trimBlanks (h : SameOutside s t) :
    SameOutside (Text.trimBlanks s) (Text.trimBlanks t) :=
  h.trimStart.trimEnd

/-- Two such texts are empty, or end in the same quote, or in the same
    character outside of literals. -/
theorem last_cases (h : SameOutside s t) :
    (s = [] ∧ t = []) ∨ (∃ q, isQuote q = true ∧ s.getLast? = some q ∧ t.getLast? = some q)
      ∨ ∃ c u v, s = u ++ [c] ∧ t = v ++ [c] ∧ SameOutside u v := by
  induction h with
  | nil => exact Or.inl ⟨rfl, rfl⟩
  | @outside c s t hc _ ih =>
    rcases ih with ⟨rfl, rfl⟩ | ⟨q, hq, hs, ht⟩ | ⟨d, u, v, rfl, rfl, huv⟩
    · exact Or.inr (Or.inr ⟨c, [], [], rfl, rfl, .nil⟩)
    · refine Or.inr (Or.inl ⟨q, hq, ?_, ?_⟩)
      · rw [List.getLast?_cons, hs]
        rfl
      · rw [List.getLast?_cons, ht]
        rfl
    · exact Or.inr (Or.inr ⟨d, c :: u, c :: v, rfl, rfl, .outside hc huv⟩)
  | @literal q a b s t hq ha hb hs _ ih =>
    rcases ih with ⟨rfl, rfl⟩ | ⟨p, hp, hps, hpt⟩ | ⟨d, u, v, rfl, rfl, huv⟩
    · refine Or.inr (Or.inl ⟨q, hq, ?_, ?_⟩) <;> simp [List.getLast?_cons, List.getLast?_append]
    · refine Or.inr (Or.inl ⟨p, hp, ?_, ?_⟩)
      · simp [List.getLast?_cons, List.getLast?_append, hps]
      · simp [List.getLast?_cons, List.getLast?_append, hpt]
    · refine Or.inr (Or.inr ⟨d, q :: (a ++ q :: u), q :: (b ++ q :: v), by simp, by simp,
        .literal hq ha hb ?_ huv⟩)
      cases u with
      | nil => simp
      | cons e u => exact hs

/-- A semicolon at the end of a text is outside of literals. -/
theorem dropSemicolon (h : SameOutside s t) :
    SameOutside (Statement.dropSemicolon s) (Statement.dropSemicolon t) := by
  unfold Statement.dropSemicolon
  rcases h.last_cases with ⟨rfl, rfl⟩ | ⟨q, hq, hs, ht⟩ | ⟨c, u, v, rfl, rfl, huv⟩
  · exact .nil
  · have hne : ¬some q = some ';' := by
      intro heq
      rw [Option.some.inj heq] at hq
      exact absurd hq (by decide)
    rwa [hs, ht, if_neg hne, if_neg hne]
  · rw [List.getLast?_concat, List.getLast?_concat, List.dropLast_concat, List.dropLast_concat]
    split
    · exact huv.trimEnd
    · exact h

end SameOutside

end TableStore
