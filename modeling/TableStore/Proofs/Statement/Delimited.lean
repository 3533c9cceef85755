import TableStore.Proofs.Statement.PrintedValue

/-!
# Literals Are Read as They Are Marked

Two parts of the reader decide what a pair of characters in a literal means. The
marking goes through the text once, from left to right, and takes a quote together
with the backslash or the quote before it. The reading of a literal knows nothing of
this: it collapses doubled quotes first, throughout the content, and then quotes
behind backslashes. They agree because the content of a marked literal has an odd run
of quotes only behind a backslash, and then the first quote of the run belongs to the
backslash in both readings.

Where a literal begins is a matter of all the text before it, so a literal is delimited
by its quotes and by the fact that the text before is marked on its own.

## Main definitions

* `readPairs`: The content of a literal, read from left to right.
* `Delimits`: A literal in a marked text.
* `InsideLiteral`: A place strictly inside a literal.
* `Marking`: What a marked text consists of.

## Theorems

* `marking_of_hideLiterals`: What marking a text leaves.
* `Delimits.literalBody`: What stands in a literal that is delimited.
* `LiteralBody.unescapeQuotes`: The content is read as it was marked.
* `visible_eq`: What a marked text shows.
* `literals_marked_and_read`: The marking and the reading of literals agree.
-/

namespace TableStore

/-- The content of a literal in quotes `q`, read from left to right: a quote that is
    doubled or behind a backslash is read as one quote. -/
def readPairs (q : Char) : List Char → List Char
  | [] => []
  | [c] => [c]
  | c :: d :: s =>
    if (c == '\\' || c == q) && d == q then q :: readPairs q s else c :: readPairs q (d :: s)

/-- A literal in a marked text: an opening quote with nothing open before it, hidden
    content, and a closing quote. -/
structure Delimits (cells before : List Cell) (q : Char) (body : List Char) (after : List Cell) :
    Prop where
  quote : isQuote q = true
  split : cells = before ++ (literalCells q body ++ after)
  outside : Marked before

/-- A place strictly inside a literal, counted from the start of the text. -/
def InsideLiteral (cells : List Cell) (k : Nat) : Prop :=
  ∃ before q body after, Delimits cells before q body after
    ∧ before.length < k ∧ k ≤ before.length + body.length

/-- A text and its marking: characters outside of literals that are shown, and whole
    literals, none of which a quote of its kind follows. -/
inductive Marking : List Char → List Cell → Prop
  | nil : Marking [] []
  | outside {c : Char} {s : List Char} {cells : List Cell} (hc : isQuote c = false)
      (h : Marking s cells) : Marking (c :: s) (⟨c, false⟩ :: cells)
  | literal {q : Char} {body s : List Char} {cells : List Cell} (hq : isQuote q = true)
      (hbody : LiteralBody q body) (hs : s.head? ≠ some q) (h : Marking s cells) :
      Marking (q :: (body ++ q :: s)) (literalCells q body ++ cells)

section Marking

variable {q : Char} {s body : List Char} {cells before after : List Cell} {k : Nat}

/-- What is marked from inside a literal begins with the rest of its content. -/
theorem exists_body_of_markFrom (hq : isQuote q = true) :
    ∀ {s : List Char} {cells : List Cell}, markFrom (some q) s = some cells →
      ∃ body rest others, s = body ++ q :: rest ∧ LiteralBody q body ∧ rest.head? ≠ some q
        ∧ markFrom none rest = some others ∧ cells = insideCells body ++ ⟨q, false⟩ :: others
  | [], cells, h => absurd h (by simp [markFrom])
  | [c], cells, h => by
    rw [markFrom] at h
    split at h
    · rename_i hc
      obtain rfl := beq_iff_eq.mp hc
      exact ⟨[], [], [], rfl, .nil, by simp, rfl, (Option.some.inj h).symm⟩
    · exact absurd h (by simp)
  | c :: d :: s, cells, h => by
    rw [markFrom] at h
    split at h
    · -- A pair, with which the content goes on.
      rename_i hpair
      simp only [Bool.and_eq_true, Bool.or_eq_true, beq_iff_eq] at hpair
      rcases hpair with ⟨hc, hd⟩
      subst d
      rcases Option.map_eq_some_iff.mp h with ⟨found, hfound, rfl⟩
      rcases exists_body_of_markFrom hq hfound with ⟨body, rest, others, rfl, hbody, hrest, hothers, rfl⟩
      refine ⟨c :: q :: body, rest, others, rfl, ?_, hrest, hothers, rfl⟩
      rcases hc with rfl | rfl
      · exact .escaped hbody
      · exact .doubled hbody
    · rename_i hpair
      split at h
      · -- The closing quote.
        rename_i hc
        obtain rfl := beq_iff_eq.mp hc
        rcases Option.map_eq_some_iff.mp h with ⟨others, hothers, rfl⟩
        refine ⟨[], d :: s, others, rfl, .nil, ?_, hothers, rfl⟩
        rintro heq
        exact hpair (by simp [Option.some.inj heq])
      · -- A character by itself.
        rename_i hc
        rcases Option.map_eq_some_iff.mp h with ⟨found, hfound, rfl⟩
        rcases exists_body_of_markFrom hq hfound with ⟨body, rest, others, hs, hbody, hrest, hothers, rfl⟩
        refine ⟨c :: body, rest, others, by rw [hs]; rfl,
          .plain (fun heq => hc (by simp [heq])) (fun hslash => ?_) hbody, hrest, hothers, rfl⟩
        have hd : d ≠ q := fun heq => hpair (by simp [hslash, heq])
        cases body with
        | nil => exact absurd (List.cons.inj hs).1 hd
        | cons e body => exact ⟨e, body, rfl, (List.cons.inj hs).1 ▸ hd⟩

/-- What marking a text leaves. -/
theorem marking_of_hideLiterals : ∀ {s : List Char} {cells : List Cell},
    hideLiterals s = some cells → Marking s cells := by
  intro s
  -- By induction on the length, since a literal is passed over as a whole.
  induction hlength : s.length using Nat.strongRecOn generalizing s with
  | ind n ih =>
    intro cells h
    subst hlength
    cases s with
    | nil =>
      rw [← Option.some.inj h]
      exact .nil
    | cons c s =>
      rw [hideLiterals, markFrom] at h
      rcases Option.map_eq_some_iff.mp h with ⟨found, hfound, rfl⟩
      by_cases hc : isQuote c = true
      · rw [if_pos hc] at hfound
        rcases exists_body_of_markFrom hc hfound with
          ⟨body, rest, others, rfl, hbody, hrest, hothers, rfl⟩
        have hless : rest.length < (c :: (body ++ c :: rest)).length := by
          simp only [List.length_cons, List.length_append]
          omega
        have hmarking := ih rest.length hless rfl hothers
        have hcells : (⟨c, false⟩ :: (insideCells body ++ ⟨c, false⟩ :: others) : List Cell)
            = literalCells c body ++ others := by
          simp [literalCells]
        rw [hcells]
        exact .literal hc hbody hrest hmarking
      · rw [if_neg hc] at hfound
        exact .outside (Bool.eq_false_iff.mpr hc) (ih s.length (by simp) rfl hfound)

theorem cellChars_literalCells_append (q : Char) (body : List Char) (cells : List Cell) :
    cellChars (literalCells q body ++ cells) = q :: (body ++ q :: cellChars cells) := by
  simp [cellChars, literalCells, insideCells, Function.comp_def]

/-- Marking keeps every character. -/
theorem Marking.cellChars (h : Marking s cells) : TableStore.cellChars cells = s := by
  induction h with
  | nil => rfl
  | outside hc _ ih => exact congrArg (_ :: ·) ih
  | literal hq hbody hs _ ih => rw [cellChars_literalCells_append, ih]

/-- The rest of a marked text is marked on its own if what is before it is. -/
theorem markFrom_rest : ∀ {quote : Option Char} {a b : List Char} {u w : List Cell},
    markFrom quote a = some u → markFrom quote (a ++ b) = some (u ++ w) → markFrom none b = some w
  | none, [], b, u, w, hu, h => by
    rw [← Option.some.inj hu] at h
    exact h
  | some q, [], b, u, w, hu, h => absurd hu (by simp [markFrom])
  | none, c :: a, b, u, w, hu, h => by
    rw [List.cons_append, markFrom] at h
    rw [markFrom] at hu
    rcases Option.map_eq_some_iff.mp hu with ⟨u, hfirst, rfl⟩
    rcases Option.map_eq_some_iff.mp h with ⟨found, hfound, heq⟩
    obtain rfl := (List.cons.inj heq).2
    exact markFrom_rest hfirst hfound
  | some q, [c], b, u, w, hu, h => by
    rw [markFrom] at hu
    split at hu
    · rename_i hc
      obtain rfl := beq_iff_eq.mp hc
      rw [← Option.some.inj hu] at h
      by_cases hb : b.head? = some c
      · -- The closing quote would be read as doubled and would be hidden.
        rcases List.head?_eq_some_iff.mp hb with ⟨b, rfl⟩
        rw [List.singleton_append, markFrom_pair (Or.inr rfl)] at h
        rcases Option.map_eq_some_iff.mp h with ⟨found, -, heq⟩
        exact absurd (List.cons.inj heq).1 (by simp)
      · rw [List.singleton_append, markFrom_close hb] at h
        rcases Option.map_eq_some_iff.mp h with ⟨found, hfound, heq⟩
        rw [hfound, (List.cons.inj heq).2]
        rfl
    · exact absurd hu (by simp)
  | some q, c :: d :: a, b, u, w, hu, h => by
    rw [List.cons_append, List.cons_append, markFrom] at h
    rw [markFrom] at hu
    split at hu
    · rename_i hpair
      rw [if_pos hpair] at h
      rcases Option.map_eq_some_iff.mp hu with ⟨u, hfirst, rfl⟩
      rcases Option.map_eq_some_iff.mp h with ⟨found, hfound, heq⟩
      obtain rfl := (List.cons.inj (List.cons.inj heq).2).2
      exact markFrom_rest hfirst hfound
    · rename_i hpair
      rw [if_neg hpair] at h
      split at hu <;> rename_i hc
      all_goals
        first | rw [if_pos hc] at h | rw [if_neg hc] at h
        rcases Option.map_eq_some_iff.mp hu with ⟨u, hfirst, rfl⟩
        rcases Option.map_eq_some_iff.mp h with ⟨found, hfound, heq⟩
        rw [← List.cons_append] at hfound
        obtain rfl := (List.cons.inj heq).2
        exact markFrom_rest hfirst hfound

/-- The content of a literal ends at the first quote that is shown. -/
theorem insideCells_append_inj {a b : List Char} {u v : List Cell} {c d : Char}
    (h : insideCells a ++ ⟨c, false⟩ :: u = insideCells b ++ ⟨d, false⟩ :: v) : a = b := by
  induction a generalizing b with
  | nil =>
    cases b with
    | nil => rfl
    | cons e b => exact absurd (Cell.mk.inj (List.cons.inj h).1).2 (by simp)
  | cons e a ih =>
    cases b with
    | nil => exact absurd (Cell.mk.inj (List.cons.inj h).1).2 (by simp)
    | cons f b =>
      rcases List.cons.inj h with ⟨hfirst, hrest⟩
      rw [(Cell.mk.inj hfirst).1, ih hrest]

/-- The text of which a literal is a part. -/
theorem Delimits.chars (h : Delimits cells before q body after)
    (hcells : hideLiterals s = some cells) :
    s = TableStore.cellChars before ++ q :: (body ++ q :: TableStore.cellChars after) := by
  rw [← (marking_of_hideLiterals hcells).cellChars, h.split, ← cellChars_literalCells_append]
  exact List.map_append

/-- What stands in a literal that is delimited. -/
theorem Delimits.literalBody (h : Delimits cells before q body after)
    (hcells : hideLiterals s = some cells) : LiteralBody q body := by
  have hmarked := hcells
  rw [h.chars hcells, h.split] at hmarked
  have hrest := markFrom_rest h.outside hmarked
  rw [markFrom, if_pos h.quote] at hrest
  rcases Option.map_eq_some_iff.mp hrest with ⟨found, hfound, heq⟩
  rcases exists_body_of_markFrom h.quote hfound with ⟨other, -, others, -, hbody, -, -, rfl⟩
  rw [literalCells, List.cons_append, List.append_assoc] at heq
  rwa [← insideCells_append_inj (List.cons.inj heq).2]

/-- A literal is still delimited after a character outside of literals. -/
theorem Delimits.cons (h : Delimits cells before q body after) {c : Char} (hc : isQuote c = false) :
    Delimits (⟨c, false⟩ :: cells) (⟨c, false⟩ :: before) q body after where
  quote := h.quote
  split := by rw [h.split, List.cons_append]
  outside := by
    have houtside := h.outside
    unfold Marked hideLiterals at houtside ⊢
    rw [TableStore.cellChars, List.map_cons, markFrom_outside hc]
    exact congrArg (Option.map (⟨c, false⟩ :: ·)) houtside

/-- A literal is still delimited after another one that no quote of its kind follows. -/
theorem Delimits.append (h : Delimits cells before q body after) {p : Char} {other : List Char}
    (hp : isQuote p = true) (hother : LiteralBody p other)
    (hhead : (TableStore.cellChars cells).head? ≠ some p) :
    Delimits (literalCells p other ++ cells) (literalCells p other ++ before) q body after where
  quote := h.quote
  split := by rw [h.split, List.append_assoc]
  outside := by
    have houtside := h.outside
    have hbefore : (TableStore.cellChars before).head? ≠ some p := by
      rw [h.split] at hhead
      cases before with
      | nil => simp [TableStore.cellChars]
      | cons c before => exact hhead
    unfold Marked hideLiterals at houtside ⊢
    rw [cellChars_literalCells_append, markFrom_literal hp hother hbefore, houtside]
    rfl

/-- The cells inside a literal are hidden. -/
theorem InsideLiteral.hidden (h : InsideLiteral cells k) {c : Cell} (hc : cells[k]? = some c) :
    c.hidden = true := by
  rcases h with ⟨before, q, body, after, hdelimits, hlt, hle⟩
  obtain ⟨j, rfl⟩ : ∃ j, k = before.length + (j + 1) := ⟨k - before.length - 1, by omega⟩
  have hj : j < (insideCells body).length := by
    rw [insideCells, List.length_map]
    omega
  rw [hdelimits.split, List.getElem?_append_right (by omega), Nat.add_sub_cancel_left, literalCells,
    List.cons_append, List.getElem?_cons_succ, List.append_assoc, List.getElem?_append_left hj,
    insideCells, List.getElem?_map] at hc
  rcases Option.map_eq_some_iff.mp hc with ⟨a, -, rfl⟩
  rfl

/-- A cell is hidden only inside a literal. -/
theorem Marking.insideLiteral (h : Marking s cells) {c : Cell} (hc : cells[k]? = some c)
    (hhidden : c.hidden = true) : InsideLiteral cells k := by
  induction h generalizing k with
  | nil => exact absurd hc (by simp)
  | @outside a s cells ha _ ih =>
    cases k with
    | zero =>
      rw [← Option.some.inj hc] at hhidden
      exact absurd hhidden Bool.false_ne_true
    | succ k =>
      rcases ih hc with ⟨before, q, body, after, hdelimits, hlt, hle⟩
      refine ⟨_, q, body, after, hdelimits.cons ha, ?_, ?_⟩ <;> rw [List.length_cons] <;> omega
  | @literal q body s cells hq hbody hs hcells ih =>
    have hlength : (literalCells q body).length = body.length + 2 := by
      simp [literalCells, insideCells]
    by_cases hk : k < body.length + 2
    · -- The opening and the closing quote are shown, so the cell is between them.
      have hself : Delimits (literalCells q body ++ cells) [] q body cells :=
        ⟨hq, rfl, marked_nil⟩
      refine ⟨[], q, body, cells, hself, ?_, ?_⟩
      · rw [List.length_nil, Nat.pos_iff_ne_zero]
        rintro rfl
        rw [← Option.some.inj hc] at hhidden
        exact absurd hhidden Bool.false_ne_true
      · rw [List.length_nil, Nat.zero_add]
        by_contra hlast
        obtain rfl : k = body.length + 1 := by omega
        rw [List.getElem?_append_left (by omega), literalCells, List.getElem?_cons_succ,
          List.getElem?_append_right (by simp [insideCells])] at hc
        rw [insideCells, List.length_map, Nat.sub_self] at hc
        rw [← Option.some.inj hc] at hhidden
        exact absurd hhidden Bool.false_ne_true
    · rw [List.getElem?_append_right (by omega), hlength] at hc
      rcases ih hc with ⟨before, p, other, after, hdelimits, hlt, hle⟩
      refine ⟨_, p, other, after,
        hdelimits.append hq hbody (by rwa [hcells.cellChars]), ?_, ?_⟩ <;>
        rw [List.length_append, hlength] <;> omega

end Marking

section Reading

variable {q : Char} {body : List Char}

theorem slash_ne_of_isQuote (hq : isQuote q = true) : q ≠ '\\' := by
  rcases quote_cases hq with rfl | rfl <;> decide

/-- A quote before the content of a literal pairs with none of its quotes. -/
theorem LiteralBody.collapsePairs_cons (h : LiteralBody q body) (hq : isQuote q = true) :
    collapsePairs q q (q :: body) = q :: collapsePairs q q body := by
  induction h with
  | nil => rfl
  | plain hc _ _ _ => rw [collapsePairs, if_neg (by simp [hc])]
  | @doubled s _ ih =>
    rw [collapsePairs, if_pos (by simp), ih, collapsePairs, if_pos (by simp)]
  | escaped _ _ =>
    have hslash : ('\\' == q) = false := beq_eq_false_iff_ne.mpr (slash_ne_of_isQuote hq).symm
    rw [collapsePairs, hslash, Bool.and_false, if_neg Bool.false_ne_true]

/-- The content of a literal denotes the same whether its pairs are read from left to
    right or by kinds. -/
theorem LiteralBody.unescapeQuotes (h : LiteralBody q body) (hq : isQuote q = true) :
    TableStore.unescapeQuotes q body = readPairs q body := by
  have hslash : '\\' ≠ q := (slash_ne_of_isQuote hq).symm
  rw [TableStore.unescapeQuotes]
  induction h with
  | nil => rfl
  | @plain c s hc hnext hs ih =>
    rw [TableStore.collapsePairs_cons hc]
    by_cases hc' : c = '\\'
    · -- What follows a backslash by itself is no quote, before and after the first step.
      rcases hnext hc' with ⟨d, rest, rfl, hd⟩
      rw [readPairs, if_neg (by simp [hd]), ← ih]
      rw [TableStore.collapsePairs_cons hd, collapsePairs, if_neg (by simp [hd])]
    · rw [TableStore.collapsePairs_cons hc', ih]
      cases s with
      | nil => rfl
      | cons d s => rw [readPairs, if_neg (by simp [hc, hc'])]
  | doubled _ ih =>
    rw [collapsePairs, if_pos (by simp), TableStore.collapsePairs_cons hslash.symm, ih, readPairs,
      if_pos (by simp)]
  | escaped hs ih =>
    rw [TableStore.collapsePairs_cons hslash, hs.collapsePairs_cons hq, collapsePairs,
      if_pos (by simp), ih, readPairs, if_pos (by simp)]

end Reading

section Agreement

variable {q : Char} {s body : List Char} {cells before after : List Cell}

/-- What is cut out of a text from the opening to the closing quote of a literal. -/
theorem Delimits.slice (h : Delimits cells before q body after)
    (hcells : hideLiterals s = some cells) :
    (s.drop before.length).take (body.length + 2) = q :: (body ++ [q]) := by
  have hbefore : before.length = (TableStore.cellChars before).length := (List.length_map _).symm
  have hliteral : q :: (body ++ q :: TableStore.cellChars after)
      = (q :: (body ++ [q])) ++ TableStore.cellChars after := by
    simp
  have hlength : body.length + 2 = (q :: (body ++ [q])).length := by simp
  rw [h.chars hcells, hbefore, List.drop_left, hliteral, hlength, List.take_left]

/-- Outside of literals a text is shown as it is, and inside them as one mark. -/
theorem visible_eq (hcells : hideLiterals s = some cells) {k : Nat} {c : Char}
    (hc : s[k]? = some c) :
    (InsideLiteral cells k → (cells.map Cell.visible)[k]? = some '#')
      ∧ (¬InsideLiteral cells k → (cells.map Cell.visible)[k]? = some c) := by
  have hmarking := marking_of_hideLiterals hcells
  rw [← hmarking.cellChars, TableStore.cellChars, List.getElem?_map] at hc
  rcases Option.map_eq_some_iff.mp hc with ⟨cell, hcell, rfl⟩
  rw [List.getElem?_map, hcell, Option.map_some, Option.some.injEq, Option.some.injEq, Cell.visible]
  constructor
  · intro hinside
    rw [if_pos (hinside.hidden hcell)]
  · intro houtside
    rw [if_neg fun hhidden => houtside (hmarking.insideLiteral hcell hhidden)]

/-- The marking and the reading of literals agree. A marked text is as long as the text
    and differs from it inside literals only, and what stands between the quotes of a
    literal is read from left to right, just as it was marked. So a text whose quotes
    are doubled is one literal and denotes the text, unless one of its backslashes takes
    a quote with it. -/
theorem literals_marked_and_read :
    (∀ s cells, hideLiterals s = some cells →
      (cells.map Cell.visible).length = s.length
      ∧ (∀ k c, s[k]? = some c →
        (InsideLiteral cells k → (cells.map Cell.visible)[k]? = some '#')
        ∧ (¬InsideLiteral cells k → (cells.map Cell.visible)[k]? = some c))
      ∧ ∀ before q body after, Delimits cells before q body after →
        Value.ofLiteral ((s.drop before.length).take (body.length + 2))
          = .ok (.text (String.ofList (readPairs q body))))
    ∧ ∀ q s, isQuote q = true → SlashesApart q s →
      hideLiterals (q :: (doubled q s ++ [q])) = some (literalCells q (doubled q s))
      ∧ Value.ofLiteral (q :: (doubled q s ++ [q])) = .ok (.text (String.ofList s)) := by
  refine ⟨fun s cells hcells => ⟨?_, fun k c => visible_eq hcells, ?_⟩, fun q s hq hs => ⟨?_, ?_⟩⟩
  · rw [← (marking_of_hideLiterals hcells).cellChars, TableStore.cellChars, List.length_map,
      List.length_map]
  · intro before q body after h
    rw [h.slice hcells, Value.ofLiteral_quoted h.quote, (h.literalBody hcells).unescapeQuotes h.quote]
  · rw [hideLiterals, markFrom_literal hq hs.literalBody_doubled (by simp)]
    simp [markFrom]
  · exact Value.ofLiteral_doubled hq hs

/-- A literal in which one quote is behind a backslash and another one is doubled, and a
    text with a quote and a backslash. -/
theorem literals_marked_and_read_mixed :
    hideLiterals "x = 'a\\'b''c'".toList
        = some (plain "x = " ++ literalCells '\'' "a\\'b''c".toList)
      ∧ Value.ofLiteral (("x = 'a\\'b''c'".toList.drop 4).take 9) = .ok (.text "a'b'c")
      ∧ Value.ofLiteral "'\\a'''".toList = .ok (.text "\\a'") := by
  have hcells : hideLiterals "x = 'a\\'b''c'".toList
      = some (plain "x = " ++ literalCells '\'' "a\\'b''c".toList) := by decide
  have hdelimits : Delimits (plain "x = " ++ literalCells '\'' "a\\'b''c".toList) (plain "x = ")
      '\'' "a\\'b''c".toList [] :=
    ⟨by decide, by rw [List.append_nil], by unfold Marked; decide⟩
  have hslashes : SlashesApart '\'' "\\a'".toList := by
    intro u v h
    rcases u with _ | ⟨c, _ | ⟨d, _ | ⟨e, u⟩⟩⟩
    · exact ⟨'a', ['\''], (List.cons.inj h).2.symm, by decide⟩
    all_goals simp at h
  exact ⟨hcells, (literals_marked_and_read.1 _ _ hcells).2.2 _ _ _ _ hdelimits,
    (literals_marked_and_read.2 '\'' _ (by decide) hslashes).2⟩

end Agreement

end TableStore
