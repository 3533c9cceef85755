import TableStore.Proofs.Statement.PrintedValue

/-!
# Items of a Text

A statement is printed from words and literals, with a few texts between them:
a blank, a comma, the word AND, an opening parenthesis. Whatever is put
together in this way has the same few properties: nothing is taken off at its
ends, it is marked as it was printed, and the words at which a clause would end
do not begin in it. `Item` holds of words and literals, and joining keeps it,
so that it holds of whole clauses and statements by their shape alone.

A list of items is split where they were joined.

## Main definitions

* `Item`: A part of a printed text in which given words do not begin.
* `Joins`: A text that may stand between items.
* `Unsplit`: A run that is part of one item of a list.

## Theorems

* `Item.append`: Items that are joined are an item.
* `Item.listed`: A list of items is an item.
* `splitAtCommas_listed`, `nameList_listed`, `splitAtAnd_listed`: A list is
  split into its items.
-/

namespace TableStore

/-- A part of a printed text in which the words `stops` do not begin, whatever
    follows it. -/
structure Item (stops : List String) (u : List Cell) : Prop where
  trimmed : Text.Trimmed Cell.isBlank u
  closed : Closed u
  marked : ∀ s, atDelimiter s = true → Marked s → Marked (u ++ s)
  goesOn : ∀ s, atDelimiter s = true → GoesOn stops (u ++ s)
  freeOf : ∀ s, atDelimiter s = true → FreeOf stops s u

/-- A text that may stand between two items. -/
structure Joins (stops : List String) (between : String) : Prop where
  atDelimiter : ∀ s, TableStore.atDelimiter (plain between ++ s) = true
  unquoted : between.toList.all (fun c => !isQuote c) = true
  freeOf : ∀ s, GoesOn stops s → FreeOf stops s (plain between)

/-- A run that belongs to one item of a list, whatever follows it. -/
def Unsplit (u : List Cell) : Prop :=
  ∀ s, piecesWithin 0 (u ++ s) = (piecesWithin 0 s).map (prependTo u)

section Join

variable {stops : List String} {u v : List Cell} {between : String}

theorem Item.atBlank (hu : Item stops u) (s : List Cell) :
    Text.atBlank Cell.isBlank (u ++ s) = false :=
  Text.atBlank_append hu.trimmed.1 s

theorem Item.ne_nil (hu : Item stops u) : u ≠ [] := by
  rintro rfl
  exact absurd hu.trimmed.1 (by decide)

/-- Items that are joined are an item. -/
theorem Item.append (hu : Item stops u) (hb : Joins stops between) (hv : Item stops v) :
    Item stops (u ++ (plain between ++ v)) where
  trimmed := hu.trimmed.append _ hv.trimmed
  closed := closed_append _ (closed_append _ hv.closed)
  marked := by
    intro s hs hmarked
    rw [List.append_assoc, List.append_assoc]
    exact hu.marked _ (hb.atDelimiter _) (marked_plain hb.unquoted (hv.marked s hs hmarked))
  goesOn := by
    intro s _
    rw [List.append_assoc, List.append_assoc]
    exact hu.goesOn _ (hb.atDelimiter _)
  freeOf := by
    intro s hs
    rw [freeOf_append, freeOf_append, List.append_assoc]
    exact ⟨hu.freeOf _ (hb.atDelimiter _), hb.freeOf _ (hv.goesOn s hs), hv.freeOf s hs⟩

/-- A list of items is an item. -/
theorem Item.listed (hb : Joins stops between) {us : List (List Cell)} (hne : us ≠ [])
    (hus : ∀ u ∈ us, Item stops u) : Item stops (TableStore.listed between us) := by
  induction us with
  | nil => exact absurd rfl hne
  | cons u us ih =>
    have hu := hus u List.mem_cons_self
    cases us with
    | nil =>
      rwa [TableStore.listed, List.flatMap_nil, List.append_nil]
    | cons v vs =>
      have hrest := ih (List.cons_ne_nil v vs) fun w hw => hus w (List.mem_cons_of_mem u hw)
      rw [TableStore.listed] at hrest
      rw [TableStore.listed, List.flatMap_cons, List.append_assoc]
      exact hu.append hb hrest

theorem joins_blank : Joins stops " " where
  atDelimiter := fun _ => rfl
  unquoted := by decide
  freeOf := fun _ hs => ⟨fun _ => hs, trivial⟩

theorem joins_comma : Joins stops ", " where
  atDelimiter := fun _ => rfl
  unquoted := by decide
  freeOf := fun _ hs => ⟨fun hblank => absurd hblank (by decide), fun _ => hs, trivial⟩

/-- A parenthesis opens between two items. -/
theorem joins_opening : Joins [] "(" where
  atDelimiter := fun _ => rfl
  unquoted := by decide
  freeOf := fun _ _ => ⟨fun hblank => absurd hblank (by decide), trivial⟩

theorem joins_blank_opening : Joins [] " (" where
  atDelimiter := fun _ => rfl
  unquoted := by decide
  freeOf := fun _ _ => ⟨fun _ => ⟨rfl, fun _ hk => absurd hk List.not_mem_nil⟩,
    fun hblank => absurd hblank (by decide), trivial⟩

/-- A parenthesis closes after an item. -/
theorem Item.close (hu : Item [] u) : Item [] (u ++ plain ")") where
  trimmed := ⟨Text.atBlank_append hu.trimmed.1 _, by rw [List.reverse_append]; rfl⟩
  closed := closed_append _ ⟨[], ')', rfl, by decide, by decide⟩
  marked := by
    intro s _ hmarked
    rw [List.append_assoc]
    exact hu.marked _ rfl (marked_plain (by decide) hmarked)
  goesOn := by
    intro s _
    rw [List.append_assoc]
    exact hu.goesOn _ rfl
  freeOf := by
    intro s _
    rw [freeOf_append]
    exact ⟨hu.freeOf _ rfl, fun hblank => absurd hblank (by decide), trivial⟩

theorem Item.words (hu : Item stops u) (hv : Item stops v) : Item stops (u ++ (plain " " ++ v)) :=
  hu.append joins_blank hv

/-- Words between blanks may stand between items if none of them is looked
    for. -/
theorem joins_words {w : String} (hw : Item stops (plain w))
    (hquote : w.toList.all (fun c => !isQuote c) = true) : Joins stops (" " ++ w ++ " ") where
  atDelimiter := by
    intro s
    rw [plain_append, plain_append]
    rfl
  unquoted := by
    rw [String.toList_append, String.toList_append, List.all_append, List.all_append, hquote]
    decide
  freeOf := by
    intro s hs
    rw [plain_append, plain_append, freeOf_append, freeOf_append]
    exact ⟨⟨joins_blank.freeOf _ (hw.goesOn _ rfl), hw.freeOf _ rfl⟩, joins_blank.freeOf _ hs⟩

/-- A run that is no keyword is an item. -/
theorem Solid.item (hu : Solid u) (hclosed : Closed u)
    (hmarked : ∀ s, atDelimiter s = true → Marked s → Marked (u ++ s))
    (hgoes : ∀ s, atDelimiter s = true → GoesOn stops (u ++ s)) : Item stops u where
  trimmed := hu.trimmed
  closed := hclosed
  marked := hmarked
  goesOn := hgoes
  freeOf := fun _ _ => hu.freeOf

theorem item_word (hstops : ∀ k ∈ stops, k ∈ clauseWords) {w : String} (hw : isWord w = true)
    (hne : ∀ k ∈ stops, capitals w ≠ k) : Item stops (plain w) := by
  have hcapital : ∀ k ∈ clauseWords, isCapital k = true := by decide
  exact (solid_plain hw).item (closed_word hw) (fun _ _ hs => marked_word hw hs)
    fun _ hs => goesOn_word (fun k hk => hcapital k (hstops k hk)) hw hne hs

/-- A word at which no clause ends is an item. -/
theorem item_otherWord (hstops : ∀ k ∈ stops, k ∈ clauseWords) (w : String)
    (hw : isWord w = true) (hne : capitals w ∉ clauseWords) : Item stops (plain w) :=
  item_word hstops hw fun k hk heq => hne (heq ▸ hstops k hk)

/-- Any word is an item where no word is looked for. -/
theorem item_of_isWord (w : String) (hw : isWord w = true) : Item [] (plain w) :=
  item_word (by simp) hw (by simp)

theorem item_name (hstops : ∀ k ∈ stops, k ∈ clauseWords) {w : String}
    (hw : isPlainName w = true) : Item stops (plain w) := by
  have hkeyword : ∀ k ∈ clauseWords, k ∈ keywords := by decide
  exact item_word hstops (isWord_of_isPlainName hw)
    fun k hk => capitals_ne_of_isPlainName hw (hkeyword k (hstops k hk))

theorem item_symbol (hstops : ∀ k ∈ stops, k ∈ clauseWords) {w : String}
    (hw : isSymbol w = true) : Item stops (plain w) := by
  have hcapital : ∀ k ∈ clauseWords, isCapital k = true := by decide
  exact (solid_symbol hw).item (closed_symbol hw) (fun _ _ hs => marked_symbol hw hs)
    fun _ _ => goesOn_symbol (fun k hk => hcapital k (hstops k hk)) hw

theorem item_value (hstops : ∀ k ∈ stops, k ∈ clauseWords) {v : Value}
    (hv : v.isLiteral = true) : Item stops v.cells :=
  (Value.solid_cells hv).item (Value.closed_cells hv) (fun _ hr hs => Value.marked_cells hv hr hs)
    fun _ hr => Value.goesOn_cells hstops hv hr

end Join

section Commas

variable {u v : List Cell}

theorem prependTo_append {α : Type} (u v : List α) (ws : List (List α)) :
    prependTo u (prependTo v ws) = prependTo (u ++ v) ws := by
  cases ws with
  | nil => rfl
  | cons w ws => simp [prependTo]

theorem unsplit_of_not_separates (hne : u ≠ []) (hu : ∀ c ∈ u, c.separates = false) : Unsplit u :=
  fun _ => piecesWithin_run hne hu

theorem Unsplit.append (hu : Unsplit u) (hv : Unsplit v) : Unsplit (u ++ v) := by
  intro s
  rw [List.append_assoc, hu, hv, Option.map_map]
  exact congrArg (fun f => Option.map f (piecesWithin 0 s))
    (funext fun ws => prependTo_append u v ws)

/-- Each item of a list but the first follows a comma and a blank. -/
theorem piecesWithin_items {us : List (List Cell)} (hus : ∀ u ∈ us, Unsplit u) :
    piecesWithin 0 (us.flatMap (plain ", " ++ ·))
      = some ([] :: us.map (⟨' ', false⟩ :: ·)) := by
  induction us with
  | nil => rfl
  | cons u us ih =>
    have hblank : piecesWithin 0 (⟨' ', false⟩ :: (u ++ us.flatMap (plain ", " ++ ·)))
        = some ((⟨' ', false⟩ :: u) :: us.map (⟨' ', false⟩ :: ·)) := by
      rw [piecesWithin_cons (by decide), hus u List.mem_cons_self,
        ih fun w hw => hus w (List.mem_cons_of_mem u hw)]
      simp [prependTo, Text.consWord]
    rw [List.flatMap_cons, List.append_assoc]
    exact congrArg (Option.map ([] :: ·)) hblank

theorem piecesWithin_listed {us : List (List Cell)} (hus : ∀ w ∈ u :: us, Unsplit w) :
    piecesWithin 0 (listed ", " (u :: us)) = some (u :: us.map (⟨' ', false⟩ :: ·)) := by
  rw [listed, hus u List.mem_cons_self,
    piecesWithin_items fun w hw => hus w (List.mem_cons_of_mem u hw)]
  simp [prependTo]

/-- A list separates nothing else than its items do. -/
theorem not_separates_listed {between : String} {us : List (List Cell)}
    (hbetween : ∀ c ∈ plain between, c.separates = false)
    (hus : ∀ u ∈ us, ∀ c ∈ u, c.separates = false) :
    ∀ c ∈ listed between us, c.separates = false := by
  intro c hc
  cases us with
  | nil => exact absurd hc (List.not_mem_nil)
  | cons u us =>
    rw [listed, List.mem_append, List.mem_flatMap] at hc
    rcases hc with hc | ⟨v, hv, hc⟩
    · exact hus u List.mem_cons_self c hc
    · rcases List.mem_append.mp hc with hc | hc
      · exact hbetween c hc
      · exact hus v (List.mem_cons_of_mem u hv) c hc

/-- The blank before an item is not part of it. -/
theorem trimCells_items {us : List (List Cell)}
    (hus : ∀ w ∈ u :: us, Text.Trimmed Cell.isBlank w) :
    (u :: us.map (⟨' ', false⟩ :: ·)).map trimCells = u :: us := by
  have hitem : ∀ w ∈ us, trimCells (⟨' ', false⟩ :: w) = w := by
    intro w hw
    have htrim := hus w (List.mem_cons_of_mem u hw)
    unfold trimCells Text.trimBy Text.trimStart
    rw [List.dropWhile_cons_of_pos (by decide)]
    exact htrim.trimBy
  have hfirst : trimCells u = u := (hus u List.mem_cons_self).trimBy
  rw [List.map_cons, hfirst, List.map_map]
  exact congrArg (u :: ·) ((List.map_congr_left hitem).trans (List.map_id us))

/-- A list is split into its items. -/
theorem splitAtCommas_listed {us : List (List Cell)} (hne : us ≠ [])
    (htrim : ∀ u ∈ us, Text.Trimmed Cell.isBlank u) (hus : ∀ u ∈ us, Unsplit u) :
    splitAtCommas (listed ", " us) = .ok us := by
  cases us with
  | nil => exact absurd rfl hne
  | cons u us =>
    unfold splitAtCommas
    rw [piecesWithin_listed hus]
    dsimp only
    rw [trimCells_items htrim]

/-- A list of items without marks of their own is split into these. -/
theorem splitAtCommas_map {α : Type} {cells : α → List Cell} {items : List α} (hne : items ≠ [])
    (hitem : ∀ a ∈ items, Item [] (cells a))
    (hseparates : ∀ a ∈ items, ∀ c ∈ cells a, c.separates = false) :
    splitAtCommas (listed ", " (items.map cells)) = .ok (items.map cells) :=
  splitAtCommas_listed (by simpa using hne)
    (List.forall_mem_map.mpr fun a ha => (hitem a ha).trimmed)
    (List.forall_mem_map.mpr fun a ha =>
      unsplit_of_not_separates (hitem a ha).ne_nil (hseparates a ha))

/-- Without parentheses every comma separates names. -/
theorem piecesWithin_eq_nameList {s : List Cell}
    (hs : ∀ c ∈ s, c.shows '(' = false ∧ c.shows ')' = false) :
    piecesWithin 0 s = some (nameList s) := by
  induction s with
  | nil => rfl
  | cons c s ih =>
    have hc := hs c List.mem_cons_self
    rw [piecesWithin, hc.1, hc.2, nameList, ih fun d hd => hs d (List.mem_cons_of_mem c hd)]
    cases c.shows ',' <;> rfl

end Commas

section Ands

/-- The conditions of a clause are found between the words AND. -/
theorem splitAtAnd_listed {us : List (List Cell)} (hne : us ≠ [])
    (hus : ∀ u ∈ us, Item ["AND"] u) : splitAtAnd 0 (listed " AND " us) = us := by
  -- Each item after the first has the word before it, so these are taken by induction.
  have hrest : ∀ vs : List (List Cell), (∀ v ∈ vs, Item ["AND"] v) →
      splitAtAnd 0 (vs.flatMap (plain " AND " ++ ·)) = [] :: vs
        ∧ atDelimiter (vs.flatMap (plain " AND " ++ ·)) = true := by
    intro vs
    induction vs with
    | nil => exact fun _ => ⟨splitAtAnd_nil 0, rfl⟩
    | cons v vs ih =>
      intro hvs
      have hv := hvs v List.mem_cons_self
      have hlater := ih fun w hw => hvs w (List.mem_cons_of_mem v hw)
      refine ⟨?_, rfl⟩
      have hfound : spacedPhrase? ["AND"]
          (⟨' ', false⟩ :: (plain "AND " ++ (v ++ vs.flatMap (plain " AND " ++ ·))))
          = some (v ++ vs.flatMap (plain " AND " ++ ·)) := by
        have hphrase : ∀ s, spacedPhrase? ["AND"] (⟨' ', false⟩ :: (plain "AND " ++ s))
            = some (skipBlanks s) := fun _ => rfl
        rw [hphrase, skipBlanks_of_text (hv.atBlank _)]
      rw [List.flatMap_cons, List.append_assoc]
      change splitAtAnd 0
        (⟨' ', false⟩ :: (plain "AND " ++ (v ++ vs.flatMap (plain " AND " ++ ·)))) = _
      rw [splitAtAnd_cons, hfound]
      dsimp only
      rw [splitAtAnd_freeOf hv.ne_nil (hv.freeOf _ hlater.2), hlater.1]
      simp [prependTo]
  cases us with
  | nil => exact absurd rfl hne
  | cons u us =>
    have hlater := hrest us fun w hw => hus w (List.mem_cons_of_mem u hw)
    have hu := hus u List.mem_cons_self
    rw [listed, splitAtAnd_freeOf hu.ne_nil (hu.freeOf _ hlater.2), hlater.1]
    simp [prependTo]

end Ands

section Whole

variable {u s : List Cell} {w : String}

/-- A text that is marked starts outside of literals. -/
theorem Marked.hidden_head {c : Cell} (h : Marked (c :: s)) : c.hidden = false := by
  unfold Marked hideLiterals cellChars at h
  rw [List.map_cons, markFrom, Option.map_eq_some_iff] at h
  rcases h with ⟨t, -, heq⟩
  rw [← (List.cons.inj heq).1]

/-- Nothing is taken off at the ends of a printed text. -/
theorem Item.trimmed_chars (hu : Item [] u) : Text.Trimmed Text.isBlank (cellChars u) := by
  have hmarked := hu.marked [] rfl marked_nil
  rw [List.append_nil] at hmarked
  constructor
  · have hstart := hu.trimmed.1
    cases u with
    | nil => exact absurd hstart (by decide)
    | cons c u =>
      have hhead := hmarked.hidden_head
      rcases c with ⟨a, _ | _⟩
      · exact hstart
      · exact absurd hhead (by simp)
  · rcases hu.closed with ⟨v, c, rfl, hblank, -⟩
    simpa [cellChars, Text.atBlank] using hblank

theorem splitWords_plain (hw : isWord w = true) (s : List Cell) :
    Text.splitWords ((plain w ++ (plain " " ++ s)).map Cell.visible)
      = w.toList :: Text.splitWords (s.map Cell.visible) := by
  have hvisible : (plain w).map Cell.visible = w.toList := by
    unfold plain
    rw [List.map_map]
    exact List.map_id _
  have hblank : ∀ a ∈ w.toList, Text.isBlank a = false :=
    fun a ha => (isNameChar_cell (isNameChar_of_isWord hw a ha)).2.1
  have hne : w.toList ≠ [] := List.map_eq_nil_iff.not.mp (plain_ne_nil hw)
  unfold Text.splitWords
  rw [List.map_append, List.map_append, hvisible, Text.splitRuns_run hne hblank, if_pos (by rfl)]
  exact congrArg (w.toList :: ·) (Text.splitRuns_blank (by decide) _)

/-- The first word of a statement, if another one follows. -/
theorem leadingWords_one (hw : isWord w = true) (s : List Cell) :
    ∃ rest, Statement.leadingWords (plain w ++ (plain " " ++ s))
      = String.ofList (Text.toUpper w.toList) :: rest := by
  unfold Statement.leadingWords
  rw [splitWords_plain hw]
  exact ⟨_, rfl⟩

/-- The first two words of a statement, if another one follows. -/
theorem leadingWords_two {v : String} (hw : isWord w = true) (hv : isWord v = true)
    (s : List Cell) :
    Statement.leadingWords (plain w ++ (plain " " ++ (plain v ++ (plain " " ++ s))))
      = [String.ofList (Text.toUpper w.toList), String.ofList (Text.toUpper v.toList)] := by
  unfold Statement.leadingWords
  rw [splitWords_plain hw, splitWords_plain hv]
  rfl

/-- The kind of a statement, if its first word says it. -/
theorem kindOf?_word {kind : StatementKind} (hw : isWord w = true)
    (hkind : ∀ later,
      Statement.kindOf? (String.ofList (Text.toUpper w.toList) :: later) = some kind)
    (s : List Cell) :
    Statement.kindOf? (Statement.leadingWords (plain w ++ (plain " " ++ s))) = some kind := by
  rcases leadingWords_one hw s with ⟨later, hlater⟩
  rw [hlater]
  exact hkind later

/-- The kind of a statement, if its first two words say it. -/
theorem kindOf?_words {v : String} {kind : StatementKind} (hw : isWord w = true)
    (hv : isWord v = true)
    (hkind : Statement.kindOf? [String.ofList (Text.toUpper w.toList),
      String.ofList (Text.toUpper v.toList)] = some kind) (s : List Cell) :
    Statement.kindOf? (Statement.leadingWords
      (plain w ++ (plain " " ++ (plain v ++ (plain " " ++ s))))) = some kind := by
  rw [leadingWords_two hw hv]
  exact hkind

/-- A printed text is read as the cells that it was printed from, with or
    without a semicolon. -/
theorem ofText_cells {kind : StatementKind} (hu : Item [] u)
    (hkind : Statement.kindOf? (Statement.leadingWords u) = some kind) (semicolon : Bool) :
    Statement.ofText (some (cellText u ++ if semicolon then ";" else ""))
      = Statement.readAs kind (cellText u) u := by
  have hmarked := hu.marked [] rfl marked_nil
  have htrim := hu.trimmed_chars
  rw [List.append_nil] at hmarked
  have hne : cellChars u ≠ [] := by
    intro hnil
    rw [hnil] at htrim
    exact absurd htrim.1 (by decide)
  have hchars : Statement.ofChars (cellChars u) = Statement.readAs kind (cellText u) u := by
    unfold Statement.ofChars
    rw [hmarked]
    dsimp only
    rw [hkind]
    rfl
  -- The text itself does not end with a semicolon, so none of it is taken off.
  have hdrop : Statement.dropSemicolon (cellChars u) = cellChars u := by
    rcases hu.closed with ⟨v, c, rfl, -, hc⟩
    unfold Statement.dropSemicolon
    rw [if_neg]
    simpa [cellChars] using hc
  have hempty : (cellChars u).isEmpty = false := by simpa using hne
  unfold Statement.ofText
  dsimp only
  cases semicolon with
  | false =>
    rw [if_neg Bool.false_ne_true, String.append_empty, cellText, String.toList_ofList,
      Text.trimBlanks, htrim.trimBy, hempty, if_neg Bool.false_ne_true, hdrop, hempty,
      if_neg Bool.false_ne_true, hchars]
    rfl
  | true =>
    have hlast : Text.Trimmed Text.isBlank (cellChars u ++ [';']) := by
      refine ⟨Text.atBlank_append htrim.1 _, ?_⟩
      rw [List.reverse_append]
      rfl
    have hend : Text.trimEnd Text.isBlank (cellChars u) = cellChars u := by
      unfold Text.trimEnd
      rw [Text.dropWhile_of_not_blank htrim.2, List.reverse_reverse]
    have hcut : Statement.dropSemicolon (cellChars u ++ [';']) = cellChars u := by
      unfold Statement.dropSemicolon
      rw [List.getLast?_concat, if_pos rfl, List.dropLast_concat, hend]
    rw [if_pos rfl, String.toList_append, cellText, String.toList_ofList,
      show ";".toList = [';'] from rfl, Text.trimBlanks, hlast.trimBy, if_neg (by simp), hcut,
      hempty, if_neg Bool.false_ne_true, hchars]
    rfl

end Whole

end TableStore
