import TableStore.Proofs.Statement.PrintedWhere

/-!
# Printed Queries

A query is read back from its text. Each of its clauses runs up to the first
place where the clauses after it can be read, so it has to be shown that there
is no such place inside of a clause. Every item of a clause is free of the
words at which the next clauses begin, whatever its literals contain, and that
is enough.

The number of a limit or an offset is refused if it has too many digits, as
every number is. All else is read back as it was printed.

## Main definitions

* `optionalClause`: A clause that may be absent, and what is read after it.
* `countDigits`: The digits of a limit or an offset.

## Theorems

* `optionalClause_cells`: A printed clause ends where it should.
* `selectParts?_cells`: The clauses of a printed query.
* `readSelect_cells`, `ofText_select`: A printed query is read back from its cells and
  from its text.
-/

namespace TableStore

/-- A clause that begins with a phrase and may be absent, and what is read
    after it. -/
def optionalClause {α : Type} (words : List String) (f : List Cell → Option α) (s : List Cell) :
    Option (Option (List Cell) × α) :=
  match (spacedPhrase? words s).bind (shortestPrefix? f) with
  | some (clause, rest) => some (some clause, rest)
  | none => (f s).map fun rest => (none, rest)

/-- The items of a clause, unless it is absent. -/
def clauseBody (between : String) : List (List Cell) → Option (List Cell)
  | [] => none
  | us => some (listed between us)

/-- The digits of a limit or an offset. -/
def countDigits (n : Nat) : List Nat :=
  Text.digitValues (Nat.toDigits 10 n)

theorem orderAndCounts?_eq (s : List Cell) :
    orderAndCounts? s = optionalClause ["ORDER", "BY"] counts? s := by
  unfold orderAndCounts? optionalClause
  cases (spacedPhrase? ["ORDER", "BY"] s).bind (shortestPrefix? counts?) <;> rfl

theorem clauses?_eq (s : List Cell) :
    clauses? s = optionalClause ["WHERE"] orderAndCounts? s := by
  unfold clauses? optionalClause
  cases (spacedPhrase? ["WHERE"] s).bind (shortestPrefix? orderAndCounts?) <;> rfl

section Clauses

variable {stops words : List String} {opening between : String} {us : List (List Cell)}
  {u tail : List Cell}

theorem clauseCells_cons (opening between : String) (u : List Cell) (us : List (List Cell)) :
    clauseCells opening between (u :: us) = plain opening ++ listed between (u :: us) := rfl

theorem clauseBody_of_ne_nil (hne : us ≠ []) :
    clauseBody between us = some (listed between us) := by
  cases us with
  | nil => exact absurd rfl hne
  | cons u us => rfl

theorem atDelimiter_clauseCells (hopening : ∀ s, atDelimiter (plain opening ++ s) = true)
    (htail : atDelimiter tail = true) :
    atDelimiter (clauseCells opening between us ++ tail) = true := by
  cases us with
  | nil => exact htail
  | cons v vs =>
    rw [clauseCells_cons, List.append_assoc]
    exact hopening _

/-- A clause after an item is part of it. -/
theorem Item.clause (hu : Item stops u) (hopening : Joins stops opening)
    (hbetween : Joins stops between) (hus : ∀ v ∈ us, Item stops v) :
    Item stops (u ++ clauseCells opening between us) := by
  cases us with
  | nil => rwa [clauseCells, List.append_nil]
  | cons v vs => exact hu.append hopening (Item.listed hbetween (List.cons_ne_nil v vs) hus)

/-- A printed clause ends where what follows it can be read. -/
theorem optionalClause_cells {α : Type} {f : List Cell → Option α} {a : α}
    (hopening : ∀ s, spacedPhrase? words (plain opening ++ s) = some (skipBlanks s))
    (hf : StopsAt stops f) (hbetween : Joins stops between) (hus : ∀ v ∈ us, Item stops v)
    (hr : atDelimiter tail = true) (hnone : spacedPhrase? words tail = none)
    (htail : f tail = some a) :
    optionalClause words f (clauseCells opening between us ++ tail)
      = some (clauseBody between us, a) := by
  cases us with
  | nil =>
    unfold optionalClause
    rw [clauseCells, List.nil_append, hnone, htail]
    rfl
  | cons v vs =>
    -- The clauses that follow cannot be read inside of the list, for it is free of their words.
    have hitem := Item.listed hbetween (List.cons_ne_nil v vs) hus
    unfold optionalClause
    rw [clauseCells_cons, List.append_assoc, hopening, skipBlanks_of_text (hitem.atBlank tail),
      Option.bind_some, (hitem.freeOf tail hr).shortestPrefix? hitem.ne_nil hf htail]
    rfl

end Clauses

section Counts

variable {w : String} {rest : List Cell}

theorem toString_eq_ofList (n : Nat) : toString n = String.ofList (Nat.toDigits 10 n) :=
  String.toList_injective (by rw [String.toList_ofList]; exact Nat.toList_repr)

theorem isWord_toString (n : Nat) : isWord (toString n) = true := by
  rw [toString_eq_ofList]
  exact isWord_digits (Text.toDigits_ne_nil n) fun c hc => Text.isDigit_toDigits hc

theorem countCells_some (w : String) (n : Nat) :
    countCells w (some n) = plain " " ++ (plain w ++ (plain " " ++ plain (toString n))) := by
  simp only [countCells, plain_append, List.append_assoc]

theorem count?_found (hw : isWord w = true) (n : Nat) (hr : atDelimiter rest = true) :
    count? w (countCells w (some n) ++ rest) = (some (countDigits n), rest) := by
  have hdigits := digits?_plain (Text.toDigits_ne_nil n) (fun c hc => Text.isDigit_toDigits hc) hr
  rw [← toString_eq_ofList] at hdigits
  have hphrase : spacedPhrase? [w] (countCells w (some n) ++ rest)
      = some (plain (toString n) ++ rest) := by
    have hfirst : blanks? (plain " " ++ (plain w ++ (plain " " ++ (plain (toString n) ++ rest))))
        = some (plain w ++ (plain " " ++ (plain (toString n) ++ rest))) :=
      blanks?_of_text (by rfl) (atBlank_plain hw)
    have hlast : blanks? (plain " " ++ (plain (toString n) ++ rest))
        = some (plain (toString n) ++ rest) :=
      blanks?_of_text (by rfl) (atBlank_plain (isWord_toString n))
    rw [countCells_some]
    simp only [List.append_assoc, spacedPhrase?, phrase?, Option.bind_eq_bind, hfirst,
      Option.bind_some, keyword?_plain, hlast]
  unfold count?
  rw [hphrase, Option.bind_some, hdigits]
  rfl

theorem atDelimiter_countCells (n : Option Nat) (hr : atDelimiter rest = true) :
    atDelimiter (countCells w n ++ rest) = true := by
  cases n with
  | none => exact hr
  | some n =>
    rw [countCells_some]
    rfl

/-- A limit and an offset are read to the end of the text. -/
theorem counts?_cells (limit offset : Option Nat) :
    counts? (countCells "LIMIT" limit ++ countCells "OFFSET" offset)
      = some (limit.map countDigits, offset.map countDigits) := by
  have hoffset : count? "OFFSET" (countCells "OFFSET" offset) = (offset.map countDigits, []) := by
    cases offset with
    | none => rfl
    | some n =>
      have hfound := @count?_found "OFFSET" [] (by decide) n rfl
      rwa [List.append_nil] at hfound
  have hlimit : count? "LIMIT" (countCells "LIMIT" limit ++ countCells "OFFSET" offset)
      = (limit.map countDigits, countCells "OFFSET" offset) := by
    cases limit with
    | none =>
      cases offset with
      | none => rfl
      | some n =>
        rw [countCells_some]
        rfl
    | some n =>
      have hr := @atDelimiter_countCells "OFFSET" [] offset rfl
      rw [List.append_nil] at hr
      exact count?_found (by decide) n hr
  unfold counts?
  rw [hlimit]
  dsimp only
  rw [hoffset]
  rfl

/-- A number begins no other clause. -/
theorem spacedPhrase?_countCells {words : List String} {n : Option Nat}
    (hw : ∀ s, spacedPhrase? words (plain " " ++ (plain w ++ (plain " " ++ s))) = none)
    (hrest : spacedPhrase? words rest = none) :
    spacedPhrase? words (countCells w n ++ rest) = none := by
  cases n with
  | none => exact hrest
  | some n =>
    rw [countCells_some]
    simp only [List.append_assoc]
    exact hw _

end Counts

section Select

variable {style : Style} {stops : List String}

theorem OrderItem.item (hstops : ∀ k ∈ stops, k ∈ clauseWords) {item : OrderItem}
    (h : isPlainName item.column = true) : Item stops (item.cells style) := by
  have hname : Item stops (plain item.column) := item_name hstops h
  unfold OrderItem.cells
  split
  · exact hname.words (item_otherWord hstops "DESC" (by decide) (by decide))
  · split
    · exact hname.words (item_otherWord hstops "ASC" (by decide) (by decide))
    · rwa [List.append_nil]

theorem orderItem?_cells {item : OrderItem} (h : isPlainName item.column = true) :
    orderItem? (item.cells style) = some item := by
  have hword := isWord_of_isPlainName h
  have hread : ∀ rest, atDelimiter rest = true →
      word? (plain item.column ++ rest) = some (item.column, rest) :=
    fun rest hr => word?_plain hword hr
  rcases item with ⟨column, descending⟩
  unfold OrderItem.cells orderItem?
  cases descending with
  | true =>
    rw [if_pos rfl, hread _ rfl]
    rfl
  | false =>
    rw [if_neg Bool.false_ne_true]
    split
    · rw [hread _ rfl]
      rfl
    · rw [hread _ rfl]
      rfl

theorem SelectItem.item (hstops : ∀ k ∈ stops, k ∈ clauseWords) {item : SelectItem}
    (h : item.isPrintable = true) : Item stops item.cells := by
  unfold SelectItem.isPrintable at h
  rw [Bool.and_eq_true] at h
  have hname : Item stops (plain item.column) := item_name hstops h.1
  have has : Item stops (plain "AS") :=
    item_word hstops (by decide) fun k hk heq => absurd (heq ▸ hstops k hk) (by decide)
  unfold SelectItem.cells
  cases hlabel : item.label with
  | none => exact hname
  | some label =>
    rw [hlabel] at h
    dsimp only
    rw [plain_append, plain_append, List.append_assoc]
    exact hname.words (has.words (item_name hstops h.2))

theorem SelectItem.not_separates {item : SelectItem} (h : item.isPrintable = true) :
    ∀ c ∈ item.cells, c.separates = false := by
  unfold SelectItem.isPrintable at h
  rw [Bool.and_eq_true] at h
  have hcolumn := (solid_plain (isWord_of_isPlainName h.1)).separates
  unfold SelectItem.cells
  cases hlabel : item.label with
  | none => exact hcolumn
  | some label =>
    rw [hlabel] at h
    have has : ∀ c ∈ plain " AS ", c.separates = false := by decide
    have hname := (solid_plain (isWord_of_isPlainName h.2)).separates
    dsimp only
    rw [plain_append, plain_append]
    simp only [List.forall_mem_append]
    exact ⟨⟨hcolumn, has⟩, hname⟩

theorem selectItem?_cells {item : SelectItem} (h : item.isPrintable = true) :
    selectItem? item.cells = some item := by
  unfold SelectItem.isPrintable at h
  rw [Bool.and_eq_true] at h
  have hread : ∀ rest, atDelimiter rest = true →
      word? (plain item.column ++ rest) = some (item.column, rest) :=
    fun rest hr => word?_plain (isWord_of_isPlainName h.1) hr
  rcases item with ⟨column, _ | label⟩
  · have hcolumn := hread [] rfl
    rw [List.append_nil] at hcolumn
    unfold SelectItem.cells selectItem?
    dsimp only
    rw [hcolumn]
    rfl
  · have hlabel := word?_plain_end (isWord_of_isPlainName h.2)
    have has : spacedPhrase? ["AS"] (plain " AS " ++ plain label) = some (plain label) :=
      spacedPhrase?_text (fun _ => rfl) (solid_plain (isWord_of_isPlainName h.2)).atBlank
    unfold SelectItem.cells selectItem?
    dsimp only
    rw [plain_append, plain_append, List.append_assoc, hread _ rfl]
    simp only [Option.bind_eq_bind, Option.bind_some, has, hlabel]
    rfl

theorem itemCells_of_ne_nil {items : List SelectItem} (hne : items ≠ []) :
    itemCells items = listed ", " (items.map SelectItem.cells) := by
  cases items with
  | nil => exact absurd rfl hne
  | cons item items => rfl

/-- The items of a query, or the star, are an item. -/
theorem item_itemCells (hstops : ∀ k ∈ stops, k ∈ clauseWords) {items : List SelectItem}
    (h : ∀ item ∈ items, item.isPrintable = true) : Item stops (itemCells items) := by
  by_cases hne : items = []
  · rw [hne]
    exact item_symbol hstops (by decide)
  · rw [itemCells_of_ne_nil hne]
    exact Item.listed joins_comma (by simpa using hne)
      (List.forall_mem_map.mpr fun item hmem => SelectItem.item hstops (h item hmem))

/-- A list of items begins with a name, which the star is not. -/
theorem visibleText_ne_star {column : String} (h : isPlainName column = true) (s : List Cell) :
    (visibleText (plain column ++ s) == "*") = false := by
  rw [beq_eq_false_iff_ne]
  intro heq
  have hword := isWord_of_isPlainName h
  rcases List.exists_cons_of_ne_nil (plain_ne_nil hword) with ⟨c, u, hu⟩
  have hc := cell_of_mem_plain hword (c := c) (by rw [hu]; exact List.mem_cons_self)
  have hlist := congrArg String.toList heq
  rw [visibleText, String.toList_ofList, hu] at hlist
  have hstar : c.visible = '*' := (List.cons.inj hlist).1
  have hblank := hc.1
  unfold Cell.isWordChar at hblank
  rw [hstar] at hblank
  exact absurd hblank (by decide)

/-- The items of a query are read back. -/
theorem readItems_cells (sql : String) {items : List SelectItem}
    (h : ∀ item ∈ items, item.isPrintable = true) :
    readItems sql (itemCells items) = .ok items := by
  by_cases hne : items = []
  · rw [hne]
    rfl
  · have hitem : Item [] (itemCells items) := item_itemCells (by simp) h
    have htrim : trimCells (itemCells items) = itemCells items := hitem.trimmed.trimBy
    -- The first item starts with a name, so the list is not the star.
    have hstar : (visibleText (itemCells items) == "*") = false := by
      rcases List.exists_cons_of_ne_nil hne with ⟨⟨column, label⟩, later, rfl⟩
      have hfirst := h _ List.mem_cons_self
      unfold SelectItem.isPrintable at hfirst
      rw [Bool.and_eq_true] at hfirst
      rw [itemCells_of_ne_nil hne, List.map_cons, listed]
      cases label with
      | none => exact visibleText_ne_star hfirst.1 _
      | some label =>
        rw [SelectItem.cells]
        dsimp only
        rw [plain_append, plain_append, List.append_assoc, List.append_assoc]
        exact visibleText_ne_star hfirst.1 _
    have hsplit : splitAtCommas (itemCells items) = .ok (items.map SelectItem.cells) := by
      rw [itemCells_of_ne_nil hne]
      exact splitAtCommas_map hne (fun item hmem => SelectItem.item (by simp) (h item hmem))
        fun item hmem => SelectItem.not_separates (h item hmem)
    unfold readItems
    rw [htrim, hstar, if_neg Bool.false_ne_true, hsplit]
    refine mapM_map_eq_ok fun item hmem => ?_
    rw [selectItem?_cells (h item hmem)]

theorem OrderItem.not_separates {item : OrderItem} (h : isPlainName item.column = true) :
    ∀ c ∈ item.cells style, c.separates = false := by
  have hcolumn := (solid_plain (isWord_of_isPlainName h)).separates
  have hdirection : ∀ c ∈ plain " DESC" ++ plain " ASC", c.separates = false := by decide
  rw [List.forall_mem_append] at hdirection
  unfold OrderItem.cells
  rw [List.forall_mem_append]
  refine ⟨hcolumn, ?_⟩
  split
  · exact hdirection.1
  · split
    · exact hdirection.2
    · exact fun c hc => absurd hc List.not_mem_nil

/-- The columns that a query sorts by are read back. -/
theorem readOrder_cells (sql : String) {order : List OrderItem}
    (h : ∀ item ∈ order, isPlainName item.column = true) :
    readOrder sql (clauseBody ", " (order.map (OrderItem.cells style))) = .ok order := by
  by_cases hne : order = []
  · rw [hne]
    rfl
  · have hsplit : splitAtCommas (listed ", " (order.map (OrderItem.cells style)))
        = .ok (order.map (OrderItem.cells style)) :=
      splitAtCommas_map hne (fun item hmem => OrderItem.item (by simp) (h item hmem))
        fun item hmem => OrderItem.not_separates (h item hmem)
    rw [clauseBody_of_ne_nil (by simpa using hne), readOrder, hsplit]
    refine mapM_map_eq_ok fun item hmem => ?_
    rw [orderItem?_cells (h item hmem)]

/-- The conditions of a clause that may be absent are read back. -/
theorem readOptionalWhere_cells {conditions : List Condition}
    (h : ∀ condition ∈ conditions, condition.isPrintable = true) :
    readOptionalWhere (clauseBody " AND " (conditions.map Condition.cells)) = .ok conditions := by
  by_cases hne : conditions = []
  · rw [hne]
    rfl
  · rw [clauseBody_of_ne_nil (by simpa using hne)]
    exact readWhere_listed hne h

/-- The numbers of a query are read back if they have few enough digits. -/
theorem readCount_countDigits (n : Option Nat) :
    readCount (n.map countDigits)
      = if n.all countWithinLimit then .ok n else .error .digitLimit := by
  cases n with
  | none => rfl
  | some n => exact readCount_digits n

variable {table : String} {items : List SelectItem} {conditions : List Condition}
  {order : List OrderItem} {limit offset : Option Nat}

/-- The numbers at the end of a query. -/
def countsCells (limit offset : Option Nat) : List Cell :=
  countCells "LIMIT" limit ++ countCells "OFFSET" offset

theorem atDelimiter_countsCells (limit offset : Option Nat) :
    atDelimiter (countsCells limit offset) = true := by
  have hoffset := @atDelimiter_countCells "OFFSET" [] offset rfl
  rw [List.append_nil] at hoffset
  exact atDelimiter_countCells limit hoffset

theorem spacedPhrase?_countsCells {words : List String}
    (hlimit : ∀ s, spacedPhrase? words (plain " LIMIT " ++ s) = none)
    (hoffset : ∀ s, spacedPhrase? words (plain " OFFSET " ++ s) = none)
    (hnil : spacedPhrase? words [] = none) :
    spacedPhrase? words (countsCells limit offset) = none := by
  refine spacedPhrase?_countCells hlimit ?_
  rw [← List.append_nil (countCells "OFFSET" offset)]
  exact spacedPhrase?_countCells hoffset hnil

theorem orderAndCounts?_cells (horder : ∀ item ∈ order, isPlainName item.column = true) :
    orderAndCounts? (orderCells style order ++ countsCells limit offset)
      = some (clauseBody ", " (order.map (OrderItem.cells style)), limit.map countDigits,
        offset.map countDigits) := by
  rw [orderAndCounts?_eq]
  exact optionalClause_cells (fun _ => rfl) stopsAt_counts? joins_comma
    (List.forall_mem_map.mpr fun item hmem => OrderItem.item (by decide) (horder item hmem))
    (atDelimiter_countsCells limit offset)
    (spacedPhrase?_countsCells (fun _ => rfl) (fun _ => rfl) rfl) (counts?_cells limit offset)

theorem clauses?_cells (hconditions : ∀ condition ∈ conditions, condition.isPrintable = true)
    (horder : ∀ item ∈ order, isPlainName item.column = true) :
    clauses? (whereCells conditions ++ (orderCells style order ++ countsCells limit offset))
      = some (clauseBody " AND " (conditions.map Condition.cells),
        clauseBody ", " (order.map (OrderItem.cells style)), limit.map countDigits,
        offset.map countDigits) := by
  have hnone : spacedPhrase? ["WHERE"] (orderCells style order ++ countsCells limit offset)
      = none := by
    cases order with
    | nil => exact spacedPhrase?_countsCells (fun _ => rfl) (fun _ => rfl) rfl
    | cons item order => rfl
  rw [clauses?_eq]
  exact optionalClause_cells (fun _ => rfl) stopsAt_orderAndCounts?
    (joins_and (by decide) (by decide))
    (List.forall_mem_map.mpr fun condition hmem =>
      Condition.item (by decide) (hconditions condition hmem))
    (atDelimiter_clauseCells (fun _ => rfl) (atDelimiter_countsCells limit offset)) hnone
    (orderAndCounts?_cells horder)

/-- The clauses of a printed query. -/
theorem selectParts?_cells (htable : isPlainName table = true)
    (hitems : ∀ item ∈ items, item.isPrintable = true)
    (hconditions : ∀ condition ∈ conditions, condition.isPrintable = true)
    (horder : ∀ item ∈ order, isPlainName item.column = true) :
    selectParts? (plain "SELECT" ++ (plain " " ++ (itemCells items ++ (plain " FROM "
        ++ (plain table ++ (whereCells conditions ++ (orderCells style order
          ++ countsCells limit offset)))))))
      = some ⟨itemCells items, table, clauseBody " AND " (conditions.map Condition.cells),
        clauseBody ", " (order.map (OrderItem.cells style)), limit.map countDigits,
        offset.map countDigits⟩ := by
  have hclauses := @clauses?_cells style conditions order limit offset hconditions horder
  have hr : atDelimiter (whereCells conditions
      ++ (orderCells style order ++ countsCells limit offset)) = true :=
    atDelimiter_clauseCells (fun _ => rfl)
      (atDelimiter_clauseCells (fun _ => rfl) (atDelimiter_countsCells limit offset))
  generalize whereCells conditions ++ (orderCells style order ++ countsCells limit offset) = tail
    at hclauses hr ⊢
  have hfrom : fromTable? (plain " FROM " ++ (plain table ++ tail))
      = some ⟨[], table, clauseBody " AND " (conditions.map Condition.cells),
        clauseBody ", " (order.map (OrderItem.cells style)), limit.map countDigits,
        offset.map countDigits⟩ := by
    have hphrase : spacedPhrase? ["FROM"] (plain " FROM " ++ (plain table ++ tail))
        = some (plain table ++ tail) :=
      spacedPhrase?_text (fun _ => rfl) (atBlank_plain (isWord_of_isPlainName htable))
    unfold fromTable?
    simp only [hphrase, Option.bind_eq_bind, Option.bind_some,
      word?_plain (isWord_of_isPlainName htable) hr, hclauses]
  -- The items end at the first place where the rest can be read.
  have hitem : Item ["FROM"] (itemCells items) := item_itemCells (by decide) hitems
  have hlist := (hitem.freeOf (plain " FROM " ++ (plain table ++ tail)) rfl).shortestPrefix?
    hitem.ne_nil stopsAt_fromTable? hfrom
  have hphrase : phrase? ["SELECT"] (plain "SELECT" ++ (plain " " ++ (itemCells items
      ++ (plain " FROM " ++ (plain table ++ tail)))))
      = some (⟨' ', false⟩ :: (itemCells items ++ (plain " FROM " ++ (plain table ++ tail)))) :=
    keyword?_plain "SELECT" _
  -- Each number of blanks after the first word is tried, but there is only one blank.
  have hblanks : (⟨' ', false⟩ :: (itemCells items ++ (plain " FROM "
      ++ (plain table ++ tail)))).takeWhile Cell.isBlank = [⟨' ', false⟩] := by
    have hstart := hitem.atBlank (plain " FROM " ++ (plain table ++ tail))
    rw [List.takeWhile_cons_of_pos (by decide)]
    generalize itemCells items ++ (plain " FROM " ++ (plain table ++ tail)) = s at hstart ⊢
    cases s with
    | nil => rfl
    | cons c s => rw [List.takeWhile_cons_of_neg (by simpa [Text.atBlank] using hstart)]
  unfold selectParts?
  simp only [hphrase, Option.bind_eq_bind, Option.bind_some, hblanks, List.length_singleton]
  rw [show List.range 1 = [0] from rfl, List.findSome?_cons, Nat.sub_zero, List.drop_succ_cons,
    List.drop_zero, hlist]
  rfl

theorem select_cells (style : Style) (table : String) (items : List SelectItem)
    (conditions : List Condition) (order : List OrderItem) (limit offset : Option Nat) :
    (Statement.select table items conditions order limit offset).cells style
      = plain "SELECT" ++ (plain " " ++ (itemCells items ++ (plain " FROM " ++ (plain table
        ++ (whereCells conditions ++ (orderCells style order ++ countsCells limit offset)))))) := by
  simp only [Statement.cells, countsCells, plain_append, List.append_assoc]
  rfl

/-- A query is read back, or refused for the digits of a number. -/
theorem readSelect_cells (sql : String) (htable : isPlainName table = true)
    (hitems : ∀ item ∈ items, item.isPrintable = true)
    (hconditions : ∀ condition ∈ conditions, condition.isPrintable = true)
    (horder : ∀ item ∈ order, isPlainName item.column = true) :
    readSelect sql ((Statement.select table items conditions order limit offset).cells style)
      = if (Statement.select table items conditions order limit offset).countsWithinLimit
        then .ok (.select table items conditions order limit offset) else .error .digitLimit := by
  unfold readSelect
  rw [select_cells, selectParts?_cells htable hitems hconditions horder]
  dsimp only
  rw [readItems_cells sql hitems, ok_bind, readOptionalWhere_cells hconditions, ok_bind,
    readOrder_cells sql horder, ok_bind, readCount_countDigits, readCount_countDigits]
  change _ = if (limit.all countWithinLimit && offset.all countWithinLimit) = true then _ else _
  cases limit.all countWithinLimit <;> cases offset.all countWithinLimit <;> rfl

/-- A number after an item is part of it. -/
theorem Item.count {u : List Cell} {w : String} (hu : Item [] u) (hw : isWord w = true)
    (n : Option Nat) : Item [] (u ++ countCells w n) := by
  cases n with
  | none => rwa [countCells, List.append_nil]
  | some n =>
    rw [countCells_some]
    exact hu.words ((item_of_isWord w hw).words (item_of_isWord _ (isWord_toString n)))

theorem Item.whereClause {u : List Cell} (hu : Item [] u)
    (hconditions : ∀ condition ∈ conditions, condition.isPrintable = true) :
    Item [] (u ++ whereCells conditions) := by
  have hopening : Joins [] " WHERE " :=
    joins_words (item_of_isWord "WHERE" (by decide)) (by decide)
  exact hu.clause hopening (joins_and (by simp) (by simp))
    (List.forall_mem_map.mpr fun condition hmem =>
      Condition.item (by simp) (hconditions condition hmem))

/-- A query is an item. -/
theorem item_select (htable : isPlainName table = true)
    (hitems : ∀ item ∈ items, item.isPrintable = true)
    (hconditions : ∀ condition ∈ conditions, condition.isPrintable = true)
    (horder : ∀ item ∈ order, isPlainName item.column = true) :
    Item [] ((Statement.select table items conditions order limit offset).cells style) := by
  have hfrom : Joins [] " FROM " := joins_words (item_of_isWord "FROM" (by decide)) (by decide)
  have horderBy : Joins [] " ORDER BY " :=
    joins_words (w := "ORDER BY")
      ((item_of_isWord "ORDER" (by decide)).words (item_of_isWord "BY" (by decide))) (by decide)
  have hhead : Item [] (plain "SELECT" ++ (plain " " ++ (itemCells items ++ (plain " FROM "
      ++ plain table)))) :=
    (item_of_isWord "SELECT" (by decide)).words
      ((item_itemCells (by simp) hitems).append hfrom (item_name (by simp) htable))
  have hitems : ∀ u ∈ order.map (OrderItem.cells style), Item [] u :=
    List.forall_mem_map.mpr fun item hmem => OrderItem.item (by simp) (horder item hmem)
  have hclauses := (hhead.whereClause hconditions).clause horderBy joins_comma hitems
  have hwhole := (hclauses.count (show isWord "LIMIT" = true by decide) limit).count
    (show isWord "OFFSET" = true by decide) offset
  rw [select_cells]
  simp only [countsCells, orderCells, List.append_assoc] at hwhole ⊢
  exact hwhole

/-- A query is read back from its text, or refused for the digits of a number. -/
theorem ofText_select (style : Style) (htable : isPlainName table = true)
    (hitems : ∀ item ∈ items, item.isPrintable = true)
    (hconditions : ∀ condition ∈ conditions, condition.isPrintable = true)
    (horder : ∀ item ∈ order, isPlainName item.column = true) :
    Statement.ofText (some ((Statement.select table items conditions order limit offset).text style))
      = if (Statement.select table items conditions order limit offset).countsWithinLimit
        then .ok (.select table items conditions order limit offset) else .error .digitLimit := by
  have hkind : Statement.kindOf? (Statement.leadingWords
      ((Statement.select table items conditions order limit offset).cells style))
        = some .select := by
    rw [select_cells]
    exact kindOf?_word (by decide) (fun _ => rfl) _
  rw [Statement.text, ofText_cells (item_select htable hitems hconditions horder) hkind]
  exact readSelect_cells _ htable hitems hconditions horder

end Select

end TableStore
