import TableStore.Proofs.Json.Number
import TableStore.Proofs.Statement.Alike
import TableStore.Proofs.Statement.Words

/-!
# Printed Values

The literal of a value is read back as the value. It is one run without blanks
and without marks of the grammar, for what a text contains is hidden, and no
keyword begins in it other than the words NULL, TRUE and FALSE. That is all
that the statements around it need to know.

A number is also read outside of literals, as a limit or in a sum, where its
digits are taken one by one.

## Main definitions

* `Solid`: A run without blanks and separators.
* `Marked`: Cells that are the marking of their own characters.
* `Closed`: Text at whose end nothing is taken off.

## Theorems

* `Value.ofLiteral_cells`: A literal denotes the value that it was printed for.
* `Value.solid_cells`, `Value.marked_cells`, `Value.closed_cells`,
  `Value.goesOn_cells`, `Value.absent_cells`: What a literal looks like.
* `digits?_plain`, `readCount_digits`: A number outside of literals.
-/

namespace TableStore

/-- The words at which a clause or a condition ends. -/
def clauseWords : List String :=
  ["FROM", "WHERE", "AND", "ORDER", "LIMIT", "OFFSET"]

/-- A run without blanks and without the marks that separate items. -/
structure Solid (u : List Cell) : Prop where
  ne_nil : u ≠ []
  isBlank : ∀ c ∈ u, c.isBlank = false
  separates : ∀ c ∈ u, c.separates = false

/-- Cells that are the marking of their own characters. -/
def Marked (s : List Cell) : Prop :=
  hideLiterals (cellChars s) = some s

/-- Text at the end of which neither a blank nor a semicolon is taken off. -/
def Closed (s : List Cell) : Prop :=
  ∃ u c, s = u ++ [⟨c, false⟩] ∧ Text.isBlank c = false ∧ c ≠ ';'

section Runs

variable {u s : List Cell} {w : String}

theorem Solid.trimmed (hu : Solid u) : Text.Trimmed Cell.isBlank u :=
  Text.trimmed_of_forall hu.ne_nil hu.isBlank

theorem Solid.atBlank (hu : Solid u) : Text.atBlank Cell.isBlank u = false :=
  hu.trimmed.1

theorem Solid.freeOf (hu : Solid u) {stops : List String} : FreeOf stops s u :=
  freeOf_of_not_blank hu.isBlank

theorem solid_plain (hw : isWord w = true) : Solid (plain w) where
  ne_nil := plain_ne_nil hw
  isBlank := fun _ hc => (cell_of_mem_plain hw hc).2.1
  separates := fun _ hc => (cell_of_mem_plain hw hc).2.2

theorem cellChars_literal (q : Char) (body : List Char) :
    cellChars (literalCells q body) = q :: (body ++ [q]) := by
  have hbody : (insideCells body).map Cell.char = body := by
    rw [insideCells, List.map_map]
    exact List.map_id _
  simp [cellChars, literalCells, hbody]

theorem solid_symbol (hw : isSymbol w = true) : Solid (plain w) where
  ne_nil := by
    rcases exists_cons_of_isSymbol hw with ⟨c, u, hu, -⟩
    simp [plain, hu]
  isBlank := by
    intro c hc
    rcases mem_plain.mp hc with ⟨a, ha, rfl⟩
    exact (isSymbolChar_cell (isSymbolChar_of_isSymbol hw a ha)).2.2.1
  separates := by
    intro c hc
    rcases mem_plain.mp hc with ⟨a, ha, rfl⟩
    exact (isSymbolChar_cell (isSymbolChar_of_isSymbol hw a ha)).2.2.2.2.2

theorem marked_nil : Marked [] := rfl

/-- Text without quotes is marked as itself. -/
theorem marked_plain (hw : w.toList.all (fun c => !isQuote c) = true) (hs : Marked s) :
    Marked (plain w ++ s) := by
  unfold Marked hideLiterals at hs ⊢
  unfold plain
  generalize w.toList = chars at hw ⊢
  induction chars with
  | nil => exact hs
  | cons c u ih =>
    rw [List.all_cons, Bool.and_eq_true, Bool.not_eq_true'] at hw
    rw [List.map_cons, List.cons_append, cellChars, List.map_cons, markFrom_outside hw.1]
    exact congrArg (Option.map (⟨c, false⟩ :: ·)) (ih hw.2)

theorem marked_word (hw : isWord w = true) (hs : Marked s) : Marked (plain w ++ s) := by
  refine marked_plain ?_ hs
  rw [List.all_eq_true]
  intro c hc
  rw [(isNameChar_cell (isNameChar_of_isWord hw c hc)).2.2.2.1]
  rfl

theorem marked_symbol (hw : isSymbol w = true) (hs : Marked s) : Marked (plain w ++ s) := by
  refine marked_plain ?_ hs
  rw [List.all_eq_true]
  intro c hc
  rw [(isSymbolChar_cell (isSymbolChar_of_isSymbol hw c hc)).2.2.2.1]
  rfl

theorem marked_literal {body : List Char} (hbody : LiteralBody '\'' body)
    (hr : atDelimiter s = true) (hs : Marked s) : Marked (literalCells '\'' body ++ s) := by
  have hchars : cellChars (literalCells '\'' body ++ s)
      = '\'' :: (body ++ '\'' :: cellChars s) := by
    have hliteral := cellChars_literal '\'' body
    unfold cellChars at hliteral ⊢
    rw [List.map_append, hliteral, List.cons_append, List.append_assoc]
    rfl
  have hhead : (cellChars s).head? ≠ some '\'' := by
    cases s with
    | nil => simp [cellChars]
    | cons c s => rcases atDelimiter_cons hr with rfl | rfl | rfl | rfl <;> simp [cellChars]
  unfold Marked hideLiterals at hs ⊢
  rw [hchars, markFrom_literal (by decide) hbody hhead, hs]
  rfl

theorem closed_append (u : List Cell) (hs : Closed s) : Closed (u ++ s) := by
  rcases hs with ⟨v, c, rfl, hc⟩
  exact ⟨u ++ v, c, (List.append_assoc u v _).symm, hc⟩

theorem closed_plain (hne : w.toList ≠ [])
    (hw : ∀ a ∈ w.toList, Text.isBlank a = false ∧ a ≠ ';') : Closed (plain w) := by
  rcases List.eq_nil_or_concat' w.toList with hnil | ⟨u, c, hu⟩
  · exact absurd hnil hne
  · have hc := hw c (by rw [hu]; simp)
    exact ⟨u.map fun a => ⟨a, false⟩, c, by rw [plain, hu, List.map_append]; rfl, hc.1, hc.2⟩

theorem closed_word (hw : isWord w = true) : Closed (plain w) := by
  refine closed_plain (List.map_eq_nil_iff.not.mp (plain_ne_nil hw)) ?_
  intro a ha
  have hcell := isNameChar_cell (isNameChar_of_isWord hw a ha)
  exact ⟨hcell.2.1, by simpa using hcell.2.2.2.2⟩

theorem closed_symbol (hw : isSymbol w = true) : Closed (plain w) := by
  refine closed_plain (List.map_eq_nil_iff.not.mp (solid_symbol hw).ne_nil) ?_
  intro a ha
  have hcell := isSymbolChar_cell (isSymbolChar_of_isSymbol hw a ha)
  exact ⟨hcell.2.2.1, hcell.2.2.2.2.1⟩

theorem closed_literal (body : List Char) : Closed (literalCells '\'' body) :=
  ⟨⟨'\'', false⟩ :: insideCells body, '\'', rfl, by decide, by decide⟩

end Runs

section Numbers

/-- The characters of an integer are symbols, and they are their own capitals. -/
theorem numeral_char {c : Char} (hc : c = '-' ∨ c.isDigit = true) :
    isSymbolChar c = true ∧ Text.upperChar c = [c] ∧ c.isUpper = false := by
  rcases hc with rfl | hc
  · decide
  · have hlt : c.toNat < 128 := by
      have hbounds := Text.isDigit_bounds hc
      omega
    exact forall_ascii (p := fun c => c.isDigit = true → isSymbolChar c = true
      ∧ Text.upperChar c = [c] ∧ c.isUpper = false) (by decide +kernel) hlt hc

theorem mem_toString {n : Int} {c : Char} (hc : c ∈ (toString n).toList) :
    c = '-' ∨ c.isDigit = true := by
  rw [Text.toList_toString] at hc
  split at hc
  · rcases List.mem_cons.mp hc with rfl | hc
    · exact Or.inl rfl
    · exact Or.inr (Text.isDigit_toDigits hc)
  · exact Or.inr (Text.isDigit_toDigits hc)

theorem toString_ne_nil (n : Int) : (toString n).toList ≠ [] := by
  rw [Text.toList_toString]
  split
  · exact List.cons_ne_nil _ _
  · exact Text.toDigits_ne_nil _

theorem isSymbol_toString (n : Int) : isSymbol (toString n) = true := by
  unfold isSymbol
  rw [Bool.and_eq_true, List.all_eq_true]
  refine ⟨?_, fun c hc => (numeral_char (mem_toString hc)).1⟩
  simpa using toString_ne_nil n

/-- The text of a number that is not negative is one word. -/
theorem isWord_digits {s : List Char} (hne : s ≠ []) (hs : ∀ c ∈ s, c.isDigit = true) :
    isWord (String.ofList s) = true := by
  unfold isWord
  rw [String.toList_ofList, Bool.and_eq_true, List.all_eq_true]
  refine ⟨by simpa using hne, ?_⟩
  intro c hc
  unfold isNameChar Char.isAlphanum
  rw [hs c hc, Bool.or_true, Bool.true_or]

theorem digitValue?_of_isDigit {c : Char} (hc : c.isDigit = true) :
    Text.digitValue? c = some (c.toNat - 48) := by
  have hbounds := Text.isDigit_bounds hc
  unfold Text.digitValue?
  dsimp only
  rw [if_pos (by omega), if_pos (by simpa using hbounds)]

/-- All digits are taken from a text that consists of digits. -/
theorem takeDigits_digits {s : List Char} (hs : ∀ c ∈ s, c.isDigit = true) :
    takeDigits s = (Text.digitValues s, []) := by
  induction s with
  | nil => rfl
  | cons c s ih =>
    rw [takeDigits, digitValue?_of_isDigit (hs c List.mem_cons_self),
      ih fun d hd => hs d (List.mem_cons_of_mem c hd)]
    rfl

/-- Digits are taken up to the next delimiter. -/
theorem digits?_plain {s : List Char} {rest : List Cell} (hne : s ≠ [])
    (hs : ∀ c ∈ s, c.isDigit = true) (hr : atDelimiter rest = true) :
    digits? (plain (String.ofList s) ++ rest) = some (Text.digitValues s, rest) := by
  have hcells : ∀ c ∈ plain (String.ofList s), Text.isDigit c.visible = true := by
    intro c hc
    rcases mem_plain.mp hc with ⟨a, ha, rfl⟩
    rw [String.toList_ofList] at ha
    unfold Text.isDigit
    rw [show Cell.visible ⟨a, false⟩ = a from rfl, digitValue?_of_isDigit (hs a ha)]
    rfl
  -- What follows starts with no digit.
  have hstop : rest.takeWhile (fun c => Text.isDigit c.visible) = []
      ∧ rest.dropWhile (fun c => Text.isDigit c.visible) = rest := by
    cases rest with
    | nil => exact ⟨rfl, rfl⟩
    | cons c rest => rcases atDelimiter_cons hr with rfl | rfl | rfl | rfl <;> exact ⟨rfl, rfl⟩
  have hvalues : (plain (String.ofList s)).filterMap (fun c => Text.digitValue? c.visible)
      = Text.digitValues s := by
    unfold plain Text.digitValues
    rw [String.toList_ofList, List.filterMap_map, ← List.filterMap_eq_map]
    refine List.filterMap_congr fun c hc => ?_
    exact digitValue?_of_isDigit (hs c hc)
  unfold digits?
  dsimp only
  rw [List.takeWhile_append_of_pos hcells, List.dropWhile_append_of_pos hcells, hstop.1, hstop.2,
    List.append_nil, hvalues, if_neg (by simpa using plain_ne_nil (isWord_digits hne hs))]

/-- No digit is a sign. -/
theorem ne_sign_of_isDigit {c : Char} (hc : c.isDigit = true) : c ≠ '+' ∧ c ≠ '-' := by
  constructor <;> rintro rfl <;> exact absurd hc (by decide)

theorem isNumber_toString (n : Int) : isNumber (plain (toString n)) = true := by
  have hdigits : ∀ c ∈ Nat.toDigits 10 n.natAbs, c.isDigit = true :=
    fun c hc => Text.isDigit_toDigits hc
  have hread := @digits?_plain _ [] (Text.toDigits_ne_nil n.natAbs) hdigits rfl
  have hunsigned : ((arithmetic? (plain (toString n))).map Prod.snd).getD (plain (toString n))
      = plain (String.ofList (Nat.toDigits 10 n.natAbs)) := by
    unfold plain
    rw [Text.toList_toString, String.toList_ofList]
    by_cases hneg : n < 0
    · rw [if_pos hneg]
      rfl
    · rcases List.exists_cons_of_ne_nil (Text.toDigits_ne_nil n.natAbs) with ⟨c, s, hcons⟩
      have hc := ne_sign_of_isDigit (hdigits c (by rw [hcons]; exact List.mem_cons_self))
      rw [if_neg hneg, hcons]
      simp [arithmetic?, Cell.shows, Cell.visible, hc.1, hc.2]
  rw [List.append_nil] at hread
  rw [isNumber_eq, hunsigned, hread]
  rfl

/-- The digits of a limit or an offset give its number. -/
theorem readCount_digits (n : Nat) :
    readCount (some (Text.digitValues (Nat.toDigits 10 n)))
      = if Text.withinDigitLimit n then .ok (some n) else .error .digitLimit := by
  have hint := integerOf_toDigits false n
  rw [Int.natAbs_natCast] at hint
  rw [readCount, hint]
  split <;> rfl

end Numbers

section Literals

theorem collapsePairs_cons {a b c : Char} (hc : c ≠ a) (s : List Char) :
    collapsePairs a b (c :: s) = c :: collapsePairs a b s := by
  cases s with
  | nil => rfl
  | cons d s => rw [collapsePairs, if_neg (by simp [hc])]

/-- A backslash that takes no quote with it is kept. -/
theorem SlashesApart.collapsePairs {q : Char} {s : List Char} (hs : SlashesApart q s) :
    TableStore.collapsePairs '\\' q s = s := by
  induction s with
  | nil => rfl
  | cons c s ih =>
    by_cases hc : c = '\\'
    · subst hc
      rcases hs [] s rfl with ⟨d, rest, rfl, hd⟩
      rw [TableStore.collapsePairs, if_neg (by simp [hd]), ih hs.tail]
    · rw [collapsePairs_cons hc, ih hs.tail]

/-- Each quote that was doubled is read as one. -/
theorem collapsePairs_doubled (q : Char) (s : List Char) : collapsePairs q q (doubled q s) = s := by
  induction s with
  | nil => rfl
  | cons c s ih =>
    unfold doubled at ih ⊢
    rw [List.flatMap_cons]
    by_cases hc : c = q
    · rw [if_pos hc, hc, List.cons_append, List.cons_append, List.nil_append, collapsePairs,
        if_pos (by simp), ih]
    · rw [if_neg hc, List.cons_append, List.nil_append, collapsePairs_cons hc, ih]

theorem takeSign_unsigned {c : Char} (hc : c ≠ '+' ∧ c ≠ '-') (s : List Char) :
    takeSign (c :: s) = (false, c :: s) := by
  unfold takeSign
  split
  · rename_i heq
    exact absurd (List.cons.inj heq).1 hc.2
  · rename_i heq
    exact absurd (List.cons.inj heq).1 hc.1
  · rfl

theorem takeSign_toString (n : Int) :
    takeSign (toString n).toList = (decide (n < 0), Nat.toDigits 10 n.natAbs) := by
  rw [Text.toList_toString]
  by_cases hneg : n < 0
  · rw [if_pos hneg, decide_eq_true hneg]
    rfl
  · rw [if_neg hneg, decide_eq_false hneg]
    rcases List.exists_cons_of_ne_nil (Text.toDigits_ne_nil n.natAbs) with ⟨c, s, hcons⟩
    have hc := ne_sign_of_isDigit
      (Text.isDigit_toDigits (n := n.natAbs) (by rw [hcons]; exact List.mem_cons_self))
    rw [hcons, takeSign_unsigned hc]

/-- What begins with a digit or a minus is no word and no text in quotes. It is tried as a
    float and then as an integer. -/
theorem Value.ofTrimmed_numeral {c : Char} (hc : c = '-' ∨ c.isDigit = true) (s : List Char) :
    Value.ofTrimmed (c :: s)
      = match (readFloat? (c :: s)).filter Double.isFinite with
        | some d => .ok (.float d)
        | none =>
          match readInteger? (c :: s) with
          | some (negative, digits) => (integerOf negative digits).map .int
          | none => .ok (.text (String.ofList (c :: s))) := by
  have hchar := numeral_char hc
  have hword : ∀ a w, a.isUpper = true → (Text.toUpper (c :: s) == a :: w) = false := by
    intro a w ha
    rw [Text.toUpper, List.flatMap_cons, hchar.2.1, beq_eq_false_iff_ne]
    intro heq
    rw [← (List.cons.inj heq).1, hchar.2.2] at ha
    exact absurd ha Bool.false_ne_true
  have hquoted : quotedContent? (c :: s) = none := by
    rw [quotedContent?, (isSymbolChar_cell hchar.1).2.2.2.1]
    rfl
  unfold Value.ofTrimmed
  dsimp only
  rw [List.isEmpty_cons, show "NULL".toList = 'N' :: "ULL".toList from rfl, hword _ _ (by decide),
    hquoted, show "TRUE".toList = 'T' :: "RUE".toList from rfl, hword _ _ (by decide),
    show "FALSE".toList = 'F' :: "ALSE".toList from rfl, hword _ _ (by decide)]
  rfl

/-- The text of an integer denotes it. -/
theorem ofTrimmed_toString {n : Int} (hn : Text.withinDigitLimit n = true) :
    Value.ofTrimmed (toString n).toList = .ok (.int n) := by
  have htake : takeDigits (Nat.toDigits 10 n.natAbs)
      = (Text.digitValues (Nat.toDigits 10 n.natAbs), []) :=
    takeDigits_digits fun c hc => Text.isDigit_toDigits hc
  -- There is no point after the digits, so it is no float.
  have hfloat : readFloat? (toString n).toList = none := by
    unfold readFloat?
    rw [takeSign_toString]
    dsimp only
    rw [htake]
  have hinteger : readInteger? (toString n).toList
      = some (decide (n < 0), Text.digitValues (Nat.toDigits 10 n.natAbs)) := by
    unfold readInteger?
    rw [takeSign_toString]
    dsimp only
    rw [htake]
    dsimp only
    rw [if_pos]
    simp [Text.digitValues, Text.toDigits_ne_nil n.natAbs]
  have hsigned : (if decide (n < 0) = true then -(n.natAbs : Int) else n.natAbs) = n := by
    by_cases hneg : n < 0
    · rw [if_pos (by simpa using hneg)]
      omega
    · rw [if_neg (by simpa using hneg)]
      omega
  obtain ⟨c, s, hcons⟩ := List.exists_cons_of_ne_nil (toString_ne_nil n)
  have hc := mem_toString (n := n) (c := c) (by rw [hcons]; exact List.mem_cons_self)
  rw [hcons] at hfloat hinteger ⊢
  rw [Value.ofTrimmed_numeral hc, hfloat, hinteger]
  dsimp only [Option.filter_none]
  rw [integerOf_toDigits, if_pos hn, hsigned]
  rfl

/-- What a text in quotes denotes. -/
theorem Value.ofLiteral_quoted {q : Char} (hq : isQuote q = true) (body : List Char) :
    Value.ofLiteral (q :: (body ++ [q]))
      = .ok (.text (String.ofList (unescapeQuotes q body))) := by
  have htrim : Text.Trimmed Text.isBlank (q :: (body ++ [q])) :=
    Text.Trimmed.append (u := [q]) (v := [q]) ⟨by simp [Text.atBlank, isBlank_quote hq],
      by simp [Text.atBlank, isBlank_quote hq]⟩ _ ⟨by simp [Text.atBlank, isBlank_quote hq],
      by simp [Text.atBlank, isBlank_quote hq]⟩
  rw [Value.ofLiteral, Text.trimBlanks, htrim.trimBy, Value.ofTrimmed_of_quote hq,
    if_pos List.getLast?_concat, List.dropLast_concat]

/-- The literal of a text denotes it. -/
theorem Value.ofLiteral_doubled {q : Char} {s : List Char} (hq : isQuote q = true)
    (hs : SlashesApart q s) :
    Value.ofLiteral (q :: (doubled q s ++ [q])) = .ok (.text (String.ofList s)) := by
  rw [Value.ofLiteral_quoted hq, unescapeQuotes, collapsePairs_doubled, hs.collapsePairs]

end Literals

namespace Value

variable {v : Value} {s : List Cell} {stops : List String}

/-- A literal denotes the value that it was printed for. -/
theorem ofLiteral_cells (hv : v.isLiteral = true) :
    Value.ofLiteral (cellChars v.cells) = .ok v := by
  cases v with
  | null => rfl
  | bool b => cases b <;> rfl
  | int n =>
    have htrim : Text.Trimmed Text.isBlank (toString n).toList :=
      Text.trimmed_of_forall (toString_ne_nil n) fun c hc =>
        (isSymbolChar_cell (numeral_char (mem_toString hc)).1).2.2.1
    rw [cells, cellChars_plain, Value.ofLiteral, Text.trimBlanks, htrim.trimBy]
    exact ofTrimmed_toString hv
  | text t =>
    rw [cells, cellChars_literal, ofLiteral_doubled (by decide), String.ofList_toList]
    refine slashesApart_of_not_mem fun hmem => ?_
    rw [isLiteral, List.contains_iff_mem.mpr hmem] at hv
    exact absurd hv (by decide)
  | _ => exact absurd hv Bool.false_ne_true

theorem solid_cells (hv : v.isLiteral = true) : Solid v.cells := by
  cases v with
  | null => exact solid_plain (by decide)
  | bool b => cases b <;> exact solid_plain (by decide)
  | int n => exact solid_symbol (isSymbol_toString n)
  | text t =>
    refine ⟨literalCells_ne_nil _ _, ?_, ?_⟩
    · exact fun c hc => (sealed_of_mem_literalCells (by decide) hc).isBlank
    · exact fun c hc => (sealed_of_mem_literalCells (by decide) hc).separates
  | _ => exact absurd hv Bool.false_ne_true

theorem marked_cells (hv : v.isLiteral = true) (hr : atDelimiter s = true) (hs : Marked s) :
    Marked (v.cells ++ s) := by
  cases v with
  | null => exact marked_word (by decide) hs
  | bool b => cases b <;> exact marked_word (by decide) hs
  | int n => exact marked_symbol (isSymbol_toString n) hs
  | text t =>
    refine marked_literal (literalBody_doubled fun hmem => ?_) hr hs
    rw [isLiteral, List.contains_iff_mem.mpr hmem] at hv
    exact absurd hv (by decide)
  | _ => exact absurd hv Bool.false_ne_true

theorem closed_cells (hv : v.isLiteral = true) : Closed v.cells := by
  cases v with
  | null => exact closed_word (by decide)
  | bool b => cases b <;> exact closed_word (by decide)
  | int n => exact closed_symbol (isSymbol_toString n)
  | text t => exact closed_literal _
  | _ => exact absurd hv Bool.false_ne_true

/-- A literal is none of the keywords at which a clause ends. -/
theorem goesOn_cells (hstops : ∀ k ∈ stops, k ∈ clauseWords) (hv : v.isLiteral = true)
    (hr : atDelimiter s = true) : GoesOn stops (v.cells ++ s) := by
  have hcapital : ∀ k ∈ clauseWords, isCapital k = true := by decide
  have hplain : ∀ k ∈ clauseWords, plainWord k = true := by decide
  have hword : ∀ w, isWord w = true → capitals w ∉ clauseWords → GoesOn stops (plain w ++ s) :=
    fun w hw hne => goesOn_word (fun k hk => hcapital k (hstops k hk)) hw
      (fun k hk heq => hne (heq ▸ hstops k hk)) hr
  cases v with
  | null => exact hword _ (by decide) (by decide)
  | bool b => cases b <;> exact hword _ (by decide) (by decide)
  | int n => exact goesOn_symbol (fun k hk => hcapital k (hstops k hk)) (isSymbol_toString n)
  | text t => exact goesOn_literal (fun k hk => hplain k (hstops k hk)) _
  | _ => exact absurd hv Bool.false_ne_true

/-- No keyword is found in a literal. -/
theorem absent_cells {k : String} {excuse : List Cell → Bool} (hk : k = "OR" ∨ k = "NOT")
    (hv : v.isLiteral = true) (hr : atDelimiter s = true) (hs : Absent k excuse s) :
    Absent k excuse (v.cells ++ s) := by
  have hcapital : isCapital k = true ∧ plainWord k = true := by rcases hk with rfl | rfl <;> decide
  have hword : ∀ w, isWord w = true → capitals w ∉ ["OR", "NOT"] →
      Absent k excuse (plain w ++ s) := by
    intro w hw hne
    refine absent_word hcapital.1 hw (fun heq => absurd ?_ hne) hr hs
    rw [heq]
    rcases hk with rfl | rfl <;> decide
  cases v with
  | null => exact hword _ (by decide) (by decide)
  | bool b => cases b <;> exact hword _ (by decide) (by decide)
  | int n => exact absent_symbol hcapital.1 (isSymbol_toString n) hs
  | text t => exact absent_literal hcapital.2 _ hs
  | _ => exact absurd hv Bool.false_ne_true

/-- Nothing follows a literal in its own text. -/
theorem hasTextAfterLiteral_cells (hv : v.isLiteral = true) :
    hasTextAfterLiteral v.cells = false := by
  -- Apart from texts, a value is written as one word.
  have hword : ∀ c u, Solid (c :: u) → isQuote c.visible = false →
      hasTextAfterLiteral (c :: u) = false := by
    intro c u hu hc
    have hruns := Text.splitRuns_run (s := []) hu.ne_nil hu.isBlank
    rw [List.append_nil, if_pos (by rfl)] at hruns
    rw [hasTextAfterLiteral, hc, hruns]
    rfl
  have hsolid := solid_cells hv
  cases v with
  | null => rfl
  | bool b => cases b <;> rfl
  | int n =>
    rcases List.exists_cons_of_ne_nil (toString_ne_nil n) with ⟨c, t, hcons⟩
    have hmem : c ∈ (toString n).toList := by
      rw [hcons]
      exact List.mem_cons_self
    have hc := numeral_char (mem_toString hmem)
    rw [cells, plain, hcons] at hsolid ⊢
    exact hword _ _ hsolid (isSymbolChar_cell hc.1).2.2.2.1
  | text t =>
    rw [cells, literalCells, hasTextAfterLiteral, if_pos (by decide),
      show Cell.visible ⟨'\'', false⟩ = '\'' from rfl,
      SameShown.afterNext_literal _ _ (by decide)]
    rfl
  | _ => exact absurd hv Bool.false_ne_true

/-- A literal is no sum. -/
theorem sumParts?_cells (hv : v.isLiteral = true) : sumParts? v.cells = none := by
  cases v with
  | null => rfl
  | bool b => cases b <;> rfl
  | int n =>
    rw [cells, plain, Text.toList_toString]
    split
    · rfl
    · have hdigits : ∀ c ∈ Nat.toDigits 10 n.natAbs, c.isDigit = true :=
        fun c hc => Text.isDigit_toDigits hc
      have hread := word?_plain_end (isWord_digits (Text.toDigits_ne_nil n.natAbs) hdigits)
      rw [plain, String.toList_ofList] at hread
      unfold sumParts?
      rw [hread]
      rfl
  | text t => rfl
  | _ => exact absurd hv Bool.false_ne_true

end Value

end TableStore
