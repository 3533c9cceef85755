import TableStore.Proofs.Statement.Printer
import TableStore.Proofs.Statement.SameShown
import TableStore.Proofs.Text.Digits

/-!
# Words in a Text

A word is read up to the first character that cannot be part of one. In a
printed text that is a blank, a comma or a parenthesis, which `atDelimiter`
says of the text after it, so that every theorem here is about a word and any
such text.

What matters most is where a word is not found. A keyword may well be the
beginning of a longer name, as in `orders`; but then a letter follows it, and
neither a blank nor the end of the word. A number, a sign or a literal does not
even begin like a keyword.

## Main definitions

* `atDelimiter`: Whether a text goes on with none of the characters of a word.
* `Absent`: A word that is not found in a text.

## Theorems

* `word?_plain`: A word is read.
* `keyword?_word`: A keyword at a word is this word, or the beginning of it.
* `goesOn_word`, `goesOn_symbol`: Text that does not begin with a keyword.
* `absent_word`, `absent_literal`, `absent_symbol`: Text in which a keyword is
  not found.
-/

namespace TableStore

/-- Whether a text is at its end or goes on with a blank, a comma or a
    parenthesis. -/
def atDelimiter : List Cell → Bool
  | [] => true
  | c :: _ => !c.hidden && [' ', ',', '(', ')'].contains c.char

/-- Whether a text consists of capital letters. -/
def isCapital (w : String) : Bool :=
  !w.toList.isEmpty && w.toList.all Char.isUpper

/-- Whether a character is one of ASCII that is no letter and does not mark or
    separate anything. -/
def isSymbolChar (c : Char) : Bool :=
  decide (c.toNat < 128) && !c.toUpper.isUpper && !Text.isBlank c && !isQuote c && c != ';'
    && !Cell.separates ⟨c, false⟩

/-- Whether a text consists of such characters: an operator, or a number. -/
def isSymbol (w : String) : Bool :=
  !w.toList.isEmpty && w.toList.all isSymbolChar

section Characters

/-- What holds of all ASCII characters is found out by trying them. -/
theorem forall_ascii {p : Char → Prop} (h : ∀ n : Fin 128, p (Char.ofNat n)) {c : Char}
    (hc : c.toNat < 128) : p c := by
  have hchar := h ⟨c.toNat, hc⟩
  rwa [Char.ofNat_toNat] at hchar

theorem toNat_of_isUpper {c : Char} (hc : c.isUpper = true) : 65 ≤ c.toNat ∧ c.toNat ≤ 90 := by
  have hval : 65 ≤ c.val ∧ c.val ≤ 90 := of_decide_eq_true hc
  exact ⟨UInt32.le_iff_toNat_le.mp hval.1, UInt32.le_iff_toNat_le.mp hval.2⟩

theorem toNat_of_isLower {c : Char} (hc : c.isLower = true) : 97 ≤ c.toNat ∧ c.toNat ≤ 122 := by
  change (decide (97 ≤ c.val) && decide (c.val ≤ 122)) = true at hc
  rw [Bool.and_eq_true, decide_eq_true_eq, decide_eq_true_eq] at hc
  exact ⟨UInt32.le_iff_toNat_le.mp hc.1, UInt32.le_iff_toNat_le.mp hc.2⟩

theorem lt_of_isNameChar {c : Char} (hc : isNameChar c = true) : c.toNat < 128 := by
  change (((c.isUpper || c.isLower) || c.isDigit) || c == '_') = true at hc
  rw [Bool.or_eq_true, Bool.or_eq_true, Bool.or_eq_true, beq_iff_eq] at hc
  rcases hc with ((hc | hc) | hc) | rfl
  · have hbounds := toNat_of_isUpper hc
    omega
  · have hbounds := toNat_of_isLower hc
    omega
  · have hbounds := Text.isDigit_bounds hc
    omega
  · decide

/-- A character of a name is shown as such and is nothing else. -/
theorem isNameChar_cell {c : Char} (hc : isNameChar c = true) :
    Cell.isWordChar ⟨c, false⟩ = true ∧ Cell.isBlank ⟨c, false⟩ = false
      ∧ Cell.separates ⟨c, false⟩ = false ∧ isQuote c = false ∧ (c == ';') = false :=
  forall_ascii (p := fun c => isNameChar c = true → Cell.isWordChar ⟨c, false⟩ = true
    ∧ Cell.isBlank ⟨c, false⟩ = false ∧ Cell.separates ⟨c, false⟩ = false ∧ isQuote c = false
    ∧ (c == ';') = false) (by decide +kernel) (lt_of_isNameChar hc) hc

theorem isSymbolChar_cell {c : Char} (hc : isSymbolChar c = true) :
    c.toNat < 128 ∧ c.toUpper.isUpper = false ∧ Cell.isBlank ⟨c, false⟩ = false
      ∧ isQuote c = false ∧ c ≠ ';' ∧ Cell.separates ⟨c, false⟩ = false := by
  simp only [isSymbolChar, Bool.and_eq_true, decide_eq_true_eq, Bool.not_eq_true', bne_iff_ne] at hc
  exact ⟨hc.1.1.1.1.1, hc.1.1.1.1.2, hc.1.1.1.2, hc.1.1.2, hc.1.2, hc.2⟩

/-- A capital is the same letter as the characters that it is the capital of. -/
theorem sameLetter_capital {a c : Char} (ha : a.isUpper = true) (hc : c.toNat < 128) :
    Text.sameLetter a c = (c.toUpper == a) := by
  have hbounds := toNat_of_isUpper ha
  have hall : ∀ m : Fin 26, ∀ n : Fin 128, Text.sameLetter (Char.ofNat (65 + m)) (Char.ofNat n)
      = ((Char.ofNat n).toUpper == Char.ofNat (65 + m)) := by
    decide +kernel
  have hpair := hall ⟨a.toNat - 65, by omega⟩ ⟨c.toNat, hc⟩
  rwa [show 65 + (a.toNat - 65) = a.toNat by omega, Char.ofNat_toNat, Char.ofNat_toNat] at hpair

end Characters

section Delimiters

variable {s : List Cell}

theorem atDelimiter_cons {c : Cell} (h : atDelimiter (c :: s) = true) :
    c = ⟨' ', false⟩ ∨ c = ⟨',', false⟩ ∨ c = ⟨'(', false⟩ ∨ c = ⟨')', false⟩ := by
  rcases c with ⟨a, _ | _⟩
  · simpa [atDelimiter] using h
  · exact absurd h (by simp [atDelimiter])

/-- No word goes on at a delimiter. -/
theorem isWordChar_of_atDelimiter {c : Cell} (h : atDelimiter (c :: s) = true) :
    c.isWordChar = false := by
  rcases atDelimiter_cons h with rfl | rfl | rfl | rfl <;> decide

end Delimiters

section Words

variable {w : String} {rest : List Cell}

theorem plain_append (a b : String) : plain (a ++ b) = plain a ++ plain b := by
  simp [plain]

theorem mem_plain {c : Cell} : c ∈ plain w ↔ ∃ a ∈ w.toList, ⟨a, false⟩ = c := by
  unfold plain
  exact List.mem_map

theorem cellChars_plain (w : String) : cellChars (plain w) = w.toList := by
  unfold cellChars plain
  rw [List.map_map]
  exact List.map_id _

theorem cellText_plain (w : String) : cellText (plain w) = w := by
  rw [cellText, cellChars_plain, String.ofList_toList]

theorem isNameChar_of_isWord (hw : isWord w = true) : ∀ a ∈ w.toList, isNameChar a = true := by
  unfold isWord at hw
  rw [Bool.and_eq_true, List.all_eq_true] at hw
  exact hw.2

theorem plain_ne_nil (hw : isWord w = true) : plain w ≠ [] := by
  unfold isWord at hw
  rw [Bool.and_eq_true] at hw
  intro hnil
  rw [List.map_eq_nil_iff.mp hnil] at hw
  exact absurd hw.1 (by decide)

theorem isWord_of_isPlainName (hw : isPlainName w = true) : isWord w = true := by
  unfold isPlainName at hw
  rw [Bool.and_eq_true, Bool.and_eq_true] at hw
  exact hw.1.1

theorem isSymbolChar_of_isSymbol (hw : isSymbol w = true) :
    ∀ a ∈ w.toList, isSymbolChar a = true := by
  unfold isSymbol at hw
  rw [Bool.and_eq_true, List.all_eq_true] at hw
  exact hw.2

theorem exists_cons_of_isSymbol (hw : isSymbol w = true) :
    ∃ c u, w.toList = c :: u ∧ isSymbolChar c = true := by
  have hchars := isSymbolChar_of_isSymbol hw
  unfold isSymbol at hw
  rw [Bool.and_eq_true] at hw
  cases hlist : w.toList with
  | nil =>
    rw [hlist] at hw
    exact absurd hw.1 (by decide)
  | cons c u => exact ⟨c, u, rfl, hchars c (by rw [hlist]; exact List.mem_cons_self)⟩

/-- A plain name is no keyword. -/
theorem capitals_ne_of_isPlainName (hw : isPlainName w = true) {k : String} (hk : k ∈ keywords) :
    capitals w ≠ k := by
  unfold isPlainName at hw
  rw [Bool.and_eq_true, Bool.not_eq_true'] at hw
  rintro rfl
  rw [List.contains_iff_mem.mpr hk] at hw
  exact absurd hw.2 (by decide)

/-- The cells of a word. -/
theorem cell_of_mem_plain (hw : isWord w = true) {c : Cell} (hc : c ∈ plain w) :
    c.isWordChar = true ∧ c.isBlank = false ∧ c.separates = false := by
  rcases mem_plain.mp hc with ⟨a, ha, rfl⟩
  have hcell := isNameChar_cell (isNameChar_of_isWord hw a ha)
  exact ⟨hcell.1, hcell.2.1, hcell.2.2.1⟩

theorem takeWhile_plain (hw : isWord w = true) (hr : atDelimiter rest = true) :
    (plain w ++ rest).takeWhile Cell.isWordChar = plain w := by
  rw [List.takeWhile_append_of_pos fun c hc => (cell_of_mem_plain hw hc).1]
  cases rest with
  | nil => exact List.append_nil _
  | cons c rest =>
    rw [List.takeWhile_cons_of_neg (by simp [isWordChar_of_atDelimiter hr]), List.append_nil]

theorem dropWhile_plain (hw : isWord w = true) (hr : atDelimiter rest = true) :
    (plain w ++ rest).dropWhile Cell.isWordChar = rest := by
  rw [List.dropWhile_append_of_pos fun c hc => (cell_of_mem_plain hw hc).1]
  cases rest with
  | nil => rfl
  | cons c rest => exact List.dropWhile_cons_of_neg (by simp [isWordChar_of_atDelimiter hr])

/-- A word is read up to the next delimiter. -/
theorem word?_plain (hw : isWord w = true) (hr : atDelimiter rest = true) :
    word? (plain w ++ rest) = some (w, rest) := by
  unfold word?
  dsimp only
  rw [takeWhile_plain hw hr, dropWhile_plain hw hr, cellText_plain,
    if_neg (by simpa using plain_ne_nil hw)]

theorem word?_plain_end (hw : isWord w = true) : word? (plain w) = some (w, []) := by
  have hread := @word?_plain w [] hw rfl
  rwa [List.append_nil] at hread

/-- A word is tried as a whole before it is split. -/
theorem someWordSplit?_plain {α : Type} {f : String → List Cell → Option α} {a : α}
    (hw : isWord w = true) (hr : atDelimiter rest = true) (hf : f w rest = some a) :
    someWordSplit? f (plain w ++ rest) = some a := by
  have hpos : 0 < (plain w).length := List.length_pos_iff.mpr (plain_ne_nil hw)
  obtain ⟨n, hn⟩ : ∃ n, (plain w).length = n + 1 := ⟨_, (Nat.succ_pred_eq_of_pos hpos).symm⟩
  unfold someWordSplit?
  dsimp only
  rw [takeWhile_plain hw hr, hn, List.range_succ_eq_map, List.findSome?_cons, Nat.sub_zero, ← hn,
    List.take_left, List.drop_left, cellText_plain, hf]

theorem atBlank_plain (hw : isWord w = true) :
    Text.atBlank Cell.isBlank (plain w ++ rest) = false := by
  rcases List.exists_cons_of_ne_nil (plain_ne_nil hw) with ⟨c, u, hu⟩
  rw [hu, List.cons_append]
  exact (cell_of_mem_plain hw (by rw [hu]; exact List.mem_cons_self)).2.1

end Words

section Keywords

variable {k w : String} {rest after : List Cell} {stops : List String}

theorem keyword?_plain (w : String) (rest : List Cell) :
    keyword? w (plain w ++ rest) = some rest := by
  unfold keyword? plain
  induction w.toList with
  | nil => rfl
  | cons a s ih =>
    rw [List.map_cons, List.cons_append, letters?, if_pos (by simp [Text.sameLetter, Cell.visible])]
    exact ih

/-- Text after a phrase with blanks around it starts where the blanks end. -/
theorem spacedPhrase?_text {words : List String} {opening : String} {s : List Cell}
    (hopening : ∀ s, spacedPhrase? words (plain opening ++ s) = some (skipBlanks s))
    (hs : Text.atBlank Cell.isBlank s = false) :
    spacedPhrase? words (plain opening ++ s) = some s := by
  rw [hopening, skipBlanks_of_text hs]

/-- A capital of a keyword is found in either case. -/
theorem letters?_cons {a c : Char} {k : List Char} (ha : a.isUpper = true) (hc : c.toNat < 128) :
    letters? (a :: k) (⟨c, false⟩ :: rest)
      = if c.toUpper = a then letters? k rest else none := by
  rw [letters?, show Cell.visible ⟨c, false⟩ = c from rfl, sameLetter_capital ha hc]
  simp only [beq_iff_eq]

theorem letters?_symbol {a c : Char} {k : List Char} (ha : a.isUpper = true) (hc : c.toNat < 128)
    (hletter : c.toUpper.isUpper = false) : letters? (a :: k) (⟨c, false⟩ :: rest) = none := by
  rw [letters?_cons ha hc, if_neg]
  rintro rfl
  rw [hletter] at ha
  exact absurd ha Bool.false_ne_true

theorem letters?_word {k w : List Char} (hk : ∀ a ∈ k, a.isUpper = true)
    (hw : ∀ c ∈ w, isNameChar c = true) (hr : atDelimiter rest = true)
    (h : letters? k (w.map (fun c => ⟨c, false⟩) ++ rest) = some after) :
    w.map Char.toUpper = k ∧ after = rest
      ∨ ∃ c s, after = ⟨c, false⟩ :: s ∧ isNameChar c = true := by
  induction k generalizing w with
  | nil =>
    rw [letters?, Option.some.injEq] at h
    cases w with
    | nil => exact Or.inl ⟨rfl, h.symm⟩
    | cons c w => exact Or.inr ⟨c, _, h.symm, hw c List.mem_cons_self⟩
  | cons a k ih =>
    have ha := hk a List.mem_cons_self
    cases w with
    | nil =>
      -- The keyword would have to go on with a delimiter.
      cases rest with
      | nil => exact absurd h (by simp [letters?])
      | cons d rest =>
        rw [List.map_nil, List.nil_append] at h
        rcases atDelimiter_cons hr with rfl | rfl | rfl | rfl <;>
          · rw [letters?_symbol ha (by decide) (by decide)] at h
            exact absurd h (by simp)
    | cons c w =>
      have hc := hw c List.mem_cons_self
      rw [List.map_cons, List.cons_append, letters?_cons ha (lt_of_isNameChar hc)] at h
      by_cases hsame : c.toUpper = a
      · rw [if_pos hsame] at h
        rcases ih (fun b hb => hk b (List.mem_cons_of_mem a hb))
            (fun d hd => hw d (List.mem_cons_of_mem c hd)) h with heq | hlonger
        · exact Or.inl ⟨by rw [List.map_cons, heq.1, hsame], heq.2⟩
        · exact Or.inr hlonger
      · rw [if_neg hsame] at h
        exact absurd h (by simp)

/-- A keyword that is found at a word is the word, or the word goes on after
    it. -/
theorem keyword?_word (hk : isCapital k = true) (hw : isWord w = true)
    (hr : atDelimiter rest = true) (h : keyword? k (plain w ++ rest) = some after) :
    capitals w = k ∧ after = rest ∨ ∃ c s, after = ⟨c, false⟩ :: s ∧ isNameChar c = true := by
  unfold isCapital at hk
  rw [Bool.and_eq_true, List.all_eq_true] at hk
  rcases letters?_word hk.2 (isNameChar_of_isWord hw) hr h with heq | hlonger
  · exact Or.inl ⟨by rw [capitals, heq.1, String.ofList_toList], heq.2⟩
  · exact Or.inr hlonger

/-- No keyword starts with a character that is no letter. -/
theorem keyword?_of_not_letter (hk : isCapital k = true) {c : Char} (hc : c.toNat < 128)
    (hletter : c.toUpper.isUpper = false) : keyword? k (⟨c, false⟩ :: rest) = none := by
  unfold isCapital at hk
  rw [Bool.and_eq_true, List.all_eq_true] at hk
  unfold keyword?
  cases hlist : k.toList with
  | nil =>
    rw [hlist] at hk
    exact absurd hk.1 (by decide)
  | cons a s =>
    exact letters?_symbol (hk.2 a (by rw [hlist]; exact List.mem_cons_self)) hc hletter

theorem keyword?_symbol (hk : isCapital k = true) {c : Char} (hc : isSymbolChar c = true) :
    keyword? k (⟨c, false⟩ :: rest) = none :=
  keyword?_of_not_letter hk (isSymbolChar_cell hc).1 (isSymbolChar_cell hc).2.1

/-- Text that goes on with another word. -/
theorem goesOn_word (hs : ∀ k ∈ stops, isCapital k = true) (hw : isWord w = true)
    (hne : ∀ k ∈ stops, capitals w ≠ k) (hr : atDelimiter rest = true) :
    GoesOn stops (plain w ++ rest) := by
  refine ⟨atBlank_plain hw, ?_⟩
  intro k hk
  cases hfound : keyword? k (plain w ++ rest) with
  | none => rfl
  | some after =>
    rcases keyword?_word (hs k hk) hw hr hfound with heq | ⟨c, s, rfl, hc⟩
    · exact absurd heq.1 (hne k hk)
    · rw [Option.bind_some, blanks?, (isNameChar_cell hc).2.1]
      rfl

/-- Text that goes on with a symbol. -/
theorem goesOn_symbol (hs : ∀ k ∈ stops, isCapital k = true) (hw : isSymbol w = true) :
    GoesOn stops (plain w ++ rest) := by
  rcases exists_cons_of_isSymbol hw with ⟨c, u, hu, hc⟩
  rw [plain, hu, List.map_cons, List.cons_append]
  refine ⟨(isSymbolChar_cell hc).2.2.1, ?_⟩
  intro k hk
  rw [keyword?_symbol (hs k hk) hc]
  rfl

/-- Text that goes on with a literal. -/
theorem goesOn_literal (hs : ∀ k ∈ stops, plainWord k = true) (body : List Char) :
    GoesOn stops (literalCells '\'' body ++ rest) := by
  refine ⟨rfl, ?_⟩
  intro k hk
  rw [literalCells, List.cons_append, keyword?_sealed (hs k hk) (Or.inr (by decide))]
  rfl

/-- A plain name is none of the keywords at which a clause ends. -/
theorem goesOn_name (hs : ∀ k ∈ stops, k ∈ keywords) (hw : isPlainName w = true)
    (hr : atDelimiter rest = true) : GoesOn stops (plain w ++ rest) := by
  have hcapital : ∀ k ∈ keywords, isCapital k = true := by decide
  exact goesOn_word (fun k hk => hcapital k (hs k hk)) (isWord_of_isPlainName hw)
    (fun k hk => capitals_ne_of_isPlainName hw (hs k hk)) hr

end Keywords

section Absent

variable {k w : String} {excuse : List Cell → Bool} {s : List Cell}

/-- A word that is not found in a text, whatever is before the text. -/
def Absent (k : String) (excuse : List Cell → Bool) (s : List Cell) : Prop :=
  ∀ inWord, containsWord k excuse inWord s = false

theorem absent_nil : Absent k excuse [] := fun _ => rfl

theorem absent_blank (hk : isCapital k = true) (hs : Absent k excuse s) :
    Absent k excuse (plain " " ++ s) := by
  intro inWord
  change containsWord k excuse inWord (⟨' ', false⟩ :: s) = false
  rw [containsWord_pass (keyword?_of_not_letter hk (by decide) (by decide))]
  exact hs _

theorem absent_symbol (hk : isCapital k = true) (hw : isSymbol w = true)
    (hs : Absent k excuse s) : Absent k excuse (plain w ++ s) := by
  have hchars := isSymbolChar_of_isSymbol hw
  unfold plain
  generalize w.toList = chars at hchars
  induction chars with
  | nil => exact hs
  | cons c u ih =>
    intro inWord
    rw [List.map_cons, List.cons_append,
      containsWord_pass (keyword?_symbol hk (hchars c List.mem_cons_self))]
    exact ih (fun d hd => hchars d (List.mem_cons_of_mem c hd)) _

theorem absent_literal (hk : plainWord k = true) (body : List Char) (hs : Absent k excuse s) :
    Absent k excuse (literalCells '\'' body ++ s) := by
  intro inWord
  rw [SameShown.containsWord_literal hk (by decide)]
  exact hs false

/-- A word is not found inside another one. -/
theorem containsWord_inside {u : List Char} (hu : ∀ c ∈ u, isNameChar c = true)
    (hs : Absent k excuse s) :
    containsWord k excuse true (u.map (fun c => ⟨c, false⟩) ++ s) = false := by
  induction u with
  | nil => exact hs true
  | cons c u ih =>
    rw [List.map_cons, List.cons_append, containsWord,
      (isNameChar_cell (hu c List.mem_cons_self)).1,
      ih fun d hd => hu d (List.mem_cons_of_mem c hd)]
    split <;> rfl

/-- A word is not found in another one, nor where it is excused. -/
theorem absent_word (hk : isCapital k = true) (hw : isWord w = true)
    (hne : capitals w = k → excuse s = true) (hr : atDelimiter s = true)
    (hs : Absent k excuse s) : Absent k excuse (plain w ++ s) := by
  intro inWord
  rcases List.exists_cons_of_ne_nil (List.map_eq_nil_iff.not.mp (plain_ne_nil hw)) with ⟨c, u, hu⟩
  have hchars := isNameChar_of_isWord hw
  rw [hu] at hchars
  have hinside := containsWord_inside (fun d hd => hchars d (List.mem_cons_of_mem c hd)) hs
  have hcells : plain w ++ s = ⟨c, false⟩ :: (u.map (fun d => ⟨d, false⟩) ++ s) := by
    rw [plain, hu]
    rfl
  -- A keyword at the start of the word does not end where a word ends.
  cases hfound : keyword? k (plain w ++ s) with
  | none =>
    rw [hcells] at hfound ⊢
    rw [containsWord_pass hfound, (isNameChar_cell (hchars c List.mem_cons_self)).1]
    exact hinside
  | some after =>
    rcases keyword?_word hk hw hr hfound with ⟨heq, rfl⟩ | ⟨d, t, rfl, hd⟩
    all_goals
      rw [hcells] at hfound ⊢
      rw [containsWord, hfound, (isNameChar_cell (hchars c List.mem_cons_self)).1, hinside]
    · simp [hne heq]
    · simp [atWordEnd, (isNameChar_cell hd).1]

end Absent

end TableStore
