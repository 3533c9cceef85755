import TableStore.Proofs.Statement.Literals
import TableStore.Proofs.Statement.Recognizer
import Mathlib.Data.List.Forall2

/-!
# Recognizers Do Not Look Into Literals

Two marked texts that differ in hidden cells only are cut up in the same way.
Every recognizer finds the same names and numbers in both, stops at the same
places, and leaves texts that again differ in hidden cells only.

A literal is the one case in which the texts are not the same. It starts with
a quote, which is no blank, no part of a name, no digit and no letter of a
keyword, so whatever reads a blank, a name, a number or a keyword stops there
in both. What looks further passes over the literal as a whole, because
hidden cells are read as a character that means nothing.

## Main definitions

* `Sealed`: A cell in which nothing of the grammar starts.
* `plainWord`: A keyword that no literal contains.
* `CutAlike`: What is left of two texts after the same has been read of both.

## Theorems

* `SameShown.eq_or_quoted`: Such texts are equal if they have no literal.
* `SameShown.phrase?`, `SameShown.word?`, `SameShown.digits?`: What starts here.
* `SameShown.shortestPrefix?`, `SameShown.piecesWithin`,
  `SameShown.splitAtAnd`, `SameShown.containsWord`: What is searched for.
-/

namespace TableStore

section Options

variable {α β γ δ : Type} {R : α → β → Prop} {S : γ → δ → Prop}

/-- To read on after two related results: both are absent, or both are there. -/
@[elab_as_elim]
theorem rel_elim {motive : Option α → Option β → Prop} {x : Option α} {y : Option β}
    (h : Option.Rel R x y) (none : motive none none)
    (some : ∀ a b, R a b → motive (some a) (some b)) : motive x y := by
  cases h with
  | none => exact none
  | some hab => exact some _ _ hab

/-- The same, where what follows depends on what the results are. -/
theorem rel_cases {x : Option α} {y : Option β} (h : Option.Rel R x y) :
    (x = none ∧ y = none) ∨ ∃ a b, x = some a ∧ y = some b ∧ R a b := by
  cases h with
  | none => exact Or.inl ⟨rfl, rfl⟩
  | some hab => exact Or.inr ⟨_, _, rfl, rfl, hab⟩

theorem rel_bind {x : Option α} {y : Option β} {f : α → Option γ} {g : β → Option δ}
    (h : Option.Rel R x y) (hfg : ∀ a b, R a b → Option.Rel S (f a) (g b)) :
    Option.Rel S (x >>= f) (y >>= g) := by
  cases h with
  | none => exact .none
  | some hab => exact hfg _ _ hab

theorem rel_map {x : Option α} {y : Option β} {f : α → γ} {g : β → δ} (h : Option.Rel R x y)
    (hfg : ∀ a b, R a b → S (f a) (g b)) : Option.Rel S (x.map f) (y.map g) := by
  cases h with
  | none => exact .none
  | some hab => exact .some (hfg _ _ hab)

theorem rel_imp {R' : α → β → Prop} {x : Option α} {y : Option β} (h : Option.Rel R x y)
    (himp : ∀ a b, R a b → R' a b) : Option.Rel R' x y := by
  cases h with
  | none => exact .none
  | some hab => exact .some (himp _ _ hab)

theorem rel_orElse {x x' : Option α} {y y' : Option β} (h : Option.Rel R x y)
    (h' : Option.Rel R x' y') : Option.Rel R (x <|> x') (y <|> y') := by
  cases h with
  | none => exact h'
  | some hab => exact .some hab

/-- The first results in two lists whose items give related results. -/
theorem rel_findSome? {P : γ → δ → Prop} {s : List γ} {t : List δ} {f : γ → Option α}
    {g : δ → Option β} (h : List.Forall₂ P s t) (hfg : ∀ a b, P a b → Option.Rel R (f a) (g b)) :
    Option.Rel R (s.findSome? f) (t.findSome? g) := by
  induction h with
  | nil => exact .none
  | @cons a b s t hab _ ih =>
    rw [List.findSome?_cons, List.findSome?_cons]
    exact rel_elim (hfg a b hab) ih fun _ _ hfirst => .some hfirst

end Options

section Cells

/-- Whether nothing of the grammar starts at a cell: it is a quote or hidden. -/
def Sealed (c : Cell) : Prop :=
  c.hidden = true ∨ isQuote c.char = true

theorem Sealed.visible_cases {c : Cell} (h : Sealed c) :
    c.visible = '#' ∨ c.visible = '\'' ∨ c.visible = '"' := by
  rcases c with ⟨a, _ | _⟩
  · exact Or.inr (quote_cases (h.resolve_left Bool.false_ne_true))
  · exact Or.inl rfl

theorem Sealed.isBlank {c : Cell} (h : Sealed c) : c.isBlank = false := by
  unfold Cell.isBlank
  rcases h.visible_cases with hv | hv | hv <;> rw [hv] <;> decide

theorem Sealed.isWordChar {c : Cell} (h : Sealed c) : c.isWordChar = false := by
  unfold Cell.isWordChar
  rcases h.visible_cases with hv | hv | hv <;> rw [hv] <;> decide

theorem Sealed.isDigit {c : Cell} (h : Sealed c) : Text.isDigit c.visible = false := by
  rcases h.visible_cases with hv | hv | hv <;> rw [hv] <;> decide

theorem Sealed.shows {c : Cell} (h : Sealed c) {a : Char} (ha : a ≠ '#') (hq : isQuote a = false) :
    c.shows a = false := by
  have hother : a ≠ '\'' ∧ a ≠ '"' := by
    constructor <;> rintro rfl <;> exact absurd hq (by decide)
  unfold Cell.shows
  rw [beq_eq_false_iff_ne]
  rcases h.visible_cases with hv | hv | hv <;> rw [hv]
  · exact ha.symm
  · exact hother.1.symm
  · exact hother.2.symm

theorem Sealed.separates {c : Cell} (h : Sealed c) : c.separates = false := by
  unfold Cell.separates
  rw [h.shows (by decide) (by decide), h.shows (by decide) (by decide),
    h.shows (by decide) (by decide)]
  rfl

theorem sealed_of_mem_literalCells {q : Char} (hq : isQuote q = true) {body : List Char} {c : Cell}
    (hc : c ∈ literalCells q body) : Sealed c := by
  unfold literalCells insideCells at hc
  rcases List.mem_cons.mp hc with rfl | hc
  · exact Or.inr hq
  · rcases List.mem_append.mp hc with hc | hc
    · rcases List.mem_map.mp hc with ⟨a, -, rfl⟩
      exact Or.inl rfl
    · rw [List.mem_singleton.mp hc]
      exact Or.inr hq

theorem literalCells_ne_nil (q : Char) (body : List Char) : literalCells q body ≠ [] := by
  simp [literalCells]

/-- A keyword that no literal contains. -/
def plainWord (w : String) : Bool :=
  !w.toList.isEmpty
    && w.toList.all fun a =>
      !Text.sameLetter a '#' && !Text.sameLetter a '\'' && !Text.sameLetter a '"'

theorem sameLetter_sealed {w : String} (hw : plainWord w = true) {c : Cell} (hc : Sealed c) :
    ∀ a ∈ w.toList, Text.sameLetter a c.visible = false := by
  intro a ha
  unfold plainWord at hw
  rw [Bool.and_eq_true, List.all_eq_true] at hw
  have hall := hw.2 a ha
  simp only [Bool.and_eq_true, Bool.not_eq_true'] at hall
  rcases hc.visible_cases with hv | hv | hv <;> rw [hv]
  · exact hall.1.1
  · exact hall.1.2
  · exact hall.2

/-- No keyword starts inside a literal. -/
theorem keyword?_sealed {w : String} (hw : plainWord w = true) {c : Cell} (hc : Sealed c)
    (s : List Cell) : TableStore.keyword? w (c :: s) = none := by
  have hall := sameLetter_sealed hw hc
  unfold plainWord at hw
  unfold TableStore.keyword?
  cases hword : w.toList with
  | nil => rw [hword] at hw; exact absurd hw (by decide)
  | cons a rest =>
    rw [letters?, hall a (by rw [hword]; exact List.mem_cons_self)]
    rfl

end Cells

/-- What is left of two texts after the same cells have been read of both. -/
def CutAlike (s t s' t' : List Cell) : Prop :=
  SameShown s' t' ∧ ∃ u, s = u ++ s' ∧ t = u ++ t'

theorem CutAlike.trans {s t s' t' s'' t'' : List Cell} (h : CutAlike s t s' t')
    (h' : CutAlike s' t' s'' t'') : CutAlike s t s'' t'' := by
  rcases h with ⟨-, u, rfl, rfl⟩
  rcases h' with ⟨hsame, v, rfl, rfl⟩
  exact ⟨hsame, u ++ v, by rw [List.append_assoc], by rw [List.append_assoc]⟩

/-- The same result, and rests that differ in hidden cells only. -/
def SameAfter {α : Type} (p p' : α × List Cell) : Prop :=
  p.1 = p'.1 ∧ SameShown p.2 p'.2

namespace SameShown

variable {s t u v : List Cell}

theorem append (h : SameShown s t) (h' : SameShown u v) : SameShown (s ++ u) (t ++ v) := by
  induction h with
  | nil => exact h'
  | shown hc _ ih => exact .shown hc ih
  | literal a b hq _ ih =>
    rw [List.append_assoc, List.append_assoc]
    exact .literal a b hq ih

theorem reverse (h : SameShown s t) : SameShown s.reverse t.reverse := by
  induction h with
  | nil => exact .nil
  | shown hc _ ih =>
    rw [List.reverse_cons, List.reverse_cons]
    exact ih.append (.shown hc .nil)
  | @literal q a b s t hq _ ih =>
    have hturn : ∀ body, (literalCells q body).reverse = literalCells q body.reverse := by
      intro body
      simp [literalCells, insideCells]
    rw [List.reverse_append, List.reverse_append, hturn, hturn]
    refine ih.append ?_
    have hlast := SameShown.literal a.reverse b.reverse hq .nil
    rwa [List.append_nil, List.append_nil] at hlast

theorem isEmpty_eq (h : SameShown s t) : s.isEmpty = t.isEmpty := by
  cases h <;> rfl

/-- Two such texts are equal, or both have a literal. -/
theorem eq_or_quoted (h : SameShown s t) :
    s = t ∨ (∃ q, isQuote q = true ∧ ⟨q, false⟩ ∈ s) ∧ ∃ q, isQuote q = true ∧ ⟨q, false⟩ ∈ t := by
  induction h with
  | nil => exact Or.inl rfl
  | shown hc _ ih =>
    rcases ih with rfl | ⟨⟨p, hp, hs⟩, q, hq, ht⟩
    · exact Or.inl rfl
    · exact Or.inr ⟨⟨p, hp, List.mem_cons_of_mem _ hs⟩, q, hq, List.mem_cons_of_mem _ ht⟩
  | @literal q a b s t hq _ _ =>
    exact Or.inr ⟨⟨q, hq, List.mem_cons_self⟩, q, hq, List.mem_cons_self⟩

section Runs

variable {p : Cell → Bool} (hp : ∀ c, Sealed c → p c = false)

include hp in
theorem takeWhile_literal {q : Char} (hq : isQuote q = true) (body : List Char) (s : List Cell) :
    (literalCells q body ++ s).takeWhile p = [] :=
  List.takeWhile_cons_of_neg (by rw [hp ⟨q, false⟩ (Or.inr hq)]; exact Bool.false_ne_true)

include hp in
theorem dropWhile_literal {q : Char} (hq : isQuote q = true) (body : List Char) (s : List Cell) :
    (literalCells q body ++ s).dropWhile p = literalCells q body ++ s :=
  List.dropWhile_cons_of_neg (by rw [hp ⟨q, false⟩ (Or.inr hq)]; exact Bool.false_ne_true)

include hp in
/-- A run that ends at a literal is the same in both texts. -/
theorem takeWhile_eq (h : SameShown s t) : s.takeWhile p = t.takeWhile p := by
  induction h with
  | nil => rfl
  | @shown c s t hc _ ih =>
    by_cases hpc : p ⟨c, false⟩ = true
    · rw [List.takeWhile_cons_of_pos hpc, List.takeWhile_cons_of_pos hpc, ih]
    · rw [List.takeWhile_cons_of_neg hpc, List.takeWhile_cons_of_neg hpc]
  | literal a b hq _ _ => rw [takeWhile_literal hp hq, takeWhile_literal hp hq]

include hp in
theorem dropWhile (h : SameShown s t) : SameShown (s.dropWhile p) (t.dropWhile p) := by
  induction h with
  | nil => exact .nil
  | @shown c s t hc hst ih =>
    by_cases hpc : p ⟨c, false⟩ = true
    · rwa [List.dropWhile_cons_of_pos hpc, List.dropWhile_cons_of_pos hpc]
    · rw [List.dropWhile_cons_of_neg hpc, List.dropWhile_cons_of_neg hpc]
      exact .shown hc hst
  | literal a b hq hst _ =>
    rw [dropWhile_literal hp hq, dropWhile_literal hp hq]
    exact .literal a b hq hst

include hp in
/-- A run that ends at a literal can be cut anywhere. -/
theorem cut (h : SameShown s t) {k : Nat} (hk : k ≤ (s.takeWhile p).length) :
    s.take k = t.take k ∧ SameShown (s.drop k) (t.drop k) := by
  induction h generalizing k with
  | nil => rw [List.take_nil, List.drop_nil]; exact ⟨rfl, .nil⟩
  | @shown c s t hc hst ih =>
    cases k with
    | zero => exact ⟨rfl, .shown hc hst⟩
    | succ k =>
      by_cases hpc : p ⟨c, false⟩ = true
      · rw [List.takeWhile_cons_of_pos hpc, List.length_cons] at hk
        rcases ih (Nat.le_of_succ_le_succ hk) with ⟨htake, hdrop⟩
        rw [List.take_succ_cons, List.take_succ_cons, htake]
        exact ⟨rfl, hdrop⟩
      · rw [List.takeWhile_cons_of_neg hpc] at hk
        exact absurd hk (by simp)
  | literal a b hq hst _ =>
    rw [takeWhile_literal hp hq, List.length_nil, Nat.le_zero] at hk
    subst hk
    exact ⟨rfl, .literal a b hq hst⟩

end Runs

section Starts

theorem skipBlanks (h : SameShown s t) :
    SameShown (TableStore.skipBlanks s) (TableStore.skipBlanks t) :=
  h.dropWhile fun _ => Sealed.isBlank

theorem trimCells (h : SameShown s t) :
    SameShown (TableStore.trimCells s) (TableStore.trimCells t) :=
  (h.skipBlanks.reverse.dropWhile fun _ => Sealed.isBlank).reverse

theorem letters? {w : List Char} (hw : ∀ c, Sealed c → ∀ a ∈ w, Text.sameLetter a c.visible = false)
    (h : SameShown s t) :
    Option.Rel (CutAlike s t) (TableStore.letters? w s) (TableStore.letters? w t) := by
  induction w generalizing s t with
  | nil => exact .some ⟨h, [], rfl, rfl⟩
  | cons a w ih =>
    cases h with
    | nil => exact .none
    | @shown c s t hc hst =>
      rw [TableStore.letters?, TableStore.letters?]
      split
      · refine rel_imp (ih (fun d hd b hb => hw d hd b (List.mem_cons_of_mem a hb)) hst) ?_
        rintro s' t' ⟨hrest, u, rfl, rfl⟩
        exact ⟨hrest, ⟨c, false⟩ :: u, rfl, rfl⟩
      · exact .none
    | @literal q x y s t hq hst =>
      have hstop : Text.sameLetter a (Cell.visible ⟨q, false⟩) = false :=
        hw ⟨q, false⟩ (Or.inr hq) a List.mem_cons_self
      simp only [literalCells, List.cons_append, TableStore.letters?, hstop]
      exact .none

theorem keyword? {w : String} (hw : plainWord w = true) (h : SameShown s t) :
    Option.Rel (CutAlike s t) (TableStore.keyword? w s) (TableStore.keyword? w t) :=
  h.letters? fun _ hc => sameLetter_sealed hw hc

theorem blanks? (h : SameShown s t) :
    Option.Rel (CutAlike s t) (TableStore.blanks? s) (TableStore.blanks? t) := by
  cases h with
  | nil => exact .none
  | @shown c s t hc hst =>
    rw [TableStore.blanks?, TableStore.blanks?]
    split
    · refine .some ⟨hst.skipBlanks, ⟨c, false⟩ :: s.takeWhile Cell.isBlank, ?_, ?_⟩
      · rw [List.cons_append, TableStore.skipBlanks, List.takeWhile_append_dropWhile]
      · rw [List.cons_append, TableStore.skipBlanks, hst.takeWhile_eq fun _ => Sealed.isBlank,
          List.takeWhile_append_dropWhile]
    · exact .none
  | @literal q a b s t hq hst =>
    have hstop : Cell.isBlank ⟨q, false⟩ = false := Sealed.isBlank (Or.inr hq)
    simp only [literalCells, List.cons_append, TableStore.blanks?, hstop]
    exact .none

theorem phrase? {words : List String} (hw : words.all plainWord = true) (h : SameShown s t) :
    Option.Rel (CutAlike s t) (TableStore.phrase? words s) (TableStore.phrase? words t) := by
  induction words generalizing s t with
  | nil => exact .some ⟨h, [], rfl, rfl⟩
  | cons w words ih =>
    rw [List.all_cons, Bool.and_eq_true] at hw
    cases words with
    | nil => exact h.keyword? hw.1
    | cons v words =>
      refine rel_bind (h.keyword? hw.1) fun s₁ t₁ h₁ => ?_
      refine rel_bind h₁.1.blanks? fun s₂ t₂ h₂ => ?_
      exact rel_imp (ih hw.2 h₂.1) fun s₃ t₃ h₃ => (h₁.trans h₂).trans h₃

theorem spacedPhrase? {words : List String} (hw : words.all plainWord = true) (h : SameShown s t) :
    Option.Rel (CutAlike s t) (TableStore.spacedPhrase? words s)
      (TableStore.spacedPhrase? words t) := by
  refine rel_bind h.blanks? fun s₁ t₁ h₁ => ?_
  refine rel_bind (h₁.1.phrase? hw) fun s₂ t₂ h₂ => ?_
  exact rel_imp h₂.1.blanks? fun s₃ t₃ h₃ => (h₁.trans h₂).trans h₃

theorem option? {words : List String} (hw : words.all plainWord = true) (h : SameShown s t) :
    SameAfter (TableStore.option? words s) (TableStore.option? words t) := by
  have hboth : Option.Rel SameShown ((TableStore.phrase? words s).bind TableStore.blanks?)
      ((TableStore.phrase? words t).bind TableStore.blanks?) :=
    rel_bind (h.phrase? hw) fun s₁ t₁ h₁ => rel_imp h₁.1.blanks? fun _ _ h₂ => h₂.1
  unfold TableStore.option?
  exact rel_elim hboth ⟨rfl, h⟩ fun _ _ hrest => ⟨rfl, hrest⟩

theorem word? (h : SameShown s t) :
    Option.Rel SameAfter (TableStore.word? s) (TableStore.word? t) := by
  unfold TableStore.word?
  dsimp only
  rw [h.takeWhile_eq fun _ => Sealed.isWordChar]
  split
  · exact .none
  · exact .some ⟨rfl, h.dropWhile fun _ => Sealed.isWordChar⟩

theorem digits? (h : SameShown s t) :
    Option.Rel SameAfter (TableStore.digits? s) (TableStore.digits? t) := by
  unfold TableStore.digits?
  dsimp only
  rw [h.takeWhile_eq fun _ => Sealed.isDigit]
  split
  · exact .none
  · exact .some ⟨rfl, h.dropWhile fun _ => Sealed.isDigit⟩

/-- The name that the texts start with is split in the same ways. -/
theorem someWordSplit? {α : Type} {R : α → α → Prop} {f g : String → List Cell → Option α}
    (hfg : ∀ name s t, SameShown s t → Option.Rel R (f name s) (g name t)) (h : SameShown s t) :
    Option.Rel R (TableStore.someWordSplit? f s) (TableStore.someWordSplit? g t) := by
  unfold TableStore.someWordSplit?
  dsimp only
  rw [← h.takeWhile_eq fun _ => Sealed.isWordChar]
  refine rel_findSome? (List.forall₂_same.mpr fun _ _ => rfl) ?_
  rintro i _ rfl
  rcases h.cut (fun _ => Sealed.isWordChar) (Nat.sub_le _ i) with ⟨htake, hdrop⟩
  rw [htake]
  exact hfg _ _ _ hdrop

theorem mark? {a : Char} (ha : a ≠ '#') (hq : isQuote a = false) (h : SameShown s t) :
    Option.Rel SameShown (TableStore.mark? a s) (TableStore.mark? a t) := by
  cases h with
  | nil => exact .none
  | @shown c s t hc hst =>
    rw [TableStore.mark?, TableStore.mark?]
    split
    · exact .some hst
    · exact .none
  | @literal q x y s t hquote hst =>
    have hstop : Cell.shows ⟨q, false⟩ a = false := Sealed.shows (Or.inr hquote) ha hq
    simp only [literalCells, List.cons_append, TableStore.mark?, hstop]
    exact .none

theorem atEnd? (h : SameShown s t) : TableStore.atEnd? s = TableStore.atEnd? t := by
  unfold TableStore.atEnd?
  rw [h.skipBlanks.isEmpty_eq]

theorem atWordEnd (h : SameShown s t) : TableStore.atWordEnd s = TableStore.atWordEnd t := by
  cases h with
  | nil => rfl
  | shown hc hst => rfl
  | literal a b hq hst => rfl

end Starts

section Searches

/-- The closing parenthesis at the end of both texts. -/
theorem enclosed? (h : SameShown s t) :
    Option.Rel SameShown (TableStore.enclosed? s) (TableStore.enclosed? t) := by
  have hrev := h.reverse
  rw [← List.reverse_reverse s, ← List.reverse_reverse t]
  generalize s.reverse = u at hrev ⊢
  generalize t.reverse = v at hrev ⊢
  cases hrev with
  | nil => exact .none
  | @shown c u v hc huv =>
    simp only [TableStore.enclosed?, List.reverse_cons, List.getLast?_concat, List.dropLast_concat]
    split
    · exact .some huv.reverse
    · exact .none
  | @literal q a b u v hq huv =>
    have hstop : Cell.shows ⟨q, false⟩ ')' = false :=
      Sealed.shows (Or.inr hq) (by decide) (by decide)
    simp only [TableStore.enclosed?, literalCells, List.cons_append, List.reverse_cons,
      List.getLast?_concat, hstop]
    exact .none

theorem untilClosing? (h : SameShown s t) :
    Option.Rel (fun p p' => SameShown p.1 p'.1 ∧ SameShown p.2 p'.2) (TableStore.untilClosing? s)
      (TableStore.untilClosing? t) := by
  induction h with
  | nil => exact .none
  | @shown c s t hc hst ih =>
    rw [TableStore.untilClosing?, TableStore.untilClosing?]
    split
    · exact .some ⟨.nil, hst⟩
    · exact rel_map ih fun p p' hp => ⟨.shown hc hp.1, hp.2⟩
  | @literal q a b s t hq _ ih =>
    have hpass : ∀ body, ∀ c ∈ literalCells q body, c.shows ')' = false := fun body c hc =>
      (sealed_of_mem_literalCells hq hc).shows (by decide) (by decide)
    rw [untilClosing?_run (hpass a), untilClosing?_run (hpass b)]
    exact rel_map ih fun p p' hp => ⟨.literal a b hq hp.1, hp.2⟩

theorem consWord {c : Char} (hc : isQuote c = false) {ws ws' : List (List Cell)}
    (h : List.Forall₂ SameShown ws ws') :
    List.Forall₂ SameShown (Text.consWord ⟨c, false⟩ ws) (Text.consWord ⟨c, false⟩ ws') := by
  cases h with
  | nil => exact .cons (.shown hc .nil) .nil
  | cons hw hws => exact .cons (.shown hc hw) hws

theorem prependTo {q : Char} (hq : isQuote q = true) (a b : List Char) {ws ws' : List (List Cell)}
    (h : List.Forall₂ SameShown ws ws') :
    List.Forall₂ SameShown (TableStore.prependTo (literalCells q a) ws)
      (TableStore.prependTo (literalCells q b) ws') := by
  cases h with
  | nil =>
    have hlast := SameShown.literal a b hq .nil
    rw [List.append_nil, List.append_nil] at hlast
    exact .cons hlast .nil
  | cons hw hws => exact .cons (.literal a b hq hw) hws

theorem piecesWithin {depth : Nat} (h : SameShown s t) :
    Option.Rel (List.Forall₂ SameShown) (TableStore.piecesWithin depth s)
      (TableStore.piecesWithin depth t) := by
  induction h generalizing depth with
  | nil =>
    cases depth with
    | zero => exact .some (.cons .nil .nil)
    | succ depth => exact .none
  | @shown c s t hc _ ih =>
    have hnext : ∀ depth, Option.Rel (List.Forall₂ SameShown)
        ((TableStore.piecesWithin depth s).map (Text.consWord ⟨c, false⟩))
        ((TableStore.piecesWithin depth t).map (Text.consWord ⟨c, false⟩)) := fun depth =>
      rel_map ih fun ws ws' hws => consWord hc hws
    cases depth with
    | zero =>
      rw [TableStore.piecesWithin, TableStore.piecesWithin]
      split
      · exact hnext 1
      · split
        · exact .none
        · split
          · exact rel_map ih fun ws ws' hws => .cons .nil hws
          · exact hnext 0
    | succ depth =>
      rw [TableStore.piecesWithin, TableStore.piecesWithin]
      split
      · exact hnext (depth + 2)
      · split
        · exact hnext depth
        · split
          · exact rel_map ih fun ws ws' hws => .cons .nil hws
          · exact hnext (depth + 1)
  | @literal q a b s t hq _ ih =>
    -- A literal is passed as a whole, at any depth of parentheses.
    have hpass : ∀ body, ∀ c ∈ literalCells q body, c.separates = false := fun body c hc =>
      (sealed_of_mem_literalCells hq hc).separates
    rw [piecesWithin_run (literalCells_ne_nil q a) (hpass a),
      piecesWithin_run (literalCells_ne_nil q b) (hpass b)]
    exact rel_map ih fun ws ws' hws => prependTo hq a b hws

theorem nameList (h : SameShown s t) :
    List.Forall₂ SameShown (TableStore.nameList s) (TableStore.nameList t) := by
  induction h with
  | nil => exact .cons .nil .nil
  | @shown c s t hc _ ih =>
    rw [TableStore.nameList, TableStore.nameList]
    split
    · exact .cons .nil ih
    · exact consWord hc ih
  | @literal q a b s t hq _ ih =>
    have hpass : ∀ body, ∀ c ∈ literalCells q body, c.shows ',' = false := fun body c hc =>
      (sealed_of_mem_literalCells hq hc).shows (by decide) (by decide)
    rw [nameList_run (literalCells_ne_nil q a) (hpass a),
      nameList_run (literalCells_ne_nil q b) (hpass b)]
    exact prependTo hq a b ih

theorem splitAtAnd (h : SameShown s t) :
    List.Forall₂ SameShown (TableStore.splitAtAnd 0 s) (TableStore.splitAtAnd 0 t) := by
  -- After the word AND the search goes on in the rest, which is shorter.
  generalize hlength : s.length = n
  induction n using Nat.strongRecOn generalizing s t with
  | ind n ih =>
    cases h with
    | nil =>
      rw [splitAtAnd_nil]
      exact .cons .nil .nil
    | @shown c s t hc hst =>
      rw [splitAtAnd_cons, splitAtAnd_cons]
      have hand := (SameShown.shown hc hst).spacedPhrase?
        (show ["AND"].all plainWord = true by decide)
      rcases rel_cases hand with ⟨hx, hy⟩ | ⟨rest, rest', hx, hy, hrest⟩
      · rw [hx, hy]
        exact consWord hc (ih s.length (by rw [← hlength]; exact Nat.lt_succ_self _) hst rfl)
      · rw [hx, hy]
        have hlt := (suffix_spacedPhrase? hx).2
        exact .cons .nil (ih _ (by rw [← hlength]; exact hlt) hrest.1 rfl)
    | @literal q a b s t hq hst =>
      have hpass : ∀ body, ∀ c ∈ literalCells q body, c.isBlank = false := fun body c hc =>
        (sealed_of_mem_literalCells hq hc).isBlank
      rw [splitAtAnd_freeOf (literalCells_ne_nil q a) (freeOf_of_not_blank (hpass a)),
        splitAtAnd_freeOf (literalCells_ne_nil q b) (freeOf_of_not_blank (hpass b))]
      have hlt : s.length < n := by
        have hpos := List.length_pos_iff.mpr (literalCells_ne_nil q a)
        rw [← hlength, List.length_append]
        omega
      exact prependTo hq a b (ih s.length hlt hst rfl)

/-- The next quote after the one that opens a literal closes it. -/
theorem afterNext_literal {q : Char} (body : List Char) (s : List Cell) (hq : isQuote q = true) :
    afterNext q (insideCells body ++ ⟨q, false⟩ :: s) = s := by
  induction body with
  | nil => simp [insideCells, afterNext, Cell.shows, Cell.visible]
  | cons c body ih =>
    have hhidden : Cell.shows ⟨c, true⟩ q = false := by
      rcases quote_cases hq with rfl | rfl <;> rfl
    rw [insideCells, List.map_cons, List.cons_append, afterNext, hhidden]
    exact ih

/-- A word that no literal contains is not found in one. -/
theorem containsWord_literal {w : String} (hw : plainWord w = true) {excuse : List Cell → Bool}
    {q : Char} (hq : isQuote q = true) (body : List Char) (inWord : Bool) (s : List Cell) :
    TableStore.containsWord w excuse inWord (literalCells q body ++ s)
      = TableStore.containsWord w excuse false s := by
  -- The word before a cell of the literal never matters, so the induction is on any run of them.
  have hrun : ∀ u : List Cell, u ≠ [] → (∀ c ∈ u, Sealed c) → ∀ inWord,
      TableStore.containsWord w excuse inWord (u ++ s)
        = TableStore.containsWord w excuse false s := by
    intro u
    induction u with
    | nil => exact fun hne => absurd rfl hne
    | cons c u ih =>
      intro _ hu inWord
      have hc := hu c List.mem_cons_self
      rw [List.cons_append, containsWord_pass (keyword?_sealed hw hc _), hc.isWordChar]
      by_cases hnil : u = []
      · rw [hnil, List.nil_append]
      · exact ih hnil (fun d hd => hu d (List.mem_cons_of_mem c hd)) false
  exact hrun _ (literalCells_ne_nil q body) (fun c hc => sealed_of_mem_literalCells hq hc) inWord

theorem containsWord {w : String} (hw : plainWord w = true) {excuse : List Cell → Bool}
    (hexcuse : ∀ s t, SameShown s t → excuse s = excuse t) (h : SameShown s t) (inWord : Bool) :
    TableStore.containsWord w excuse inWord s = TableStore.containsWord w excuse inWord t := by
  induction h generalizing inWord with
  | nil => rfl
  | @shown c s t hc hst ih =>
    rw [TableStore.containsWord, TableStore.containsWord, ih]
    refine rel_elim ((SameShown.shown hc hst).keyword? hw) rfl fun s' t' hrest => ?_
    simp only [hrest.1.atWordEnd, hexcuse _ _ hrest.1]
  | literal a b hq _ ih => rw [containsWord_literal hw hq, containsWord_literal hw hq, ih]

/-- The shortest clauses after which the rest can be read, where the rest is
    read from a blank on. -/
theorem shortestPrefix? {α : Type} {R : α → α → Prop} {stops : List String}
    {f : List Cell → Option α} (hread : ∀ s t, SameShown s t → Option.Rel R (f s) (f t))
    (hf : StopsAt stops f) (h : SameShown s t) :
    Option.Rel (fun p p' => SameShown p.1 p'.1 ∧ R p.2 p'.2) (TableStore.shortestPrefix? f s)
      (TableStore.shortestPrefix? f t) := by
  induction h with
  | nil => exact .none
  | @shown c s t hc hst ih =>
    rw [TableStore.shortestPrefix?, TableStore.shortestPrefix?]
    refine rel_elim (hread s t hst) ?_ fun a b hab => .some ⟨.shown hc .nil, hab⟩
    exact rel_map ih fun p p' hp => ⟨.shown hc hp.1, hp.2⟩
  | @literal q a b s t hq hst ih =>
    -- Nothing can be read inside a literal, so the clause ends after it or later.
    have hinside : ∀ body s, ∀ v, v <:+ insideCells body ++ [⟨q, false⟩] → v ≠ [] →
        f (v ++ s) = none := by
      intro body s
      have hcells : ∀ c ∈ insideCells body ++ [⟨q, false⟩], c.isBlank = false := fun c hc =>
        (sealed_of_mem_literalCells hq (List.mem_cons_of_mem _ hc)).isBlank
      exact (freeOf_of_not_blank hcells).eq_none hf
    have hlast := SameShown.literal a b hq .nil
    rw [List.append_nil, List.append_nil] at hlast
    rw [literalCells, literalCells, List.cons_append, List.cons_append]
    rcases rel_cases (hread s t hst) with ⟨hx, hy⟩ | ⟨x, y, hx, hy, hxy⟩
    · rw [shortestPrefix?_passed (hinside a s) hx, shortestPrefix?_passed (hinside b t) hy]
      exact rel_map ih fun p p' hp => ⟨.literal a b hq hp.1, hp.2⟩
    · rw [shortestPrefix?_found (hinside a s) hx, shortestPrefix?_found (hinside b t) hy]
      exact .some ⟨hlast, hxy⟩

/-- The words of both texts. -/
theorem splitRuns (h : SameShown s t) :
    List.Forall₂ SameShown (Text.splitRuns Cell.isBlank s) (Text.splitRuns Cell.isBlank t) := by
  have hat : ∀ {s t}, SameShown s t →
      Text.atBlank Cell.isBlank s = Text.atBlank Cell.isBlank t := by
    intro s t h
    cases h with
    | nil => rfl
    | shown hc hst => rfl
    | literal a b hq hst => rfl
  induction h with
  | nil => exact .nil
  | @shown c s t hc hst ih =>
    by_cases hblank : Cell.isBlank ⟨c, false⟩ = true
    · rwa [Text.splitRuns_blank hblank, Text.splitRuns_blank hblank]
    · rw [Bool.not_eq_true] at hblank
      rw [Text.splitRuns_cons hblank, Text.splitRuns_cons hblank, hat hst]
      split
      · exact .cons (.shown hc .nil) ih
      · exact consWord hc ih
  | @literal q a b s t hq hst ih =>
    -- A literal has no blank that shows, so it is part of one run whatever it says.
    have hpass : ∀ body, ∀ c ∈ literalCells q body, c.isBlank = false := fun body c hc =>
      (sealed_of_mem_literalCells hq hc).isBlank
    have hlast := SameShown.literal a b hq .nil
    rw [List.append_nil, List.append_nil] at hlast
    rw [Text.splitRuns_run (literalCells_ne_nil q a) (hpass a),
      Text.splitRuns_run (literalCells_ne_nil q b) (hpass b), hat hst]
    split
    · exact .cons hlast ih
    · exact prependTo hq a b ih

end Searches

end SameShown

end TableStore
