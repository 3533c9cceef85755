import TableStore.Proofs.Except
import TableStore.Proofs.Statement.SameShown

/-!
# Results That Are Alike

Two texts that are the same outside of their literals are read alike. A result
of reading is either a fault, and then the other is a fault of the same class,
or a datum, and then the other is the same up to those of its values that are
texts.

A piece of a statement that contains a quote always denotes a text, even if it
is not a literal but has one in it, for no number and no keyword contains a
quote. So a value that is not a text was written without a literal, and is the
same in both statements.

## Main definitions

* `Fault.SameClass`: Faults of one class.
* `AlikeBy`: Two results that are alike.
* `Statement.withoutTexts`: A statement with its text values made empty.

## Theorems

* `AlikeBy.bind`, `AlikeBy.mapM`: Steps that are alike, one after another.
* `Value.ofTrimmed_of_quote`: What a text that begins with a quote denotes.
* `Value.ofLiteral_of_quote`: What contains a quote denotes a text.
* `SameShown.ofLiteral`: Pieces that show the same denote the same value, or
  texts.
-/

namespace TableStore

/-- Whether two faults are of one class: both parse errors, or the same
    fault. -/
def Fault.SameClass : Fault → Fault → Prop
  | .parse _, .parse _ => True
  | fault, fault' => fault = fault'

/-- Two results that are alike: related results, or faults of one class. -/
inductive AlikeBy {α β : Type} (R : α → β → Prop) : Except Fault α → Except Fault β → Prop
  | ok {a : α} {b : β} (h : R a b) : AlikeBy R (.ok a) (.ok b)
  | error {fault fault' : Fault} (h : fault.SameClass fault') :
      AlikeBy R (.error fault) (.error fault')

/-- A value with its text made empty, if it is a text. -/
def Value.withoutText : Value → Value
  | .text _ => .text ""
  | v => v

/-- A column with the text of its default made empty. -/
def Column.withoutText (column : Column) : Column :=
  { column with default := column.default.withoutText }

/-- A condition with the text that it compares with made empty. -/
def Condition.withoutText (condition : Condition) : Condition :=
  { condition with value := condition.value.withoutText }

/-- An assignment with the text that it assigns made empty. -/
def Assignment.withoutText (assignment : Assignment) : Assignment :=
  { assignment with value := assignment.value.withoutText }

/-- A statement with its text values made empty. -/
def Statement.withoutTexts : Statement → Statement
  | .createTable table columns primaryKey mayExist =>
    .createTable table (columns.map Column.withoutText) primaryKey mayExist
  | .insert table columns values => .insert table columns (values.map Value.withoutText)
  | .select table items conditions order limit offset =>
    .select table items (conditions.map Condition.withoutText) order limit offset
  | .update table assignments conditions =>
    .update table (assignments.map Assignment.withoutText) (conditions.map Condition.withoutText)
  | .delete table conditions => .delete table (conditions.map Condition.withoutText)
  | statement => statement

/-- Whether two data are the same up to their texts, as `view` shows them. -/
def SameBut {α β : Type} (view : α → β) (a b : α) : Prop :=
  view a = view b

section Alike

variable {α β γ δ : Type} {R : α → β → Prop} {S : γ → δ → Prop}

/-- Two parse errors are of one class, whatever is wrong. -/
theorem AlikeBy.parse {e e' : ParseError} :
    AlikeBy R (.error (.parse e)) (.error (.parse e')) :=
  .error trivial

theorem Fault.SameClass.refl (fault : Fault) : fault.SameClass fault := by
  cases fault <;> first | exact trivial | rfl

theorem AlikeBy.refl {R : α → α → Prop} (hR : ∀ a, R a a) (x : Except Fault α) : AlikeBy R x x := by
  cases x with
  | ok a => exact .ok (hR a)
  | error fault => exact .error (.refl fault)

theorem AlikeBy.bind {x : Except Fault α} {y : Except Fault β} {f : α → Except Fault γ}
    {g : β → Except Fault δ} (h : AlikeBy R x y) (hfg : ∀ a b, R a b → AlikeBy S (f a) (g b)) :
    AlikeBy S (x >>= f) (y >>= g) := by
  cases h with
  | ok hab => exact hfg _ _ hab
  | error hclass => exact .error hclass

theorem AlikeBy.imp {R' : α → β → Prop} {x : Except Fault α} {y : Except Fault β}
    (h : AlikeBy R x y) (himp : ∀ a b, R a b → R' a b) : AlikeBy R' x y := by
  cases h with
  | ok hab => exact .ok (himp _ _ hab)
  | error hclass => exact .error hclass

theorem sameBut_map {view : α → β} {s t : List α} (h : List.Forall₂ (SameBut view) s t) :
    SameBut (List.map view) s t := by
  induction h with
  | nil => rfl
  | cons hab _ ih => exact congrArg₂ List.cons hab ih

theorem AlikeBy.mapM {P : γ → δ → Prop} {s : List γ} {t : List δ} {f : γ → Except Fault α}
    {g : δ → Except Fault β} (h : List.Forall₂ P s t)
    (hfg : ∀ a b, P a b → AlikeBy R (f a) (g b)) :
    AlikeBy (List.Forall₂ R) (s.mapM f) (t.mapM g) := by
  induction h with
  | nil =>
    rw [List.mapM_nil, List.mapM_nil]
    exact .ok .nil
  | cons hab _ ih =>
    rw [List.mapM_cons, List.mapM_cons]
    refine (hfg _ _ hab).bind fun a b hR => ?_
    exact ih.bind fun s t hst => .ok (.cons hR hst)

end Alike

section Literals

variable {q : Char}

theorem Text.mem_trimBy {α : Type} {blank : α → Bool} {a : α} {s : List α} (ha : a ∈ s)
    (hblank : blank a = false) : a ∈ trimBy blank s := by
  have hdrop : ∀ {s : List α}, a ∈ s → a ∈ s.dropWhile blank := by
    intro s ha
    rw [← List.takeWhile_append_dropWhile (p := blank) (l := s)] at ha
    rcases List.mem_append.mp ha with htake | hrest
    · have hall := List.all_eq_true.mp (List.all_takeWhile (p := blank) (l := s)) a htake
      rw [hblank] at hall
      exact absurd hall Bool.false_ne_true
    · exact hrest
  unfold trimBy trimEnd trimStart
  rw [List.mem_reverse]
  exact hdrop (List.mem_reverse.mpr (hdrop ha))

theorem mem_toUpper_of_quote (hq : isQuote q = true) {s : List Char} (hmem : q ∈ s) :
    q ∈ Text.toUpper s := by
  refine List.mem_flatMap.mpr ⟨q, hmem, ?_⟩
  rcases quote_cases hq with rfl | rfl <;> decide

theorem toUpper_ne_of_quote (hq : isQuote q = true) {s : List Char} (hmem : q ∈ s) {w : List Char}
    (hw : w.all (fun c => !isQuote c) = true) : Text.toUpper s ≠ w := by
  intro heq
  have hquote := List.all_eq_true.mp hw q (heq ▸ mem_toUpper_of_quote hq hmem)
  rw [hq] at hquote
  exact Bool.false_ne_true hquote

theorem mem_takeSign {c : Char} (hc : c ≠ '-' ∧ c ≠ '+') {s : List Char} (hmem : c ∈ s) :
    c ∈ (takeSign s).2 := by
  unfold takeSign
  split
  · exact (List.mem_cons.mp hmem).resolve_left hc.1
  · exact (List.mem_cons.mp hmem).resolve_left hc.2
  · exact hmem

theorem mem_takeDigits {c : Char} (hc : Text.digitValue? c = none) {s : List Char} (hmem : c ∈ s) :
    c ∈ (takeDigits s).2 := by
  induction s with
  | nil => exact absurd hmem (by simp)
  | cons a s ih =>
    rw [takeDigits]
    cases hdigit : Text.digitValue? a with
    | none => exact hmem
    | some d =>
      refine ih ((List.mem_cons.mp hmem).resolve_left ?_)
      rintro rfl
      rw [hc] at hdigit
      cases hdigit

theorem ne_sign_of_quote (hq : isQuote q = true) : q ≠ '-' ∧ q ≠ '+' := by
  rcases quote_cases hq with rfl | rfl <;> decide

theorem digitValue?_of_quote (hq : isQuote q = true) : Text.digitValue? q = none := by
  rcases quote_cases hq with rfl | rfl <;> decide

theorem isEmpty_of_mem {α : Type} {a : α} {s : List α} (h : a ∈ s) : s.isEmpty = false := by
  cases s with
  | nil => exact absurd h (by simp)
  | cons _ _ => rfl

/-- An integer contains nothing but a sign and digits. -/
theorem readInteger?_of_mem {c : Char} (hsign : c ≠ '-' ∧ c ≠ '+')
    (hdigit : Text.digitValue? c = none) {s : List Char} (hmem : c ∈ s) :
    readInteger? s = none := by
  have hrest := mem_takeDigits hdigit (mem_takeSign hsign hmem)
  unfold readInteger?
  simp [isEmpty_of_mem hrest]

/-- An exponent contains nothing but its letter, a sign and digits. -/
theorem readExponent?_of_mem {c : Char} (hletter : c ≠ 'e' ∧ c ≠ 'E') (hsign : c ≠ '-' ∧ c ≠ '+')
    (hdigit : Text.digitValue? c = none) {s : List Char} (hmem : c ∈ s) :
    readExponent? s = none := by
  cases s with
  | nil => exact absurd hmem (by simp)
  | cons a s =>
    rw [readExponent?]
    split
    · rename_i hexp
      have hne : c ≠ a := by
        rintro rfl
        simp [hletter.1, hletter.2] at hexp
      have hrest := mem_takeDigits hdigit
        (mem_takeSign hsign ((List.mem_cons.mp hmem).resolve_left hne))
      simp [isEmpty_of_mem hrest]
    · rfl

/-- A float contains no quote. -/
theorem readFloat?_of_quote (hq : isQuote q = true) {s : List Char} (hmem : q ∈ s) :
    readFloat? s = none := by
  have hrest := mem_takeDigits (digitValue?_of_quote hq)
    (mem_takeSign (ne_sign_of_quote hq) hmem)
  unfold readFloat?
  dsimp only
  generalize takeDigits (takeSign s).2 = found at hrest ⊢
  split
  · rename_i places hplaces
    rw [hplaces] at hrest
    have hchar : q ≠ '.' ∧ q ≠ 'e' ∧ q ≠ 'E' := by
      rcases quote_cases hq with rfl | rfl <;> decide
    have hexp := mem_takeDigits (digitValue?_of_quote hq)
      ((List.mem_cons.mp hrest).resolve_left hchar.1)
    rw [readExponent?_of_mem hchar.2 (ne_sign_of_quote hq) (digitValue?_of_quote hq) hexp]
    simp
  · rfl

/-- What a text without outer blanks denotes if it begins with a quote: what is between
    this and the last character, if that is the same quote, and else itself. -/
theorem Value.ofTrimmed_of_quote (hq : isQuote q = true) (s : List Char) :
    Value.ofTrimmed (q :: s) = .ok (.text (String.ofList
      (if s.getLast? = some q then unescapeQuotes q s.dropLast else q :: s))) := by
  have hmem : q ∈ q :: s := List.mem_cons_self
  have hword : ∀ w : List Char, w.all (fun c => !isQuote c) = true →
      (Text.toUpper (q :: s) == w) = false :=
    fun w hw => beq_eq_false_iff_ne.mpr (toUpper_ne_of_quote hq hmem hw)
  have hinteger := readInteger?_of_mem (ne_sign_of_quote hq) (digitValue?_of_quote hq) hmem
  unfold Value.ofTrimmed
  simp only [List.isEmpty_cons, hword "NULL".toList (by decide), hword "TRUE".toList (by decide),
    hword "FALSE".toList (by decide), readFloat?_of_quote hq hmem, hinteger, Bool.or_self,
    Bool.false_eq_true, if_false, Option.filter_none, quotedContent?, hq, Bool.true_and, beq_iff_eq]
  by_cases hlast : s.getLast? = some q
  · rw [if_pos hlast, if_pos hlast]
  · rw [if_neg hlast, if_neg hlast]

/-- What contains a quote denotes a text. -/
theorem Value.ofLiteral_of_quote (hq : isQuote q = true) {s : List Char} (hmem : q ∈ s) :
    ∃ u, Value.ofLiteral s = .ok (.text u) := by
  have htrim : q ∈ Text.trimBlanks s := Text.mem_trimBy hmem (isBlank_quote hq)
  unfold Value.ofLiteral Value.ofTrimmed
  generalize Text.trimBlanks s = t at htrim ⊢
  have hword : ∀ w : List Char, w.all (fun c => !isQuote c) = true →
      (Text.toUpper t == w) = false :=
    fun w hw => beq_eq_false_iff_ne.mpr (toUpper_ne_of_quote hq htrim hw)
  have hinteger := readInteger?_of_mem (ne_sign_of_quote hq) (digitValue?_of_quote hq) htrim
  simp only [isEmpty_of_mem htrim, hword "NULL".toList (by decide), hword "TRUE".toList (by decide),
    hword "FALSE".toList (by decide), readFloat?_of_quote hq htrim, hinteger, Bool.or_self,
    Bool.false_eq_true, if_false, Option.filter_none]
  split
  · exact ⟨_, rfl⟩
  · exact ⟨_, rfl⟩

/-- Pieces that differ in hidden cells only denote the same value, or texts. -/
theorem SameShown.ofLiteral {s t : List Cell} (h : SameShown s t) :
    AlikeBy (SameBut Value.withoutText) (Value.ofLiteral (cellChars s))
      (Value.ofLiteral (cellChars t)) := by
  rcases h.eq_or_quoted with rfl | ⟨⟨p, hp, hs⟩, q, hq, ht⟩
  · exact .refl (R := SameBut Value.withoutText) (fun _ => rfl) _
  · rcases Value.ofLiteral_of_quote hp (List.mem_map_of_mem (f := Cell.char) hs) with ⟨u, hu⟩
    rcases Value.ofLiteral_of_quote hq (List.mem_map_of_mem (f := Cell.char) ht) with ⟨v, hv⟩
    unfold cellChars
    rw [hu, hv]
    exact .ok rfl

end Literals

namespace SameShown

variable {s t : List Cell} {sql sql' : String}

theorem splitAtCommas (h : SameShown s t) :
    AlikeBy (List.Forall₂ SameShown) (TableStore.splitAtCommas s) (TableStore.splitAtCommas t) := by
  have hpieces := @SameShown.piecesWithin _ _ 0 h
  unfold TableStore.splitAtCommas
  refine rel_elim hpieces .parse fun ws ws' hws => .ok ?_
  rw [List.forall₂_map_left_iff, List.forall₂_map_right_iff]
  exact hws.imp fun _ _ hw => hw.trimCells

/-- A piece of word characters has no literal in it. -/
theorem all_isWordChar (h : SameShown s t) :
    s.all Cell.isWordChar = t.all Cell.isWordChar
      ∧ (s.all Cell.isWordChar = true → s = t) := by
  have hquoted : ∀ {u : List Cell}, (∃ q, isQuote q = true ∧ ⟨q, false⟩ ∈ u) →
      u.all Cell.isWordChar = false := by
    rintro u ⟨q, hq, hmem⟩
    exact List.all_eq_false.mpr ⟨_, hmem, by
      rw [Sealed.isWordChar (Or.inr hq)]
      exact Bool.false_ne_true⟩
  rcases h.eq_or_quoted with rfl | ⟨hs, ht⟩
  · exact ⟨rfl, fun _ => rfl⟩
  · rw [hquoted hs, hquoted ht]
    exact ⟨rfl, fun hall => absurd hall Bool.false_ne_true⟩

end SameShown

end TableStore
