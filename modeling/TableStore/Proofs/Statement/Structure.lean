import TableStore.Proofs.Statement.AlikeDefinition
import TableStore.Proofs.Statement.AlikeManipulation

/-!
# Literals Never Change the Structure of a Statement

What stands inside a literal is a value and nothing else. Two texts that are
the same outside of their literals are read alike, whatever the literals hold:
either neither is a statement, for the same class of reason, or both are
statements that are the same up to those of their values that are texts.

The proof follows the reader clause by clause. `AlikeBy` is carried through
its steps: related results, or faults of one class. The texts in the messages
of the faults differ, and so do the lengths that bound the reading of column
constraints; neither has a say in the result.

## Theorems

* `SameShown.readAs`: The statement of a kind is read alike.
* `SameShown.kindOf?`: So is the kind.
* `Statement.ofText_alike`: The contents of literals never change the structure
  of a statement.
-/

namespace TableStore

namespace SameShown

variable {s t : List Cell} {sql sql' : String}

theorem readAs (h : SameShown s t) (kind : StatementKind) :
    AlikeBy (SameBut Statement.withoutTexts) (Statement.readAs kind sql s)
      (Statement.readAs kind sql' t) := by
  cases kind with
  | createTable => exact h.readCreateTable
  | dropTable => exact readWhole h.dropTable?
  | createIndex => exact readWhole h.createIndex?
  | dropIndex => exact readWhole h.dropIndex?
  | insert => exact h.readInsert
  | select => exact h.readSelect
  | update => exact h.readUpdate
  | delete => exact h.readDelete

section Kind

/-- The words that statements begin with. -/
def openingWords : List String :=
  ["CREATE", "TABLE", "INDEX", "DROP", "INSERT", "SELECT", "UPDATE", "DELETE"]

theorem kindOf?_congr {words words' : List String}
    (h : List.Forall₂ (fun w w' => ∀ k ∈ openingWords, w = k ↔ w' = k) words words') :
    Statement.kindOf? words = Statement.kindOf? words' := by
  cases h with
  | nil => rfl
  | @cons first first' rest rest' hfirst hrest =>
    have hsecond : ∀ k ∈ openingWords, rest.head?.getD "" = k ↔ rest'.head?.getD "" = k := by
      cases hrest with
      | nil => exact fun _ _ => Iff.rfl
      | cons hsecond _ => exact hsecond
    unfold Statement.kindOf?
    simp only [hfirst "CREATE" (by decide), hfirst "DROP" (by decide),
      hfirst "INSERT" (by decide), hfirst "SELECT" (by decide), hfirst "UPDATE" (by decide),
      hfirst "DELETE" (by decide), hsecond "TABLE" (by decide), hsecond "INDEX" (by decide)]

/-- A word with a literal in it begins no statement. -/
theorem opening_iff (h : SameShown s t) {k : String} (hk : k ∈ openingWords) :
    String.ofList (Text.toUpper (s.map Cell.visible)) = k
      ↔ String.ofList (Text.toUpper (t.map Cell.visible)) = k := by
  have hplain : ∀ k ∈ openingWords, k.toList.all (fun c => !isQuote c) = true := by decide
  have hquoted : ∀ {u : List Cell}, (∃ q, isQuote q = true ∧ ⟨q, false⟩ ∈ u) →
      String.ofList (Text.toUpper (u.map Cell.visible)) ≠ k := by
    rintro u ⟨q, hq, hmem⟩ heq
    refine toUpper_ne_of_quote hq (List.mem_map_of_mem (f := Cell.visible) hmem) (hplain k hk) ?_
    rw [← heq, String.toList_ofList]
  rcases h.eq_or_quoted with rfl | ⟨hs, ht⟩
  · exact Iff.rfl
  · exact iff_of_false (hquoted hs) (hquoted ht)

theorem kindOf? (h : SameShown s t) :
    Statement.kindOf? (Statement.leadingWords s)
      = Statement.kindOf? (Statement.leadingWords t) := by
  refine kindOf?_congr ?_
  unfold Statement.leadingWords Text.splitWords
  rw [Text.splitRuns_map, Text.splitRuns_map, ← List.map_take, ← List.map_take, List.map_map,
    List.map_map, List.forall₂_map_left_iff, List.forall₂_map_right_iff]
  have htake : List.Forall₂ SameShown ((Text.splitRuns Cell.isBlank s).take 2)
      ((Text.splitRuns Cell.isBlank t).take 2) := List.forall₂_take 2 h.splitRuns
  refine htake.imp fun u v hw => ?_
  intro k hk
  exact hw.opening_iff hk

end Kind

end SameShown

namespace Statement

theorem ofChars_alike {s t : List Char} (h : SameOutside s t) :
    AlikeBy (SameBut withoutTexts) (ofChars s) (ofChars t) := by
  rcases h.hideLiterals with ⟨u, v, hu, hv, huv⟩
  unfold ofChars
  rw [hu, hv]
  dsimp only
  rw [huv.kindOf?]
  split
  · exact .parse
  · exact huv.readAs _

/-- The contents of literals never change the structure of a statement: two
    texts that are the same outside of literals either both are no statements,
    for the same class of reason, or are statements that are the same but for
    values that are texts in both. -/
theorem ofText_alike {a b : String} (h : SameOutside a.toList b.toList) :
    AlikeBy (SameBut withoutTexts) (ofText (some a)) (ofText (some b)) := by
  have hempty : ∀ {s t : List Char}, SameOutside s t → s.isEmpty = t.isEmpty := by
    intro s t hst
    cases hst <;> rfl
  have htrim := h.trimBlanks
  have hsemicolon := htrim.dropSemicolon
  unfold ofText
  dsimp only
  rw [hempty htrim, hempty hsemicolon]
  split
  · exact .parse
  · split
    · exact .parse
    · exact ofChars_alike hsemicolon

/-- Contents that look like the rest of a statement are still contents: here a
    value with a closing parenthesis, a doubled quote and a second statement
    stands where a plain one stood. -/
theorem ofText_alike_intrusion :
    SameOutside "INSERT INTO t VALUES ('a', 1)".toList
        "INSERT INTO t VALUES ('b'', 2); DROP TABLE t', 1)".toList
      ∧ AlikeBy (SameBut withoutTexts) (ofText (some "INSERT INTO t VALUES ('a', 1)"))
        (ofText (some "INSERT INTO t VALUES ('b'', 2); DROP TABLE t', 1)")) := by
  have hbody : ∀ {s : List Char}, '\\' ∉ s → LiteralBody '\'' (doubled '\'' s) :=
    literalBody_doubled
  have hsame : SameOutside "INSERT INTO t VALUES ('a', 1)".toList
      "INSERT INTO t VALUES ('b'', 2); DROP TABLE t', 1)".toList :=
    .append_outside (u := "INSERT INTO t VALUES (".toList) (by decide)
      (.literal (by decide) (hbody (s := "a".toList) (by decide))
        (hbody (s := "b', 2); DROP TABLE t".toList) (by decide)) (by decide)
        (.append_outside (u := ", 1)".toList) (by decide) .nil))
  exact ⟨hsame, ofText_alike hsame⟩

end Statement

end TableStore
