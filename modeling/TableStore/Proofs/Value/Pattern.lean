import Mathlib.Data.List.Forall2
import TableStore.Value.Pattern

/-!
# What Patterns Match

A pattern matches a text that can be cut into pieces, one for each character of the
pattern. A pattern is not matched by itself but turned into the text of a regular
expression, which is read and matched. So two things have to be seen. The text is
read back part by part: whatever a character of the pattern means to the notation,
it has lost that meaning behind a backslash, and nothing that is written for one
character belongs to the next. And the matching, which tries the lengths of a run
one after the other, finds a cut if there is one.

## Main definitions

* `Regex.Part.Covers`: The pieces of a text that a part fits.
* `PatternPiece`: The pieces of a text that a character of a pattern stands for.

## Theorems

* `Regex.fits_iff`: An expression fits the texts that can be cut into its pieces.
* `ofText?_patternRegex`: The regular expression of a pattern is read.
* `Value.like_iff_cut`: What a pattern matches.
-/

namespace TableStore

namespace Regex

variable {atom : Atom} {s rest : List Char}

/-- A piece of a text that a part fits. -/
structure Part.Covers (part : Part) (piece : List Char) : Prop where
  fits : ∀ d ∈ piece, part.atom.fits d = true
  single : part.repeated = false → piece.length = 1

theorem Atom.mem_rests :
    rest ∈ atom.rests s ↔ ∃ piece, s = piece ++ rest ∧ ∀ d ∈ piece, atom.fits d = true := by
  induction s with
  | nil =>
    rw [rests, List.mem_singleton]
    constructor
    · rintro rfl
      exact ⟨[], rfl, fun d hd => absurd hd List.not_mem_nil⟩
    · rintro ⟨piece, hs, -⟩
      exact (List.append_eq_nil_iff.mp hs.symm).2
  | cons d s ih =>
    rw [rests, List.mem_cons]
    constructor
    · rintro (rfl | hrest)
      · exact ⟨[], rfl, fun d hd => absurd hd List.not_mem_nil⟩
      · split at hrest
        · rename_i hd
          rcases ih.mp hrest with ⟨piece, rfl, hpiece⟩
          exact ⟨d :: piece, rfl, List.forall_mem_cons.mpr ⟨hd, hpiece⟩⟩
        · exact absurd hrest List.not_mem_nil
    · rintro ⟨_ | ⟨e, piece⟩, hs, hpiece⟩
      · exact Or.inl hs.symm
      · rw [List.cons_append, List.cons.injEq] at hs
        rcases hs with ⟨rfl, hs⟩
        rw [if_pos (hpiece d List.mem_cons_self)]
        exact Or.inr (ih.mpr ⟨piece, hs, fun e he => hpiece e (List.mem_cons_of_mem _ he)⟩)

/-- A part fits a piece at the start of a text, and the others fit what is left. -/
theorem fits_cons (part : Part) (parts : List Part) (s : List Char) :
    fits (part :: parts) s = true
      ↔ ∃ piece rest, s = piece ++ rest ∧ part.Covers piece ∧ fits parts rest = true := by
  rcases part with ⟨atom, _ | _⟩
  · constructor
    · intro h
      cases s with
      | nil => exact absurd h Bool.false_ne_true
      | cons d s =>
        rw [fits, if_neg Bool.false_ne_true, Bool.and_eq_true] at h
        refine ⟨[d], s, rfl, ⟨fun e he => ?_, fun _ => rfl⟩, h.2⟩
        rw [List.mem_singleton.mp he]
        exact h.1
    · rintro ⟨piece, rest, rfl, hcovers, hrest⟩
      rcases List.length_eq_one_iff.mp (hcovers.single rfl) with ⟨d, rfl⟩
      exact Bool.and_eq_true_iff.mpr ⟨hcovers.fits d List.mem_cons_self, hrest⟩
  · -- A run may take any number of letters, so every rest is tried.
    have hrun : fits (⟨atom, true⟩ :: parts) s = (atom.rests s).any fun rest => fits parts rest := by
      cases s <;> rfl
    rw [hrun, List.any_eq_true]
    constructor
    · rintro ⟨rest, hmem, hrest⟩
      rcases Atom.mem_rests.mp hmem with ⟨piece, rfl, hpiece⟩
      exact ⟨piece, rest, rfl, ⟨hpiece, fun h => absurd h.symm Bool.false_ne_true⟩, hrest⟩
    · rintro ⟨piece, rest, rfl, hcovers, hrest⟩
      exact ⟨rest, Atom.mem_rests.mpr ⟨piece, rfl, hcovers.fits⟩, hrest⟩

/-- An expression fits a text that can be cut into pieces, one for each part. -/
theorem fits_iff (parts : List Part) (s : List Char) :
    fits parts s = true ↔ ∃ pieces, List.Forall₂ Part.Covers parts pieces ∧ pieces.flatten = s := by
  induction parts generalizing s with
  | nil =>
    rw [fits, List.isEmpty_iff]
    constructor
    · rintro rfl
      exact ⟨[], .nil, rfl⟩
    · rintro ⟨_, hall, rfl⟩
      cases hall
      rfl
  | cons part parts ih =>
    rw [fits_cons]
    constructor
    · rintro ⟨piece, rest, rfl, hcovers, hrest⟩
      rcases (ih rest).mp hrest with ⟨pieces, hall, rfl⟩
      exact ⟨piece :: pieces, .cons hcovers hall, rfl⟩
    · rintro ⟨_, hall, rfl⟩
      cases hall with
      | @cons _ piece _ pieces hcovers hall =>
        exact ⟨piece, pieces.flatten, rfl, hcovers, (ih _).mpr ⟨pieces, hall, rfl⟩⟩

/-- What a backslash is written before is no letter and no digit. -/
theorem not_isAlphanum_of_isEscaped {c : Char} (h : isEscaped c = true) : c.isAlphanum = false := by
  have hall : ['\\', '.', '*', '+', '?', '^', '$', '|', '(', ')', '[', ']', '{', '}', '-', '&',
      '~', '#', ' ', '\t', '\n', '\r', '\x0b', '\x0c'].all (fun a => !a.isAlphanum) = true := by
    decide
  rw [isEscaped, isOperator, Bool.or_eq_true, List.contains_iff_mem, List.contains_iff_mem] at h
  simpa using List.all_eq_true.mp hall c (List.mem_append.mpr h)

/-- An escaped character is read as itself, and what follows on its own. -/
theorem tokens?_escape (c : Char) (s : List Char) :
    tokens? false (escape c ++ s) = (tokens? false s).map (.letter c :: ·) := by
  rw [escape]
  -- A letter that means something in a pattern is written after a backslash, others are bare.
  by_cases hescaped : isEscaped c = true
  · have hplain : ¬c.isAlphanum = true := by
      rw [not_isAlphanum_of_isEscaped hescaped]
      exact Bool.false_ne_true
    rw [if_pos hescaped, List.cons_append, List.singleton_append, tokens?, if_pos rfl, tokens?,
      if_neg hplain]
  · have hbare : isOperator c = false := by
      rw [isEscaped, Bool.or_eq_true, not_or] at hescaped
      exact Bool.eq_false_iff.mpr hescaped.1
    have hslash : c ≠ '\\' := by
      rintro rfl
      exact absurd hbare (by decide)
    rw [if_neg hescaped, List.singleton_append, tokens?, if_neg hslash, bareToken, hbare]
    rfl

end Regex

/-- A piece of a text that a character of a pattern stands for: any text for a percent
    sign, any one character for an underscore, and for another character this one, in
    any case. -/
inductive PatternPiece : Char → List Char → Prop where
  | run (piece : List Char) : PatternPiece '%' piece
  | one (d : Char) : PatternPiece '_' [d]
  | letter {c d : Char} (hrun : c ≠ '%') (hone : c ≠ '_') (same : Text.sameLetter c d = true) :
      PatternPiece c [d]

/-- The part that is written for a character of a pattern. -/
def piecePart (c : Char) : Regex.Part :=
  if c = '%' then ⟨.any, true⟩ else if c = '_' then ⟨.any, false⟩ else ⟨.letter c, false⟩

/-- The tokens that are written for a character of a pattern. -/
def pieceTokens (c : Char) : List Regex.Token :=
  if c = '%' then [.operator '.', .operator '*'] else if c = '_' then [.operator '.']
  else [.letter c]

open Regex

theorem tokens?_pieceRegex (c : Char) (s : List Char) :
    tokens? false (pieceRegex c ++ s) = (tokens? false s).map (pieceTokens c ++ ·) := by
  rw [pieceRegex, pieceTokens]
  split
  · rw [List.cons_append, List.singleton_append, tokens?, if_neg (by decide), tokens?,
      if_neg (by decide), Option.map_map]
    rfl
  · split
    · rw [List.singleton_append, tokens?, if_neg (by decide)]
      rfl
    · exact tokens?_escape c s

theorem tokens?_patternRegex (p : List Char) :
    tokens? false (patternRegex p) = some (p.flatMap pieceTokens) := by
  rw [patternRegex]
  induction p with
  | nil => rfl
  | cons c p ih => rw [List.flatMap_cons, tokens?_pieceRegex, ih, List.flatMap_cons, Option.map_some]

/-- No character of a pattern is written with a star in front. -/
theorem head?_pieceTokens_ne_star (p : List Char) :
    (p.flatMap pieceTokens).head? ≠ some (.operator '*') := by
  cases p with
  | nil => simp
  | cons c p =>
    rw [List.flatMap_cons, pieceTokens]
    split
    · simp
    · split <;> simp

/-- A token without a star after it is a part by itself. -/
theorem Regex.parts?_cons {t : Token} {atom : Atom} {ts : List Token} (ht : atom? t = some atom)
    (hts : ts.head? ≠ some (.operator '*')) :
    parts? (t :: ts) = (parts? ts).map (⟨atom, false⟩ :: ·) := by
  cases ts with
  | nil => simp only [parts?, ht, Option.map_some]
  | cons u ts =>
    have hu : u ≠ .operator '*' := fun heq => hts (by rw [heq]; rfl)
    rw [parts?, ht, Option.bind_eq_bind, Option.bind_some, if_neg hu]

theorem parts?_pieceTokens (p : List Char) :
    parts? (p.flatMap pieceTokens) = some (p.map piecePart) := by
  induction p with
  | nil => rfl
  | cons c p ih =>
    have hnext := head?_pieceTokens_ne_star p
    rw [List.flatMap_cons, pieceTokens, List.map_cons, piecePart]
    split
    · rw [List.cons_append, List.singleton_append, parts?, ih]
      rfl
    · split
      · rw [List.singleton_append, parts?_cons rfl hnext, ih]
        rfl
      · rw [List.singleton_append, parts?_cons rfl hnext, ih]
        rfl

/-- The regular expression of a pattern has one part for each of its characters. -/
theorem ofText?_patternRegex (p : List Char) :
    ofText? (patternRegex p) = some (p.map piecePart) := by
  rw [ofText?, tokens?_patternRegex, Option.bind_some, parts?_pieceTokens]

theorem covers_piecePart_iff (c : Char) (piece : List Char) :
    (piecePart c).Covers piece ↔ PatternPiece c piece := by
  constructor
  · rintro ⟨hfits, hsingle⟩
    rw [piecePart] at hfits hsingle
    split at hfits
    · rename_i hrun
      rw [hrun]
      exact .run piece
    · rename_i hrun
      rw [if_neg hrun] at hsingle
      split at hfits
      · rename_i hone
        rw [if_pos hone] at hsingle
        rcases List.length_eq_one_iff.mp (hsingle rfl) with ⟨d, rfl⟩
        rw [hone]
        exact .one d
      · rename_i hone
        rw [if_neg hone] at hsingle
        rcases List.length_eq_one_iff.mp (hsingle rfl) with ⟨d, rfl⟩
        exact .letter hrun hone (hfits d List.mem_cons_self)
  · intro h
    cases h with
    | run => exact ⟨fun _ _ => rfl, fun h => absurd h.symm Bool.false_ne_true⟩
    | one d => exact ⟨fun _ _ => rfl, fun _ => rfl⟩
    | @letter _ d hrun hone same =>
      rw [piecePart, if_neg hrun, if_neg hone]
      refine ⟨fun e he => ?_, fun _ => rfl⟩
      rw [List.mem_singleton.mp he]
      exact same

/-- A pattern is always matched against a text, and it matches if the text can be cut
    into pieces that the characters of the pattern stand for, in their order. -/
theorem Value.like_iff_cut (s p : String) :
    ∃ matched, (Value.text s).like (.text p) = .ok matched
      ∧ (matched = true
        ↔ ∃ pieces, List.Forall₂ PatternPiece p.toList pieces ∧ pieces.flatten = s.toList) := by
  refine ⟨matchesPattern p.toList s.toList, rfl, ?_⟩
  rw [matchesPattern, ofText?_patternRegex, Option.any_some, fits_iff]
  refine exists_congr fun pieces => and_congr_left' ?_
  rw [List.forall₂_map_left_iff]
  exact ⟨fun h => h.imp fun c piece => (covers_piecePart_iff c piece).mp,
    fun h => h.imp fun c piece => (covers_piecePart_iff c piece).mpr⟩

/-- Operators of the notation stand for themselves, and runs go on past line breaks. -/
example : matchesPattern "A.*_%c".toList "a.*\n\nC".toList = true
    ∧ matchesPattern "a.*".toList "abc".toList = false := by
  decide

end TableStore
