import TableStore.Statement.Manipulation

/-!
# How Recognizers Pass Over Text

A statement is cut up by functions that look at one place of the text after
the other: for the end of a clause, for a comma, for the word AND, for a word
that is refused. What all of them have in common is that they pass over a run
of cells in which nothing can be found, and carry the whole run along. The
theorems here say so for one recognizer each, whatever follows the run.

A run may be a literal, of which nothing is ever found, or a word, of which
only the beginning could be. A clause ends at one of a few words between
blanks, so a run in which these words do not stand between blanks is passed
over by every step that looks for the end of a clause: `FreeOf` is said of the
run and `StopsAt` of the step.

## Main definitions

* `prependTo`: A run put before the first of several pieces.
* `Text.atBlank`: Whether a run of words ends here.
* `Cell.separates`: Whether a cell separates the items of a list.
* `StopsAt`: A step that is taken at a few words only.
* `FreeOf`: A run in which these words do not stand between blanks.

## Theorems

* `shortestPrefix?_found`, `shortestPrefix?_passed`: A run in which no clause
  can end.
* `FreeOf.shortestPrefix?`: A clause ends where the rest can be read.
* `piecesWithin_run`: A run without separators.
* `splitAtAnd_cons`, `splitAtAnd_freeOf`: The word AND, and a run without it.
* `containsWord_pass`: A cell at which a word does not start.
* `Text.splitRuns_run`: A run without blanks is one word or part of one.
* `suffix_spacedPhrase?`: What is left after a phrase.
-/

namespace TableStore

/-- A run put before the first of several pieces. -/
def prependTo {α : Type} (u : List α) : List (List α) → List (List α)
  | [] => [u]
  | w :: ws => (u ++ w) :: ws

theorem prependTo_cons {α : Type} (a : α) (u : List α) (ws : List (List α)) :
    prependTo (a :: u) ws = Text.consWord a (prependTo u ws) := by
  cases ws <;> rfl

theorem prependTo_singleton {α : Type} (a : α) (ws : List (List α)) :
    prependTo [a] ws = Text.consWord a ws := by
  cases ws <;> rfl

namespace Text

variable {α β : Type} {blank : α → Bool}

/-- Whether a run of words ends here. -/
def atBlank (blank : α → Bool) : List α → Bool
  | [] => true
  | a :: _ => blank a

theorem splitRuns_blank {a : α} (ha : blank a = true) (s : List α) :
    splitRuns blank (a :: s) = splitRuns blank s := by
  cases s with
  | nil => simp [splitRuns, ha]
  | cons b s => rw [splitRuns, if_pos ha]

theorem splitRuns_cons {a : α} (ha : blank a = false) (s : List α) :
    splitRuns blank (a :: s)
      = if atBlank blank s then [a] :: splitRuns blank s else consWord a (splitRuns blank s) := by
  cases s with
  | nil => simp [splitRuns, atBlank, ha]
  | cons b s =>
    rw [splitRuns, ha, atBlank]
    by_cases hb : blank b = true
    · simp [hb, splitRuns_blank hb]
    · simp [hb]

/-- A run without blanks is a word of its own if a blank or the end follows,
    and the beginning of a longer word if not. -/
theorem splitRuns_run {u s : List α} (hne : u ≠ []) (hu : ∀ a ∈ u, blank a = false) :
    splitRuns blank (u ++ s)
      = if atBlank blank s then u :: splitRuns blank s else prependTo u (splitRuns blank s) := by
  induction u with
  | nil => exact absurd rfl hne
  | cons a u ih =>
    rw [List.cons_append, splitRuns_cons (hu a List.mem_cons_self)]
    -- Whether the run ends its word is settled at its last cell.
    by_cases hnil : u = []
    · subst hnil
      rw [List.nil_append, prependTo_singleton]
    · have hmid : atBlank blank (u ++ s) = false := by
        rcases u with _ | ⟨b, u⟩
        · exact absurd rfl hnil
        · exact hu b (by simp)
      rw [hmid, ih hnil fun b hb => hu b (List.mem_cons_of_mem a hb), prependTo_cons]
      by_cases hs : atBlank blank s = true
      · simp [hs, consWord]
      · simp [hs]

/-- Words are found the same whether the text is changed before or after. -/
theorem splitRuns_map {blank : β → Bool} (f : α → β) (s : List α) :
    splitRuns blank (s.map f) = (splitRuns (fun a => blank (f a)) s).map (List.map f) := by
  induction s with
  | nil => rfl
  | cons a s ih =>
    have hat : atBlank blank (s.map f) = atBlank (fun a => blank (f a)) s := by
      cases s <;> rfl
    by_cases ha : blank (f a) = true
    · rw [List.map_cons, splitRuns_blank ha, @splitRuns_blank _ (fun a => blank (f a)) _ ha, ih]
    · rw [Bool.not_eq_true] at ha
      rw [List.map_cons, splitRuns_cons ha, @splitRuns_cons _ (fun a => blank (f a)) _ ha, ih, hat]
      split
      · rfl
      · cases splitRuns (fun a => blank (f a)) s <;> rfl

/-- A list that neither starts nor ends with a blank. -/
def Trimmed (blank : α → Bool) (s : List α) : Prop :=
  atBlank blank s = false ∧ atBlank blank s.reverse = false

theorem dropWhile_of_not_blank {s : List α} (hs : atBlank blank s = false) :
    s.dropWhile blank = s := by
  cases s with
  | nil => exact absurd hs (by simp [atBlank])
  | cons a s => exact List.dropWhile_cons_of_neg (by simpa [atBlank] using hs)

theorem atBlank_append {u : List α} (hu : atBlank blank u = false) (s : List α) :
    atBlank blank (u ++ s) = false := by
  cases u with
  | nil => exact absurd hu (by simp [atBlank])
  | cons a u => exact hu

theorem atBlank_of_forall {s : List α} (hne : s ≠ []) (hs : ∀ a ∈ s, blank a = false) :
    atBlank blank s = false := by
  cases s with
  | nil => exact absurd rfl hne
  | cons a s => exact hs a List.mem_cons_self

theorem trimmed_of_forall {s : List α} (hne : s ≠ []) (hs : ∀ a ∈ s, blank a = false) :
    Trimmed blank s :=
  ⟨atBlank_of_forall hne hs,
    atBlank_of_forall (by simpa using hne) fun a ha => hs a (List.mem_reverse.mp ha)⟩

/-- What two such lists enclose does not matter. -/
theorem Trimmed.append {u v : List α} (hu : Trimmed blank u) (w : List α)
    (hv : Trimmed blank v) : Trimmed blank (u ++ (w ++ v)) := by
  refine ⟨atBlank_append hu.1 _, ?_⟩
  rw [List.reverse_append, List.reverse_append, List.append_assoc]
  exact atBlank_append hv.2 _

theorem Trimmed.trimBy {s : List α} (hs : Trimmed blank s) : trimBy blank s = s := by
  unfold Text.trimBy trimStart trimEnd
  rw [dropWhile_of_not_blank hs.1, dropWhile_of_not_blank hs.2, List.reverse_reverse]

end Text

section ShortestPrefix

variable {α : Type} {f : List Cell → Option α} {s : List Cell}

/-- A clause ends with a run if nothing can be read inside the run and the
    rest can be read after it. -/
theorem shortestPrefix?_found {c : Cell} {u : List Cell} {a : α}
    (hu : ∀ v, v <:+ u → v ≠ [] → f (v ++ s) = none) (hs : f s = some a) :
    shortestPrefix? f (c :: (u ++ s)) = some (c :: u, a) := by
  induction u generalizing c with
  | nil => rw [List.nil_append, shortestPrefix?, hs]
  | cons d u ih =>
    have hhere : f (d :: (u ++ s)) = none := hu (d :: u) (List.suffix_refl _) (by simp)
    have hlater := ih (c := d) fun v hv => hu v (hv.trans (List.suffix_cons d u))
    rw [List.cons_append, shortestPrefix?, hhere, hlater]
    rfl

/-- A clause goes on beyond a run if nothing can be read inside the run nor
    after it. -/
theorem shortestPrefix?_passed {c : Cell} {u : List Cell}
    (hu : ∀ v, v <:+ u → v ≠ [] → f (v ++ s) = none) (hs : f s = none) :
    shortestPrefix? f (c :: (u ++ s))
      = (shortestPrefix? f s).map fun p => (c :: (u ++ p.1), p.2) := by
  induction u generalizing c with
  | nil =>
    rw [List.nil_append, shortestPrefix?, hs]
    rfl
  | cons d u ih =>
    have hhere : f (d :: (u ++ s)) = none := hu (d :: u) (List.suffix_refl _) (by simp)
    have hlater := ih (c := d) fun v hv => hu v (hv.trans (List.suffix_cons d u))
    rw [List.cons_append, shortestPrefix?, hhere, hlater]
    simp only [Option.map_map]
    rfl

end ShortestPrefix

/-- Whether a cell separates the items of a list or encloses a list. -/
def Cell.separates (c : Cell) : Bool :=
  c.shows '(' || c.shows ')' || c.shows ','

theorem piecesWithin_cons {c : Cell} {depth : Nat} {s : List Cell} (hc : c.separates = false) :
    piecesWithin depth (c :: s) = (piecesWithin depth s).map (Text.consWord c) := by
  unfold Cell.separates at hc
  simp only [Bool.or_eq_false_iff] at hc
  cases depth <;> simp [piecesWithin, hc.1.1, hc.1.2, hc.2]

/-- A run without separators belongs to one piece. -/
theorem piecesWithin_run {depth : Nat} {u s : List Cell} (hne : u ≠ [])
    (hu : ∀ c ∈ u, c.separates = false) :
    piecesWithin depth (u ++ s) = (piecesWithin depth s).map (prependTo u) := by
  induction u with
  | nil => exact absurd rfl hne
  | cons c u ih =>
    rw [List.cons_append, piecesWithin_cons (hu c List.mem_cons_self)]
    by_cases hnil : u = []
    · subst hnil
      exact congrArg (fun f => Option.map f (piecesWithin depth s))
        (funext fun ws => (prependTo_singleton c ws).symm)
    · rw [ih hnil fun d hd => hu d (List.mem_cons_of_mem c hd), Option.map_map]
      exact congrArg (fun f => Option.map f (piecesWithin depth s))
        (funext fun ws => (prependTo_cons c u ws).symm)

theorem untilClosing?_run {u s : List Cell} (hu : ∀ c ∈ u, c.shows ')' = false) :
    untilClosing? (u ++ s) = (untilClosing? s).map fun p => (u ++ p.1, p.2) := by
  induction u with
  | nil => simp
  | cons c u ih =>
    rw [List.cons_append, untilClosing?, hu c List.mem_cons_self,
      ih fun d hd => hu d (List.mem_cons_of_mem c hd)]
    simp only [Bool.false_eq_true, if_false, Option.map_map]
    rfl

theorem nameList_run {u s : List Cell} (hne : u ≠ []) (hu : ∀ c ∈ u, c.shows ',' = false) :
    nameList (u ++ s) = prependTo u (nameList s) := by
  induction u with
  | nil => exact absurd rfl hne
  | cons c u ih =>
    rw [List.cons_append, nameList, hu c List.mem_cons_self]
    by_cases hnil : u = []
    · subst hnil
      exact (prependTo_singleton c _).symm
    · rw [ih hnil fun d hd => hu d (List.mem_cons_of_mem c hd)]
      exact (prependTo_cons c u _).symm

section Suffix

theorem suffix_blanks? {s rest : List Cell} (h : blanks? s = some rest) :
    rest <:+ s ∧ rest.length < s.length := by
  cases s with
  | nil => exact absurd h (by simp [blanks?])
  | cons c s =>
    rw [blanks?] at h
    split at h
    · have hsuffix : skipBlanks s <:+ s := List.dropWhile_suffix _
      rw [← Option.some.inj h]
      exact ⟨hsuffix.trans (List.suffix_cons c s), Nat.lt_succ_of_le hsuffix.length_le⟩
    · exact absurd h (by simp)

theorem suffix_letters? {w : List Char} {s rest : List Cell} (h : letters? w s = some rest) :
    rest <:+ s := by
  induction w generalizing s with
  | nil =>
    rw [letters?, Option.some.injEq] at h
    exact h ▸ List.suffix_refl s
  | cons a w ih =>
    cases s with
    | nil => exact absurd h (by simp [letters?])
    | cons c s =>
      rw [letters?] at h
      split at h
      · exact (ih h).trans (List.suffix_cons c s)
      · exact absurd h (by simp)

theorem suffix_phrase? {words : List String} {s rest : List Cell}
    (h : phrase? words s = some rest) : rest <:+ s := by
  fun_induction phrase? words s with
  | case1 s =>
    exact Option.some.inj h ▸ List.suffix_refl s
  | case2 w s => exact suffix_letters? h
  | case3 w v words s ih =>
    simp only [Option.bind_eq_bind, Option.bind_eq_some_iff] at h
    rcases h with ⟨after, hafter, blanks, hblanks, h⟩
    exact (ih _ h).trans ((suffix_blanks? hblanks).1.trans (suffix_letters? hafter))

/-- What is left after a phrase is shorter, for blanks are around the phrase. -/
theorem suffix_spacedPhrase? {words : List String} {s rest : List Cell}
    (h : spacedPhrase? words s = some rest) : rest <:+ s ∧ rest.length < s.length := by
  unfold spacedPhrase? at h
  simp only [Option.bind_eq_bind, Option.bind_eq_some_iff] at h
  rcases h with ⟨before, hbefore, after, hafter, h⟩
  have hphrase := suffix_phrase? hafter
  have hfirst := suffix_blanks? hbefore
  have hlast := suffix_blanks? h
  refine ⟨hlast.1.trans (hphrase.trans hfirst.1), ?_⟩
  have hle := hphrase.length_le
  omega

/-- No phrase with blanks around it starts at a cell that is no blank. -/
theorem spacedPhrase?_of_not_blank {words : List String} {c : Cell} {s : List Cell}
    (hc : c.isBlank = false) : spacedPhrase? words (c :: s) = none := by
  simp [spacedPhrase?, blanks?, hc]

end Suffix

section Stops

/-- Text that goes on with something other than a blank, and not with one of
    the words `stops` and a blank. -/
def GoesOn (stops : List String) (s : List Cell) : Prop :=
  Text.atBlank Cell.isBlank s = false ∧ ∀ k ∈ stops, (keyword? k s).bind blanks? = none

/-- A step that is taken only at the end of the text, or at a blank that the
    end or one of the words `stops` follows. -/
def StopsAt {α : Type} (stops : List String) (f : List Cell → Option α) : Prop :=
  ∀ c s, (c.isBlank = true → GoesOn stops s) → f (c :: s) = none

/-- A run in which none of the words `stops` stands between blanks, whatever
    part of it is taken for its beginning. The text `rest` follows. -/
def FreeOf (stops : List String) (rest : List Cell) : List Cell → Prop
  | [] => True
  | c :: u => (c.isBlank = true → GoesOn stops (u ++ rest)) ∧ FreeOf stops rest u

variable {stops : List String} {rest : List Cell}

theorem skipBlanks_of_text {s : List Cell} (hs : Text.atBlank Cell.isBlank s = false) :
    skipBlanks s = s :=
  Text.dropWhile_of_not_blank hs

theorem blanks?_of_text {c : Cell} {s : List Cell} (hc : c.isBlank = true)
    (hs : Text.atBlank Cell.isBlank s = false) : blanks? (c :: s) = some s := by
  rw [blanks?, if_pos hc, skipBlanks_of_text hs]

/-- A phrase with blanks around it is found at one of its first words only. -/
theorem stopsAt_spacedPhrase? {k : String} {words : List String} (hk : k ∈ stops) :
    StopsAt stops (spacedPhrase? (k :: words)) := by
  intro c s hc
  by_cases hblank : c.isBlank = true
  · have hgoes := hc hblank
    have hword := hgoes.2 k hk
    unfold spacedPhrase?
    rw [blanks?_of_text hblank hgoes.1]
    cases words with
    | nil => exact hword
    | cons w words =>
      change (((keyword? k s).bind fun s => (blanks? s).bind (phrase? (w :: words))).bind blanks?)
        = none
      rw [← Option.bind_assoc, hword]
      rfl
  · exact spacedPhrase?_of_not_blank (by simpa using hblank)

theorem stopsAt_atEnd? : StopsAt stops atEnd? := by
  intro c s hc
  unfold atEnd? skipBlanks
  by_cases hblank : c.isBlank = true
  · have hrest := skipBlanks_of_text (hc hblank).1
    unfold skipBlanks at hrest
    rw [List.dropWhile_cons_of_pos hblank, hrest]
    cases s with
    | nil => exact absurd (hc hblank).1 (by decide)
    | cons d s => rfl
  · rw [List.dropWhile_cons_of_neg hblank]
    rfl

theorem freeOf_append {u v : List Cell} :
    FreeOf stops rest (u ++ v) ↔ FreeOf stops (v ++ rest) u ∧ FreeOf stops rest v := by
  induction u with
  | nil => simp [FreeOf]
  | cons c u ih => rw [List.cons_append, FreeOf, ih, FreeOf, List.append_assoc, and_assoc]

/-- A run without blanks has no words in it. -/
theorem freeOf_of_not_blank {u : List Cell} (hu : ∀ c ∈ u, c.isBlank = false) :
    FreeOf stops rest u := by
  induction u with
  | nil => trivial
  | cons c u ih =>
    refine ⟨fun hblank => ?_, ih fun d hd => hu d (List.mem_cons_of_mem c hd)⟩
    rw [hu c List.mem_cons_self] at hblank
    exact absurd hblank Bool.false_ne_true

/-- No step that stops at these words is taken in such a run. -/
theorem FreeOf.eq_none {α : Type} {f : List Cell → Option α} {u : List Cell}
    (hu : FreeOf stops rest u) (hf : StopsAt stops f) :
    ∀ v, v <:+ u → v ≠ [] → f (v ++ rest) = none := by
  rintro v ⟨w, rfl⟩ hne
  have hv := (freeOf_append.mp hu).2
  cases v with
  | nil => exact absurd rfl hne
  | cons c v => exact hf c (v ++ rest) hv.1

/-- A clause without these words ends where the rest can be read. -/
theorem FreeOf.shortestPrefix? {α : Type} {f : List Cell → Option α} {u : List Cell} {a : α}
    (hu : FreeOf stops rest u) (hne : u ≠ []) (hf : StopsAt stops f) (hrest : f rest = some a) :
    TableStore.shortestPrefix? f (u ++ rest) = some (u, a) := by
  cases u with
  | nil => exact absurd rfl hne
  | cons c u => exact shortestPrefix?_found (hu.2.eq_none hf) hrest

/-- Nothing is found in a run without these words that ends the text. -/
theorem FreeOf.shortestPrefix?_none {α : Type} {f : List Cell → Option α} {u : List Cell}
    (hu : FreeOf stops [] u) (hf : StopsAt stops f) (hnil : f [] = none) :
    TableStore.shortestPrefix? f u = none := by
  cases u with
  | nil => rfl
  | cons c u =>
    have hpassed := shortestPrefix?_passed (c := c) (hu.2.eq_none hf) hnil
    rwa [List.append_nil] at hpassed

end Stops

section Clauses

-- The words at which the clauses of a statement begin, for each step that looks for one.

theorem StopsAt.mono {α : Type} {stops stops' : List String} {f : List Cell → Option α}
    (hf : StopsAt stops f) (hsub : ∀ k ∈ stops, k ∈ stops') : StopsAt stops' f := by
  intro c s hc
  exact hf c s fun hblank => ⟨(hc hblank).1, fun k hk => (hc hblank).2 k (hsub k hk)⟩

theorem stopsAt_counts? : StopsAt ["LIMIT", "OFFSET"] counts? := by
  intro c s hc
  have hlimit : spacedPhrase? ["LIMIT"] (c :: s) = none :=
    stopsAt_spacedPhrase? (by decide) c s hc
  have hoffset : spacedPhrase? ["OFFSET"] (c :: s) = none :=
    stopsAt_spacedPhrase? (by decide) c s hc
  unfold counts? count?
  simp only [hlimit, hoffset, Option.bind_none, stopsAt_atEnd? c s hc, Option.bind_eq_bind]

theorem stopsAt_orderAndCounts? : StopsAt ["ORDER", "LIMIT", "OFFSET"] orderAndCounts? := by
  intro c s hc
  have horder : spacedPhrase? ["ORDER", "BY"] (c :: s) = none :=
    stopsAt_spacedPhrase? (by decide) c s hc
  have hcounts : counts? (c :: s) = none := stopsAt_counts?.mono (by decide) c s hc
  unfold orderAndCounts?
  rw [horder, hcounts]
  rfl

theorem stopsAt_fromTable? : StopsAt ["FROM"] fromTable? := by
  intro c s hc
  have hfrom : spacedPhrase? ["FROM"] (c :: s) = none := stopsAt_spacedPhrase? (by decide) c s hc
  unfold fromTable?
  rw [hfrom]
  rfl

theorem stopsAt_whereClause? : StopsAt ["WHERE"] whereClause? := by
  intro c s hc
  have hwhere : spacedPhrase? ["WHERE"] (c :: s) = none :=
    stopsAt_spacedPhrase? (by decide) c s hc
  unfold whereClause?
  rw [hwhere]
  rfl

end Clauses

section Numbers

/-- A number is digits after a sign that may be left out, and perhaps places. -/
theorem isNumber_eq (s : List Cell) :
    isNumber s = (digits? (((arithmetic? s).map Prod.snd).getD s)).any
      fun p => (skipPlaces p.2).isEmpty := by
  unfold isNumber
  cases arithmetic? s with
  | none =>
    dsimp only [Option.map_none, Option.getD_none]
    cases digits? s <;> rfl
  | some sign =>
    dsimp only [Option.map_some, Option.getD_some]
    cases digits? sign.2 <;> rfl

end Numbers

section AndWords

-- The three equations by which the pieces are found; each holds by definition.

theorem splitAtAnd_nil (n : Nat) : splitAtAnd n [] = [[]] := by
  cases n <;> rfl

theorem splitAtAnd_succ (n : Nat) (c : Cell) (s : List Cell) :
    splitAtAnd (n + 1) (c :: s) = splitAtAnd n s := by
  rfl

theorem splitAtAnd_zero (c : Cell) (s : List Cell) :
    splitAtAnd 0 (c :: s)
      = match andLength? (c :: s) with
        | some n => [] :: splitAtAnd (n - 1) s
        | none => Text.consWord c (splitAtAnd 0 s) := by
  rfl

theorem splitAtAnd_skip (n : Nat) (s : List Cell) :
    splitAtAnd n s = splitAtAnd 0 (s.drop n) := by
  induction n generalizing s with
  | zero => rfl
  | succ n ih =>
    cases s with
    | nil => rw [splitAtAnd_nil, List.drop_nil, splitAtAnd_nil]
    | cons c s => rw [splitAtAnd_succ, ih, List.drop_succ_cons]

/-- A piece ends where the word AND stands between blanks, and the next one
    starts after it. -/
theorem splitAtAnd_cons (c : Cell) (s : List Cell) :
    splitAtAnd 0 (c :: s)
      = match spacedPhrase? ["AND"] (c :: s) with
        | some rest => [] :: splitAtAnd 0 rest
        | none => Text.consWord c (splitAtAnd 0 s) := by
  rw [splitAtAnd_zero, andLength?]
  generalize hand : spacedPhrase? ["AND"] (c :: s) = found
  cases found with
  | none => rfl
  | some rest =>
    -- The rest is what the length of the word leaves of the text.
    rcases suffix_spacedPhrase? hand with ⟨⟨u, hu⟩, hlt⟩
    have hlength : (c :: s).length - rest.length = u.length := by
      rw [← hu, List.length_append]
      omega
    have hpos : u ≠ [] := by
      rintro rfl
      rw [List.nil_append] at hu
      rw [hu] at hlt
      exact absurd hlt (Nat.lt_irrefl _)
    rcases u with _ | ⟨d, u⟩
    · exact absurd rfl hpos
    · have hs : s = u ++ rest := (List.cons.inj hu).2.symm
      simp only [Option.map_some]
      rw [hlength, splitAtAnd_skip, hs, List.length_cons, Nat.add_sub_cancel, List.drop_left]

/-- A run in which the word AND does not stand between blanks belongs to one
    piece. -/
theorem splitAtAnd_freeOf {u s : List Cell} (hne : u ≠ []) (hu : FreeOf ["AND"] s u) :
    splitAtAnd 0 (u ++ s) = prependTo u (splitAtAnd 0 s) := by
  induction u with
  | nil => exact absurd rfl hne
  | cons c u ih =>
    have hhere : spacedPhrase? ["AND"] (c :: (u ++ s)) = none :=
      stopsAt_spacedPhrase? (by decide) c (u ++ s) hu.1
    rw [List.cons_append, splitAtAnd_cons, hhere]
    by_cases hnil : u = []
    · subst hnil
      exact (prependTo_singleton c _).symm
    · rw [ih hnil hu.2]
      exact (prependTo_cons c u _).symm

end AndWords

/-- A cell at which a word does not start is passed over. -/
theorem containsWord_pass {w : String} {excuse : List Cell → Bool} {inWord : Bool} {c : Cell}
    {s : List Cell} (hc : keyword? w (c :: s) = none) :
    containsWord w excuse inWord (c :: s) = containsWord w excuse c.isWordChar s := by
  rw [containsWord, hc]
  rfl

end TableStore
