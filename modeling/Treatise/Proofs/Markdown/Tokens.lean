import Treatise.Proofs.Markdown.Leaves
import Treatise.Proofs.Markdown.Markup

/-!
# Tokens before the end of the last line

The end of the last line of a passage is no token: with it, the tokens are the same, and each of them
knows of the line end behind it.

* `Cursor.ReadFrom` — the place is where it says it is;
* `firstPiece_append` — a token does not depend on the line end behind the text;
* **`tokens_append`** — the tokens of a passage with the end of its last line.
-/

namespace Treatise.Markdown

/-! ## Places in a line -/

namespace Cursor

/-- What is left to read is the line without the characters that were read. -/
def ReadFrom (line : List Char) (c : Cursor) : Prop :=
  c.rest = line.drop c.size ∧ c.size ≤ line.length

namespace ReadFrom

variable {line : List Char} {c : Cursor}

theorem ofLine (line : List Char) : ReadFrom line (ofLine line) := ⟨rfl, Nat.zero_le _⟩

theorem length_rest (h : ReadFrom line c) : c.rest.length = line.length - c.size := by
  rw [h.1, List.length_drop]

theorem suffix (h : ReadFrom line c) : c.rest <:+ line := by
  rw [h.1]
  exact List.drop_suffix _ _

/-- Some more characters are read. -/
theorem drop (h : ReadFrom line c) {n : Nat} (hn : n ≤ c.rest.length) {d : Cursor}
    (hrest : d.rest = c.rest.drop n) (hsize : d.size = c.size + n) : ReadFrom line d := by
  have hlen := h.length_rest
  have hle := h.2
  exact ⟨by rw [hrest, hsize, h.1, List.drop_drop], by omega⟩

theorem cons (h : ReadFrom line c) {e : Char} {s : List Char} (hc : c.rest = e :: s) {d : Cursor}
    (hrest : d.rest = s) (hsize : d.size = c.size + 1) : ReadFrom line d :=
  h.drop (n := 1) (by rw [hc, List.length_cons]; omega) (by rw [hc, hrest]; rfl) hsize

theorem column? (h : ReadFrom line c) {d : Cursor} (hd : c.column? = some d) : ReadFrom line d := by
  unfold Cursor.column? at hd
  split at hd
  · obtain rfl := Option.some.inj hd
    exact h
  · split at hd
    next heq =>
      obtain rfl := Option.some.inj hd
      exact h.cons heq rfl rfl
    next heq =>
      obtain rfl := Option.some.inj hd
      exact h.cons heq rfl rfl
    · cases hd

theorem skip (n : Nat) (h : ReadFrom line c) : ReadFrom line (c.skip n).2 := by
  induction n generalizing c with
  | zero => exact h
  | succ n ih =>
    rw [skip_succ]
    split
    · exact h
    next heq => exact ih (h.column? heq)

theorem skipAll (h : ReadFrom line c) : ReadFrom line c.skipAll :=
  h.drop (List.takeWhile_prefix _).length_le (drop_length_takeWhile _ _).symm rfl

theorem skipChar? (h : ReadFrom line c) {e : Char} {d : Cursor} (hd : c.skipChar? e = some d) :
    ReadFrom line d := by
  unfold Cursor.skipChar? at hd
  split at hd
  · cases hd
  next heq =>
    split at hd
    · obtain rfl := Option.some.inj hd
      exact h.cons heq rfl rfl
    · cases hd

theorem continue? (h : ReadFrom line c) {k : Container} {d : Cursor} (hd : k.continue? c = some d) :
    ReadFrom line d := by
  cases k with
  | quote =>
    obtain ⟨e, he, rfl⟩ := Option.map_eq_some_iff.1 hd
    exact ((h.skip 3).skipChar? he).skip 1
  | list =>
    obtain rfl := Option.some.inj hd
    exact h
  | item indent =>
    simp only [Container.continue?] at hd
    split at hd
    · obtain rfl := Option.some.inj hd
      exact h.skip indent
    · cases hd

theorem follow (ks : List Container) (h : ReadFrom line c) :
    ReadFrom line (Container.follow ks c).2 := by
  induction ks generalizing c with
  | nil => exact h
  | cons k ks ih =>
    rw [Container.follow]
    split
    next heq => exact ih (h.continue? heq)
    next => exact h

theorem skipToText (h : ReadFrom line c) : ReadFrom line (c.skipToText line) := by
  unfold Cursor.skipToText
  dsimp only
  split
  · refine ⟨rfl, ?_⟩
    have hline : (lineText line).length ≤ line.length :=
      (List.takeWhile_prefix (!isLineEnd ·)).length_le
    dsimp only
    omega
  · exact h.skipAll

end ReadFrom

end Cursor

/-! ## One token -/

/-- The blanks at the end of a line. `s` is the text behind the first of them. -/
def blanksPiece (s : List Char) : Piece × Nat :=
  (if (s.takeWhile isInlineBlank).length + 1 < 2 then .softBreak else .hardBreak false,
    (s.takeWhile isInlineBlank).length + 1 + (splitLineEnd (dropBlanks s)).1.length)

theorem isBreak_blanksPiece (s : List Char) : (blanksPiece s).1.isBreak = true := by
  rw [blanksPiece]
  dsimp only
  split <;> rfl

/-- A backslash and what it escapes. `s` is the text behind it. -/
def escapePiece (s : List Char) : Piece × Nat :=
  match s with
  | [] => (.text ['\\'], 1)
  | d :: s =>
    if isLineEnd d then
      if (splitLineEnd (d :: s)).2.isEmpty then (.text ['\\'], 1)
      else (.hardBreak true, 1 + (splitLineEnd (d :: s)).1.length)
    else if d = '\x60' then
      (.ticks ((d :: s).takeWhile (· == '\x60')).length true,
        ((d :: s).takeWhile (· == '\x60')).length + 1)
    else if Text.isAsciiPunctuation d then (.text [d], 2)
    else (.text ['\\'], 1)

/-- A run of emphasis marks. -/
def runPiece (before : Option Char) (c : Char) (s : List Char) : Piece × Nat :=
  let size := ((c :: s).takeWhile (· == c)).length
  let next := (s.drop (size - 1)).head?
  if (canOpen c size before next ∨ canClose c size before next) ∧ (c = '~' → size ≤ 2) then
    (.run c size (canOpen c size before next) (canClose c size before next), size)
  else (.text (List.replicate size c), size)

/-- A character that is a token by itself, or with a bracket or a reference behind it. -/
def signPiece (before : Option Char) (groups : Groups) (c : Char) (s : List Char) : Piece × Nat :=
  if c = '$' then
    (.dollar ((s.head?.map (!isAnyBlank ·)).getD false) ((before.map (!isAnyBlank ·)).getD false)
      groups.current, 1)
  else if c = '<' then (.angle, 1)
  else if c = '[' then (.openBracket false, 1)
  else if c = ']' then (.closeBracket, 1)
  else if c = '!' ∧ s.head? = some '[' then (.openBracket true, 2)
  else if c = '&' then
    match readReference? s with
    | some (value, size) => (.reference value, size + 1)
    | none => (.text ['&'], 1)
  else (.text [c], 1)

theorem firstPiece_eq (before : Option Char) (groups : Groups) (c : Char) (s : List Char) :
    firstPiece false before groups c s =
      if isInlineBlank c ∧ atLineEnd (dropBlanks s) then blanksPiece s
      else if isLineEnd c then (.softBreak, (splitLineEnd (c :: s)).1.length)
      else if c = '\\' then escapePiece s
      else if c = '\x60' then
        (.ticks ((c :: s).takeWhile (· == '\x60')).length false,
          ((c :: s).takeWhile (· == '\x60')).length)
      else if c = '*' ∨ c = '_' ∨ c = '~' then runPiece before c s
      else signPiece before groups c s := by
  cases s <;> rfl

theorem length_splitLineEnd_le (s : List Char) : (splitLineEnd s).1.length ≤ s.length := by
  have := congrArg List.length (splitLineEnd_append s)
  rw [List.length_append] at this
  omega

/-- The number of a token's characters is at least one, and there are as many. -/
def Fits (s : List Char) (p : Piece × Nat) : Prop := 1 ≤ p.2 ∧ p.2 ≤ s.length + 1

theorem fits_blanksPiece (s : List Char) : Fits s (blanksPiece s) := by
  have hblanks := congrArg List.length (List.takeWhile_append_dropWhile (p := isInlineBlank) (l := s))
  have hstop := length_splitLineEnd_le (dropBlanks s)
  rw [List.length_append] at hblanks
  rw [dropBlanks] at hstop
  simp only [Fits, blanksPiece, dropBlanks]
  omega

theorem fits_escapePiece (s : List Char) : Fits s (escapePiece s) := by
  cases s with
  | nil => exact ⟨Nat.le_refl 1, Nat.le_refl 1⟩
  | cons d s =>
    have hstop := length_splitLineEnd_le (d :: s)
    have hticks : ((d :: s).takeWhile (· == '\x60')).length ≤ (d :: s).length :=
      (List.takeWhile_prefix _).length_le
    rw [List.length_cons] at hstop hticks
    simp only [Fits, escapePiece, List.length_cons]
    split
    · split <;> dsimp only <;> omega
    split
    · dsimp only; omega
    split <;> dsimp only <;> omega

theorem fits_takeWhile {p : Char → Bool} {c : Char} (hc : p c = true) (s : List Char) (a : Piece) :
    Fits s (a, ((c :: s).takeWhile p).length) :=
  ⟨by rw [List.takeWhile_cons_of_pos hc]; exact Nat.succ_pos _, (List.takeWhile_prefix p).length_le⟩

theorem fits_runPiece (before : Option Char) (c : Char) (s : List Char) :
    Fits s (runPiece before c s) := by
  simp only [runPiece]
  split <;> exact fits_takeWhile (by simp) s _

theorem fits_one (s : List Char) (a : Piece) : Fits s (a, 1) := ⟨Nat.le_refl 1, Nat.succ_pos _⟩

theorem fits_signPiece (before : Option Char) (groups : Groups) (c : Char) (s : List Char) :
    Fits s (signPiece before groups c s) := by
  rw [signPiece]
  split
  · exact fits_one s _
  split
  · exact fits_one s _
  split
  · exact fits_one s _
  split
  · exact fits_one s _
  split
  next himage =>
    cases s with
    | nil => cases himage.2
    | cons d s => exact ⟨Nat.le_succ 1, Nat.succ_le_succ (Nat.succ_pos _)⟩
  split
  · split
    next href => exact ⟨Nat.succ_pos _, Nat.succ_le_succ (size_of_readReference? href)⟩
    · exact fits_one s _
  · exact fits_one s _

theorem isBreak_signPiece (before : Option Char) (groups : Groups) (c : Char) (s : List Char) :
    (signPiece before groups c s).1.isBreak = false := by
  rw [signPiece]
  repeat'
    first
    | rfl
    | split

theorem fits_firstPiece (before : Option Char) (groups : Groups) (c : Char) (s : List Char) :
    Fits s (firstPiece false before groups c s) := by
  rw [firstPiece_eq]
  split
  · exact fits_blanksPiece s
  split
  next hend =>
    exact ⟨List.length_pos_iff.2 (splitLineEnd_ne_nil hend s), length_splitLineEnd_le (c :: s)⟩
  split
  · exact fits_escapePiece s
  split
  next htick => exact fits_takeWhile (by simp [htick]) s _
  split
  · exact fits_runPiece before c s
  · exact fits_signPiece before groups c s

theorem drop_length_splitLineEnd (s : List Char) :
    s.drop (splitLineEnd s).1.length = skipLineEnd s := by
  conv => lhs; arg 2; rw [← splitLineEnd_append s]
  exact List.drop_left

/-- Both are the same token, and where it ends a line, there is another line. -/
def SamePiece (s : List Char) (p' p : Piece × Nat) : Prop :=
  p' = p ∧ (p.1.isBreak = true → s.drop (p.2 - 1) ≠ [])

theorem SamePiece.of_eq {s : List Char} {p' p : Piece × Nat} (h : p' = p)
    (hbreak : p.1.isBreak = false) : SamePiece s p' p :=
  ⟨h, fun hb => by rw [hbreak] at hb; cases hb⟩

section Stop

variable {y : List Char} (hy : LineStop y)
include hy

theorem blanksPiece_append {s : List Char} (hs : EndsInLine s) (hne : dropBlanks s ≠ []) :
    SamePiece s (blanksPiece (s ++ y)) (blanksPiece s) := by
  have hrest := hs.of_suffix (dropBlanks_suffix s)
  have hstops : Stops isInlineBlank y := stops_of_atLineEnd ⟨rfl, rfl⟩ hy.atLineEnd
  refine ⟨?_, fun _ => ?_⟩
  · rw [blanksPiece, takeWhile_append hstops, dropBlanks_append hy.atLineEnd,
      splitLineEnd_append_of_ne hrest hne, blanksPiece]
  · have hsize : (blanksPiece s).2 - 1 =
        (s.takeWhile isInlineBlank).length + (splitLineEnd (dropBlanks s)).1.length := by
      simp only [blanksPiece]
      omega
    have hdrop : s.drop (s.takeWhile isInlineBlank).length = dropBlanks s :=
      drop_length_takeWhile _ s
    rw [hsize, ← List.drop_drop, hdrop, drop_length_splitLineEnd]
    exact hrest.skipLineEnd_ne_nil hne

/-- The blanks at the end of a passage, where no text follows. -/
theorem blanksPiece_of_nil {s : List Char} (hnil : dropBlanks s = []) :
    s.drop ((blanksPiece s).2 - 1) = [] ∧ (s ++ y).drop ((blanksPiece (s ++ y)).2 - 1) = [] := by
  have hstops : Stops isInlineBlank y := stops_of_atLineEnd ⟨rfl, rfl⟩ hy.atLineEnd
  have hblanks := congrArg List.length (List.takeWhile_append_dropWhile (p := isInlineBlank) (l := s))
  rw [show s.dropWhile isInlineBlank = [] from hnil, List.append_nil] at hblanks
  constructor <;> rw [List.drop_eq_nil_iff]
  · simp only [blanksPiece]
    omega
  · simp only [blanksPiece, takeWhile_append hstops, dropBlanks_append hy.atLineEnd, hnil,
      List.nil_append, hy.splitLineEnd, List.length_append]
    omega

theorem escapePiece_append {s : List Char} (hs : EndsInLine s) (hne : s ≠ []) :
    SamePiece s (escapePiece (s ++ y)) (escapePiece s) := by
  cases s with
  | nil => exact absurd rfl hne
  | cons d s =>
    have hticks := takeWhile_append
      (stops_of_atLineEnd (p := (· == '\x60')) ⟨rfl, rfl⟩ hy.atLineEnd) (d :: s)
    have hmore := hs.skipLineEnd_ne_nil (List.cons_ne_nil d s)
    have hmore' : (splitLineEnd (d :: s)).2.isEmpty = false := by
      rw [← Bool.not_eq_true, List.isEmpty_iff]
      exact hmore
    have hmore'' : ((splitLineEnd (d :: s)).2 ++ y).isEmpty = false := by
      rw [← Bool.not_eq_true, List.isEmpty_iff]
      exact fun h => hmore (List.append_eq_nil_iff.1 h).1
    rw [List.cons_append] at hticks
    have hsplit := splitLineEnd_append_of_ne hs (List.cons_ne_nil d s) y
    rw [List.cons_append] at hsplit
    by_cases hend : isLineEnd d = true
    · -- a line end behind the backslash has text behind it
      simp only [escapePiece, List.cons_append, hend, if_true, hsplit, hmore', hmore'',
        Bool.false_eq_true, if_false]
      refine ⟨rfl, fun _ => ?_⟩
      rw [Nat.add_sub_cancel_left, drop_length_splitLineEnd]
      exact hmore
    · simp only [escapePiece, List.cons_append, hend, Bool.false_eq_true, if_false, hticks]
      refine .of_eq rfl ?_
      split
      · rfl
      split <;> rfl

theorem runPiece_append (before : Option Char) {c : Char} (hc : isLineEnd c = false)
    (s : List Char) : runPiece before c (s ++ y) = runPiece before c s := by
  have hstops : Stops (· == c) y := by
    intro d hd
    have := hy.isLineEnd (List.mem_of_mem_head? hd)
    rw [beq_eq_false_iff_ne]
    rintro rfl
    rw [hc] at this
    cases this
  have hruns := takeWhile_append hstops (c :: s)
  have hle : ((c :: s).takeWhile (· == c)).length - 1 ≤ s.length := by
    have : ((c :: s).takeWhile (· == c)).length ≤ (c :: s).length :=
      (List.takeWhile_prefix _).length_le
    rw [List.length_cons] at this
    omega
  rw [List.cons_append] at hruns
  simp only [runPiece, hruns, List.drop_append_of_le_length hle]
  cases s.drop (((c :: s).takeWhile (· == c)).length - 1) with
  | cons d r => rfl
  | nil =>
    -- the end of a line is a blank, as the end of the text is
    have hopen : canOpen c ((c :: s).takeWhile (· == c)).length before ([] ++ y).head? =
        canOpen c ((c :: s).takeWhile (· == c)).length before ([] : List Char).head? := by
      rcases hy.eq with rfl | rfl | rfl <;> simp [canOpen, Text.isBlank]
    have hclose : canClose c ((c :: s).takeWhile (· == c)).length before ([] ++ y).head? =
        canClose c ((c :: s).takeWhile (· == c)).length before ([] : List Char).head? := by
      cases before with
      | none => rfl
      | some b => rcases hy.eq with rfl | rfl | rfl <;> simp [canClose, Text.isBlank]
    rw [hopen, hclose]

theorem signPiece_append (before : Option Char) (groups : Groups) (c : Char) (s : List Char) :
    signPiece before groups c (s ++ y) = signPiece before groups c s := by
  have hbracket : (s ++ y).head? = some '[' ↔ s.head? = some '[' := head?_append hy.atLineEnd rfl s
  have hopens : ((s ++ y).head?.map (!isAnyBlank ·)).getD false =
      (s.head?.map (!isAnyBlank ·)).getD false := by
    cases s with
    | nil => rcases hy.eq with rfl | rfl | rfl <;> rfl
    | cons => rfl
  simp only [signPiece, hbracket, hopens, readReference?_append hy.atLineEnd]

theorem firstPiece_append (before : Option Char) (groups : Groups) {c : Char} {s : List Char}
    (hs : EndsInLine (c :: s)) :
    SamePiece s (firstPiece false before groups c (s ++ y)) (firstPiece false before groups c s) ∨
      (isInlineBlank c = true ∧ dropBlanks s = []) := by
  have hblank : (isInlineBlank c ∧ atLineEnd (dropBlanks (s ++ y))) ↔
      (isInlineBlank c ∧ atLineEnd (dropBlanks s)) := by
    rw [dropBlanks_append hy.atLineEnd, atLineEnd_append hy.atLineEnd]
  have hsplit := splitLineEnd_append_of_ne hs (List.cons_ne_nil c s) y
  have hticks := takeWhile_append
    (stops_of_atLineEnd (p := (· == '\x60')) ⟨rfl, rfl⟩ hy.atLineEnd) (c :: s)
  rw [List.cons_append] at hsplit hticks
  -- only blanks at the end of the text, which the line end follows, make another piece
  simp only [firstPiece_eq, hblank, hsplit, hticks]
  split
  next hc =>
    by_cases hnil : dropBlanks s = []
    · exact .inr ⟨hc.1, hnil⟩
    · exact .inl (blanksPiece_append hy hs.tail hnil)
  split
  next hend =>
    refine .inl ⟨rfl, fun _ => ?_⟩
    have hmore := hs.skipLineEnd_ne_nil (List.cons_ne_nil c s)
    obtain ⟨n, hn⟩ := Nat.exists_eq_succ_of_ne_zero
      (List.length_pos_iff.2 (splitLineEnd_ne_nil hend s)).ne'
    rw [← drop_length_splitLineEnd, hn] at hmore
    simpa [hn] using hmore
  split
  next hslash =>
    refine .inl (escapePiece_append hy hs.tail ?_)
    rintro rfl
    exact (hs c rfl).2 hslash
  split
  · exact .inl (.of_eq rfl rfl)
  split
  next hend _ _ _ =>
    refine .inl (.of_eq (runPiece_append hy before (by simpa using hend) s) ?_)
    simp only [runPiece]
    split <;> rfl
  · exact .inl (.of_eq (signPiece_append hy before groups c s) (isBreak_signPiece ..))

end Stop

/-! ## All tokens -/

/-- The tokens of a passage that is no cell and of which all shows, where each token knows the length
of the text behind it. -/
def tokensOf (ks : List Container) : (bound : Nat) → (before : Option Char) → Groups → List Char →
    List Token
  | 0, _, _, _ => []
  | _ + 1, _, _, [] => []
  | bound + 1, before, groups, c :: s =>
    let (piece, size) := firstPiece false before groups c s
    let after := s.drop (size - 1)
    if piece.isBreak then
      if after.isEmpty then []
      else
        ⟨piece, [], after, after.length⟩ ::
          tokensOf ks bound (some '\n') groups
            ((Container.follow ks (Cursor.ofLine after)).2.skipToText after).rest
    else
      ⟨piece, [], after, after.length⟩ ::
        tokensOf ks bound ((c :: s).take size).getLast? (groups.step c) after

theorem readFrom_nextLine (ks : List Container) (s : List Char) :
    ((Container.follow ks (Cursor.ofLine s)).2.skipToText s).ReadFrom s :=
  ((Cursor.ReadFrom.ofLine s).follow ks).skipToText

theorem tokensFrom_eq_tokensOf (ks : List Container) (u : List Char) (bound : Nat)
    (before : Option Char) (afterText : Bool) (groups : Groups) (s : List Char) :
    tokensFrom ⟨ks, u, 0, false⟩ bound before afterText groups s s.length =
      tokensOf ks bound before groups s := by
  induction bound generalizing before afterText groups s with
  | zero => rfl
  | succ bound ih =>
    cases s with
    | nil => rfl
    | cons c s =>
      obtain ⟨hpos, hle⟩ := fits_firstPiece before groups c s
      rw [tokensFrom, if_neg (by simp), tokensOf]
      dsimp only
      generalize firstPiece false before groups c s = p at hpos hle
      -- what is left is counted as the length of the text behind the piece
      have hleft : (c :: s).length - p.2 = (s.drop (p.2 - 1)).length := by
        rw [List.length_cons, List.length_drop]
        omega
      rw [hleft]
      generalize s.drop (p.2 - 1) = after
      split
      · split
        · rfl
        · have hplace := readFrom_nextLine ks after
          rw [← ih, hplace.length_rest]
          rfl
      · have htail : (if after.length ≤ 0 then after else []) = [] := by
          split
          next h => exact List.length_eq_zero_iff.1 (Nat.le_zero.1 h)
          next => rfl
        rw [← ih]
        congr 1
        simp only [htail]
        cases p.1 <;> rfl

/-- Blanks at the end of a passage are no token. -/
theorem tokensOf_of_blanks {ks : List Container} {bound : Nat} {before : Option Char}
    {groups : Groups} {c : Char} {s : List Char} (hc : isInlineBlank c = true)
    (hs : atLineEnd (dropBlanks s) = true) (hafter : s.drop ((blanksPiece s).2 - 1) = []) :
    tokensOf ks (bound + 1) before groups (c :: s) = [] := by
  rw [tokensOf, firstPiece_eq, if_pos ⟨hc, hs⟩]
  dsimp only
  rw [if_pos (isBreak_blanksPiece s), hafter]
  rfl

/-- The token stands in the text: it knows the text behind it. -/
structure Token.StandsIn (x : List Char) (t : Token) : Prop where
  left : t.left = t.after.length
  after : t.after <:+ x

theorem standsIn_of_mem_tokensOf {ks : List Container} {bound : Nat} {before : Option Char}
    {groups : Groups} {s : List Char} {t : Token} (ht : t ∈ tokensOf ks bound before groups s) :
    t.StandsIn s := by
  induction bound generalizing before groups s with
  | zero => cases ht
  | succ bound ih =>
    cases s with
    | nil => cases ht
    | cons c s =>
      rw [tokensOf] at ht
      dsimp only at ht
      generalize firstPiece false before groups c s = p at ht
      have hafter : s.drop (p.2 - 1) <:+ c :: s := (List.drop_suffix _ s).trans (List.suffix_cons c s)
      have hmore {r : List Char} (h : t.StandsIn r) (hr : r <:+ s.drop (p.2 - 1)) :
          t.StandsIn (c :: s) := ⟨h.left, h.after.trans (hr.trans hafter)⟩
      split at ht
      · split at ht
        · cases ht
        · cases ht with
          | head => exact ⟨rfl, hafter⟩
          | tail _ ht => exact hmore (ih ht) (readFrom_nextLine ks _).suffix
      · cases ht with
        | head => exact ⟨rfl, hafter⟩
        | tail _ ht => exact hmore (ih ht) (List.suffix_refl _)

/-- The tokens of a passage stand in its text. -/
theorem standsIn_of_mem_tokens {ks : List Container} {x : List Char} {t : Token}
    (ht : t ∈ tokens ⟨ks, x, 0, false⟩) : t.StandsIn x := by
  rw [tokens, tokensFrom_eq_tokensOf] at ht
  exact standsIn_of_mem_tokensOf ht

/-! ## The end of the last line -/

/-- The token, where more text follows. -/
def Token.extend (y : List Char) (t : Token) : Token :=
  { t with after := t.after ++ y, left := t.left + y.length }

section Stop

variable {y : List Char} (hy : LineStop y)
include hy

/-- The end of a line by itself is no token. -/
theorem tokensOf_stop (ks : List Container) (bound : Nat) (before : Option Char) (groups : Groups) :
    tokensOf ks bound before groups y = [] := by
  cases bound with
  | zero => rfl
  | succ bound => rcases hy.eq with rfl | rfl | rfl <;> rfl

theorem nextLine_append (ks : List Container) (s : List Char) :
    ((Container.follow ks (Cursor.ofLine (s ++ y))).2.skipToText (s ++ y)).rest =
      ((Container.follow ks (Cursor.ofLine s)).2.skipToText s).rest ++ y := by
  rw [Cursor.ofLine_append, Container.follow_append hy.atLineEnd,
    Cursor.skipToText_append hy.atLineEnd, Cursor.rest_append]

theorem tokensOf_append (ks : List Container) {bound bound' : Nat} (before : Option Char)
    (groups : Groups) {s : List Char} (hs : EndsInLine s) (hb : s.length < bound)
    (hb' : s.length < bound') :
    tokensOf ks bound' before groups (s ++ y) =
      (tokensOf ks bound before groups s).map (Token.extend y) := by
  induction bound generalizing bound' before groups s with
  | zero => omega
  | succ bound ih =>
    obtain ⟨bound', rfl⟩ : ∃ n, bound' = n + 1 := ⟨bound' - 1, by omega⟩
    cases s with
    | nil => exact tokensOf_stop hy ks _ before groups
    | cons c s =>
      rw [List.length_cons] at hb hb'
      rw [List.cons_append]
      rcases firstPiece_append hy before groups hs with ⟨heq, hmore⟩ | ⟨hblank, hnil⟩
      · rw [tokensOf, tokensOf]
        dsimp only
        obtain ⟨hpos, hle⟩ := fits_firstPiece before groups c s
        rw [heq]
        generalize firstPiece false before groups c s = p at hpos hle hmore
        have hsuffix : s.drop (p.2 - 1) <:+ s := List.drop_suffix _ s
        have hafter := hs.tail.of_suffix hsuffix
        have hlen := hsuffix.length_le
        rw [List.drop_append_of_le_length (by omega)]
        generalize s.drop (p.2 - 1) = after at *
        split
        next hbreak =>
          -- another line follows
          have hne := hmore hbreak
          have hplace := (readFrom_nextLine ks after).suffix
          have hle' := hplace.length_le
          rw [if_neg (by simp [hne]), if_neg (by simp [hne]), nextLine_append hy,
            ih _ _ (hafter.of_suffix hplace) (by omega) (by omega), List.map_cons]
          simp [Token.extend]
        next =>
          rw [ih _ _ hafter (by omega) (by omega), ← List.cons_append,
            List.take_append_of_le_length (by rw [List.length_cons]; omega), List.map_cons]
          simp [Token.extend]
      · -- nothing follows the blanks
        obtain ⟨hafter, hafter'⟩ := blanksPiece_of_nil hy hnil
        have hend : atLineEnd (dropBlanks (s ++ y)) = true := by
          rw [dropBlanks_append hy.atLineEnd, hnil]
          exact hy.atLineEnd
        rw [tokensOf_of_blanks hblank hend hafter',
          tokensOf_of_blanks hblank (by rw [hnil]; rfl) hafter]
        rfl

/-- The tokens of a passage do not depend on the end of its last line. -/
theorem tokens_append (ks : List Container) {x : List Char} (hx : EndsInLine x) :
    tokens ⟨ks, x ++ y, 0, false⟩ = (tokens ⟨ks, x, 0, false⟩).map (Token.extend y) := by
  rw [tokens, tokens, tokensFrom_eq_tokensOf, tokensFrom_eq_tokensOf]
  exact tokensOf_append hy ks none Groups.start hx (Nat.lt_succ_self _)
    (by rw [List.length_append]; omega)

end Stop

end Treatise.Markdown
