import Treatise.Proofs.Markdown.Following

/-!
# Code and raw HTML before a tail

A code block or raw HTML that ends before the last line of a text is the same whatever follows the
text. One that goes to the end of the text takes the line end behind it, and may take the lines that
follow: then it is longer with an empty line behind it.

* `Bare` — the last line of a text holds more than blanks and marks of quotes;
* **`literalLines_tail`** — the two cases for lines that go on from a place, one after the other;
* `fencedLines_tail`, `indentedLines_tail`, `htmlLines_tail` — the two cases for each kind of literal
  text.
-/

namespace Treatise.Markdown

/-! ## The last line -/

/-- The text behind the last line feed. -/
def lastLine (x : List Char) : List Char := (x.reverse.takeWhile (· != '\n')).reverse

/-- A character that neither indents a line nor continues a container. -/
def isBareChar (c : Char) : Bool := !(c == '>' || isInlineBlank c)

theorem isBareChar_of_isLineEnd {c : Char} (h : isLineEnd c = true) : isBareChar c = true := by
  rcases isLineEnd_iff.1 h with rfl | rfl <;> rfl

theorem isInlineBlank_of_isBareChar {c : Char} (h : isBareChar c = true) :
    isInlineBlank c = false := by
  rw [isBareChar, Bool.not_eq_true', Bool.or_eq_false_iff] at h
  exact h.2

/-- The last line holds more than blanks and marks of quotes. -/
def Bare (x : List Char) : Prop := ∃ c ∈ lineText (lastLine x), isBareChar c = true

instance (x : List Char) : Decidable (Bare x) :=
  decidable_of_iff ((lineText (lastLine x)).any isBareChar = true) List.any_eq_true

theorem Bare.ne_nil {x : List Char} (h : Bare x) : x ≠ [] := by
  rintro rfl
  obtain ⟨c, hc, -⟩ := h
  cases hc

theorem Bare.append {u x : List Char} (h : Bare x) (hu : ∀ c ∈ u.getLast?, c = '\n') :
    Bare (u ++ x) := by
  have hstops : Stops (· != '\n') u.reverse := fun c hc => by
    rw [List.head?_reverse] at hc
    simpa using hu c hc
  have hline : lastLine (u ++ x) = lastLine x := by
    rw [lastLine, List.reverse_append, takeWhile_append hstops, lastLine]
  rwa [Bare, hline]

theorem takeLiteral_append (s : List Char) : (takeLiteral s).1 ++ (takeLiteral s).2 = s := by
  rw [takeLiteral]
  split
  · exact List.append_nil s
  next c rest heq =>
    have hc : c = '\n' := by
      simpa [heq] using List.head_dropWhile_not (· != '\n') (l := s) (by rw [heq]; nofun)
    have happend := List.takeWhile_append_dropWhile (p := (· != '\n')) (l := s)
    rw [heq, hc] at happend
    simpa using happend

/-- A literal line that is not the last one ends in a line feed. -/
theorem getLast?_takeLiteral {s : List Char} (h : (takeLiteral s).2 ≠ []) :
    (takeLiteral s).1.getLast? = some '\n' := by
  rw [takeLiteral] at h ⊢
  split
  next heq => simp [heq] at h
  next heq => simp

/-- What follows a literal line ends as the whole text does. -/
theorem Bare.of_takeLiteral {x s : List Char} (h : Bare x) (hs : s <:+ x)
    (hne : (takeLiteral s).2 ≠ []) : Bare (takeLiteral s).2 := by
  obtain ⟨u, rfl⟩ := hs
  have hlast : lastLine (u ++ s) = lastLine (takeLiteral s).2 := by
    have hstops : Stops (· != '\n') (u ++ (takeLiteral s).1).reverse := by
      intro c hc
      rw [List.head?_reverse, List.getLast?_append, getLast?_takeLiteral hne] at hc
      simpa using hc.symm
    have hcut : u ++ s = u ++ (takeLiteral s).1 ++ (takeLiteral s).2 := by
      rw [List.append_assoc, takeLiteral_append]
    rw [hcut, lastLine, List.reverse_append, takeWhile_append hstops, lastLine]
  rw [Bare, hlast] at h
  exact h

/-! ## Marks of containers -/

/-- A text, and what is left of it behind blanks and marks of quotes. -/
def Unmarked (s r : List Char) : Prop := ∃ u, s = u ++ r ∧ ∀ c ∈ u, isBareChar c = false

theorem Unmarked.refl (s : List Char) : Unmarked s s := ⟨[], rfl, nofun⟩

theorem Unmarked.trans {s r q : List Char} (h : Unmarked s r) (h' : Unmarked r q) :
    Unmarked s q := by
  obtain ⟨u, rfl, hu⟩ := h
  obtain ⟨v, rfl, hv⟩ := h'
  refine ⟨u ++ v, (List.append_assoc ..).symm, fun c hc => ?_⟩
  rcases List.mem_append.1 hc with hc | hc
  · exact hu c hc
  · exact hv c hc

theorem Unmarked.cons {c : Char} (hc : isBareChar c = false) (s : List Char) :
    Unmarked (c :: s) s := ⟨[c], rfl, by simpa using hc⟩

theorem unmarked_skip (n : Nat) (c : Cursor) : Unmarked c.rest (c.skip n).2.rest := by
  induction n generalizing c with
  | zero => exact .refl _
  | succ n ih =>
    rw [Cursor.skip_succ]
    cases hcol : c.column? with
    | none => exact .refl _
    | some d =>
      refine Unmarked.trans ?_ (ih d)
      unfold Cursor.column? at hcol
      split at hcol
      · obtain rfl := Option.some.inj hcol
        exact .refl _
      · split at hcol
        next heq => obtain rfl := Option.some.inj hcol; rw [heq]; exact .cons rfl _
        next heq => obtain rfl := Option.some.inj hcol; rw [heq]; exact .cons rfl _
        next => cases hcol

theorem unmarked_readQuoteMark? {c d : Cursor} (h : Container.readQuoteMark? c = some d) :
    Unmarked c.rest d.rest := by
  rw [Container.readQuoteMark?, Option.map_eq_some_iff] at h
  obtain ⟨e, he, rfl⟩ := h
  refine Unmarked.trans ?_ (unmarked_skip 1 e)
  unfold Cursor.skipChar? at he
  split at he
  · cases he
  next heq =>
    split at he
    next hc => obtain rfl := Option.some.inj he; rw [heq, hc]; exact .cons rfl _
    · cases he

theorem unmarked_follow (ks : List Container) (c : Cursor) :
    Unmarked c.rest (Container.follow ks c).2.rest := by
  induction ks generalizing c with
  | nil => exact .refl _
  | cons k ks ih =>
    rw [Container.follow]
    cases hk : k.continue? c with
    | none => exact .refl _
    | some d =>
      refine Unmarked.trans ?_ (ih d)
      cases k with
      | quote => exact (unmarked_skip 3 c).trans (unmarked_readQuoteMark? hk)
      | list mark start tight => obtain rfl := Option.some.inj hk; exact .refl _
      | item n =>
        rw [Container.continue?] at hk
        dsimp only at hk
        split at hk
        · obtain rfl := Option.some.inj hk
          exact unmarked_skip n c
        · cases hk

theorem unmarked_followAll? {ks : List Container} {s : List Char} {c : Cursor}
    (h : Container.followAll? ks s = some c) : Unmarked s c.rest := by
  have hfollow := unmarked_follow ks (Cursor.ofLine s)
  rw [Container.followAll?] at h
  split at h
  next heq => obtain rfl := Option.some.inj h; rw [heq] at hfollow; exact hfollow
  · cases h

/-- The last line goes on behind the marks. -/
theorem Unmarked.ne_nil {s r : List Char} (h : Unmarked s r) (hs : Bare s) : r ≠ [] := by
  rintro rfl
  obtain ⟨u, rfl, hu⟩ := h
  obtain ⟨c, hc, hbare⟩ := hs
  rw [List.append_nil] at hc
  have hmem : c ∈ u := List.mem_reverse.1 ((List.takeWhile_sublist _).subset
    (List.mem_reverse.1 ((List.takeWhile_sublist _).subset hc)))
  rw [hu c hmem] at hbare
  cases hbare

theorem isBlankLine_of_mem {s : List Char} {c : Char} (hc : c ∈ lineText s)
    (hblank : isInlineBlank c = false) : isBlankLine s = false := by
  induction s with
  | nil => cases hc
  | cons d s ih =>
    by_cases hd : isLineEnd d = true
    · simp [lineText, hd] at hc
    · by_cases hdb : isInlineBlank d = true
      · have hmem : c ∈ lineText s := by
          rcases (by simpa [lineText, hd] using hc : c = d ∨ c ∈ lineText s) with rfl | hmem
          · rw [hdb] at hblank; cases hblank
          · exact hmem
        have := ih hmem
        simpa [isBlankLine, dropBlanks, hdb] using this
      · simp [isBlankLine, dropBlanks, hdb, atLineEnd, hd]

/-- A bare line that is the last one is not blank behind the marks. -/
theorem Unmarked.isBlankLine {s r : List Char} (h : Unmarked s r) (hs : Bare s)
    (hlast : '\n' ∉ r) : isBlankLine r = false := by
  obtain ⟨u, rfl, hu⟩ := h
  have hline : lastLine (u ++ r) = u ++ r := by
    have hno : '\n' ∉ u := fun hmem => absurd (hu _ hmem) (by decide)
    rw [lastLine, List.takeWhile_eq_self_iff.2, List.reverse_reverse]
    intro c hc
    have hc : c ∈ u ++ r := List.mem_reverse.1 hc
    rcases List.mem_append.1 hc with hc | hc
    · simpa using fun heq : c = '\n' => hno (heq ▸ hc)
    · simpa using fun heq : c = '\n' => hlast (heq ▸ hc)
  obtain ⟨c, hc, hbare⟩ := hs
  rw [hline, lineText, List.takeWhile_append_of_pos] at hc
  · rcases List.mem_append.1 hc with hc | hc
    · rw [hu c hc] at hbare; cases hbare
    · exact isBlankLine_of_mem hc (isInlineBlank_of_isBareChar hbare)
  · intro d hd
    cases hend : isLineEnd d with
    | false => rfl
    | true => exact absurd (hu d hd) (by rw [isBareChar_of_isLineEnd hend]; decide)

theorem Unmarked.eq_of_lineFeed {r : List Char} (h : Unmarked ['\n'] r) : r = ['\n'] := by
  obtain ⟨u, heq, hu⟩ := h
  cases u with
  | nil => exact heq.symm
  | cons c u =>
    obtain ⟨rfl, -⟩ := List.cons.inj heq
    exact absurd (hu _ (.head _)) (by decide)

/-! ## Lines -/

/-- An empty line behind a text. -/
def Tail.emptyLine : Tail := ⟨['\n'], ['\n']⟩

theorem Tail.valid_emptyLine : Tail.emptyLine.Valid := ⟨.inr (.inl rfl), nofun, rfl⟩

theorem length_literalText_le (line : List Char) : (literalText line).length ≤ line.length := by
  rw [literalText]
  split
  next c r heq =>
    split
    · have hlen := congrArg List.length heq
      simp only [List.length_reverse, List.length_cons] at hlen ⊢
      omega
    · exact le_refl _
  · exact le_refl _

/-- The end of the line shows in a literal line. -/
theorem length_literalText_lt {line : List Char} (h : EndsInLine line) :
    (literalText line).length < (literalText (line ++ ['\n'])).length := by
  have hline : literalText (line ++ ['\n']) = line ++ ['\n'] := by
    rw [literalText, List.reverse_append]
    cases hrev : line.reverse with
    | nil => rfl
    | cons c r =>
      have hc : c ≠ '\r' := by
        rintro rfl
        have hlast : line.getLast? = some '\r' := by rw [List.getLast?_eq_head?_reverse, hrev]; rfl
        cases (h _ hlast).1
      simp [hc]
  have hle := length_literalText_le line
  rw [hline, List.length_append]
  exact Nat.lt_succ_of_le hle

namespace Outline

theorem codeLine_suffix (c : Cursor) : (codeLine c).2 <:+ c.rest := takeLiteral_suffix c.rest

theorem length_codeLine_lt {c : Cursor} (h : c.rest ≠ []) :
    (codeLine c).2.length < c.rest.length := by
  have happend := congrArg List.length (takeLiteral_append c.rest)
  rw [List.length_append] at happend
  have hpos : (takeLiteral c.rest).1 ≠ [] := by
    by_cases hlast : (takeLiteral c.rest).2 = []
    · have hall := takeLiteral_append c.rest
      rw [hlast, List.append_nil] at hall
      rwa [hall]
    · intro hnil
      have := getLast?_takeLiteral hlast
      rw [hnil] at this
      cases this
  have := List.length_pos_iff.2 hpos
  change (takeLiteral c.rest).2.length < _
  omega

theorem codeLine_tail {t : Tail} (ht : t.Valid) {c : Cursor} (hc : EndsInLine c.rest)
    (hmore : (codeLine c).2 ≠ []) :
    codeLine (c.append t.text) = ((codeLine c).1, (codeLine c).2 ++ t.text) := by
  have hrest : (takeLiteral c.rest).2 ≠ [] := hmore
  simp only [codeLine, Cursor.rest_append, takeLiteral_tail ht hc, Tail.stopAt_of_ne hrest,
    Tail.after_of_ne hrest, List.append_nil]
  rfl

/-- The last line of a text is longer with an end. -/
theorem length_codeLine_tail {c : Cursor} (hc : EndsInLine c.rest) (hlast : (codeLine c).2 = []) :
    (codeLine c).1.length < (codeLine (c.append Tail.emptyLine.text)).1.length := by
  have hline : (takeLiteral c.rest).1 = c.rest := by
    have := takeLiteral_append c.rest
    rwa [show (takeLiteral c.rest).2 = [] from hlast, List.append_nil] at this
  have hrest : (takeLiteral c.rest).2 = [] := hlast
  have hlt := length_literalText_lt hc
  simp only [codeLine, Cursor.rest_append, takeLiteral_tail Tail.valid_emptyLine hc, hline, hrest,
    List.length_append]
  exact Nat.add_lt_add_left hlt _

theorem not_mem_of_codeLine {c : Cursor} (hc : EndsInLine c.rest) (hlast : (codeLine c).2 = []) :
    '\n' ∉ c.rest := by
  intro hmem
  have hrest : (takeLiteral c.rest).2 = [] := hlast
  rw [takeLiteral] at hrest
  split at hrest
  next heq => simpa using List.dropWhile_eq_nil_iff.1 heq _ hmem
  next d rest heq =>
    -- the line feed would stand at the end of the text
    have hd : d = '\n' := by
      simpa [heq] using List.head_dropWhile_not (· != '\n') (l := c.rest) (by rw [heq]; nofun)
    have hsuffix : [d] <:+ c.rest := by
      have := List.dropWhile_suffix (· != '\n') (l := c.rest)
      rwa [heq, show rest = [] from hrest] at this
    exact (hc.of_suffix hsuffix).ne_nil (by rw [hd]; rfl) rfl

/-! ## Fenced code -/

theorem closingFence?_append {mark : Char} (hmark : isLineEnd mark = false) (size : Nat)
    {y : List Char} (hy : Markdown.atLineEnd y = true) {s : List Char} (hs : s ≠ []) :
    closingFence? mark size (s ++ y) = (closingFence? mark size s).map (· ++ y) := by
  have hstops : Stops (· == mark) y := by
    intro c hc
    cases y with
    | nil => cases hc
    | cons d y =>
      obtain rfl : d = c := by simpa using hc
      change isLineEnd d = true at hy
      simpa using fun h : d = mark => by rw [h, hmark] at hy; cases hy
  have hempty : s.isEmpty = false := by simpa using hs
  have hempty' : (s ++ y).isEmpty = false := by simpa using fun h => absurd h hs
  simp only [closingFence?, hempty, hempty', takeWhile_append hstops, dropWhile_append hstops,
    dropWhile_append (stops_of_atLineEnd (p := (· == ' ')) ⟨rfl, rfl⟩ hy), atLineEnd_append hy]
  split <;> rfl

theorem skip_ofLine_nil (n : Nat) : (Cursor.ofLine []).skip n = (0, Cursor.ofLine []) := by
  cases n <;> rfl

theorem follow_ofLine_nil (ks : List Container) :
    (Container.follow ks (Cursor.ofLine [])).2 = Cursor.ofLine [] := by
  induction ks with
  | nil => rfl
  | cons k ks ih =>
    rw [Container.follow]
    cases hk : k.continue? (Cursor.ofLine []) with
    | none => rfl
    | some c =>
      have hc : c = Cursor.ofLine [] := by
        cases k with
        | quote =>
          rw [Container.continue?, skip_ofLine_nil, Blank.readQuoteMark? .nil] at hk
          cases hk
        | list mark start tight => exact (Option.some.inj hk).symm
        | item n =>
          rw [Container.continue?, skip_ofLine_nil] at hk
          exact (Option.some.inj ((if_pos (.inr rfl)).symm.trans hk)).symm
      rw [hc]
      exact ih

theorem followAll?_nil {ks : List Container} {c : Cursor}
    (h : Container.followAll? ks [] = some c) : c = Cursor.ofLine [] := by
  have hfollow := follow_ofLine_nil ks
  rw [Container.followAll?] at h
  split at h
  next heq => obtain rfl := Option.some.inj h; rw [heq] at hfollow; exact hfollow
  · cases h

/-- A blank line continues all containers or none but the outer ones, as they are. -/
theorem followAll?_eq_none_iff (ks : List Container) {s : List Char} (h : Blank s) :
    Container.followAll? ks s = none ↔ (ks.dropWhile (· != .quote)).length ≠ 0 := by
  rw [Container.followAll?, ← (Blank.follow ks (c := Cursor.ofLine s) h).1]
  split
  next heq => simp [heq]
  next hne =>
    refine iff_of_true rfl fun hzero => ?_
    exact hne _ (Prod.ext hzero rfl)

/-- The end of the text closes a fence. -/
theorem fencedLines_nil (ks : List Container) {indent : Nat} (hindent : indent < 4) (mark : Char)
    (size bound : Nat) : fencedLines ks indent mark size bound [] = ([], []) := by
  cases bound with
  | zero => rfl
  | succ bound =>
    rw [fencedLines]
    cases hfollow : Container.followAll? ks [] with
    | none => rfl
    | some c =>
      rw [followAll?_nil hfollow]
      simp only [skip_ofLine_nil, if_pos (show 0 < 4 - indent by omega)]
      rfl

/-- A fence ends at the place, or goes on in the line. -/
def fenceEnd? (indent : Nat) (mark : Char) (size : Nat) (c : Cursor) : Option (List Char) :=
  if (c.skip (4 - indent)).1 < 4 - indent then
    closingFence? mark size (c.skip (4 - indent)).2.rest
  else none

theorem fencedLines_succ {ks : List Container} (indent : Nat) (mark : Char) (size bound : Nat)
    {s : List Char} {c : Cursor} (h : Container.followAll? ks s = some c) :
    fencedLines ks indent mark size (bound + 1) s =
      match fenceEnd? indent mark size (c.skip indent).2 with
      | some rest => ([], skipBlankLine rest)
      | none =>
        ((codeLine (c.skip indent).2).1 ::
            (fencedLines ks indent mark size bound (codeLine (c.skip indent).2).2).1,
          (fencedLines ks indent mark size bound (codeLine (c.skip indent).2).2).2) := by
  rw [fencedLines, h]
  rfl

theorem fenceEnd?_suffix {indent : Nat} {mark : Char} {size : Nat} {c : Cursor} {rest : List Char}
    (h : fenceEnd? indent mark size c = some rest) : rest <:+ c.rest := by
  rw [fenceEnd?, Option.ite_none_right_eq_some, closingFence?, Option.ite_none_right_eq_some] at h
  obtain ⟨-, -, h⟩ := h
  obtain rfl := Option.some.inj h
  exact (List.dropWhile_suffix _).trans ((List.dropWhile_suffix _).trans (Cursor.skip_suffix _ c))

theorem fenceEnd?_append {indent : Nat} {mark : Char} (hmark : isLineEnd mark = false) (size : Nat)
    {y : List Char} (hy : Markdown.atLineEnd y = true) {c : Cursor}
    (hc : (c.skip (4 - indent)).2.rest ≠ []) :
    fenceEnd? indent mark size (c.append y) = (fenceEnd? indent mark size c).map (· ++ y) := by
  rw [fenceEnd?, fenceEnd?, Cursor.skip_append hy, Cursor.rest_append,
    closingFence?_append hmark size hy hc]
  split <;> rfl

/-- A line of fenced code, where a tail follows the text. -/
theorem fencedLines_after {t : Tail} (ht : t.Valid) {ks : List Container} {indent : Nat} {mark : Char}
    (hmark : isLineEnd mark = false) (size bound : Nat) {r : List Char} (hne : r ≠ []) {c : Cursor}
    (hfollow : Container.followAll? ks r = some c)
    (hplace : ((c.skip indent).2.skip (4 - indent)).2.rest ≠ []) :
    fencedLines ks indent mark size (bound + 1) (t.after r) =
      match fenceEnd? indent mark size (c.skip indent).2 with
      | some rest => ([], skipBlankLine (rest ++ t.text))
      | none =>
        ((codeLine ((c.skip indent).2.append t.text)).1 ::
            (fencedLines ks indent mark size bound
              (codeLine ((c.skip indent).2.append t.text)).2).1,
          (fencedLines ks indent mark size bound
            (codeLine ((c.skip indent).2.append t.text)).2).2) := by
  have hy := ht.atLineEnd
  have hfollow' : Container.followAll? ks (t.after r) = some (c.append t.text) := by
    rw [Tail.after_of_ne hne, Container.followAll?_append hy, hfollow]
    rfl
  rw [fencedLines_succ indent mark size bound hfollow', Cursor.skip_append hy,
    fenceEnd?_append hmark size hy hplace]
  cases fenceEnd? indent mark size (c.skip indent).2 <;> rfl

/-- A fence on the last line of a text holds the lines behind it, unless a quote ends there. -/
theorem fencedLines_tail_nil (ks : List Container) (indent : Nat) {mark : Char}
    (hmark : isLineEnd mark = false) {size : Nat} (hsize : 0 < size) :
    (∀ (t : Tail) (bound' : Nat), t.Valid →
      fencedLines ks indent mark size bound' t.behind = ([], t.behind)) ∨
    ∀ bound', 0 < bound' →
      0 < (fencedLines ks indent mark size bound' ['\n']).1.flatten.length := by
  have hfeed : Blank ['\n'] := rfl
  by_cases hquote : (ks.dropWhile (· != .quote)).length = 0
  · refine .inr fun bound' hpos => ?_
    obtain ⟨bound', rfl⟩ : ∃ n, bound' = n + 1 := ⟨bound' - 1, by omega⟩
    cases hfollow : Container.followAll? ks ['\n'] with
    | none => exact absurd hquote ((followAll?_eq_none_iff ks hfeed).1 hfollow)
    | some c =>
      have hskip := (unmarked_followAll? hfollow).trans (unmarked_skip indent c)
      have hplace := hskip.eq_of_lineFeed
      have hinner := (hskip.trans (unmarked_skip (4 - indent) _)).eq_of_lineFeed
      have hend : fenceEnd? indent mark size (c.skip indent).2 = none := by
        have hmark' : ('\n' == mark) = false := by
          simpa using fun h : '\n' = mark => by rw [← h] at hmark; cases hmark
        have hclosing : closingFence? mark size ['\n'] = none := by
          simp [closingFence?, hmark', hsize.ne']
        rw [fenceEnd?, hinner, hclosing, ite_self]
      have hline : (literalText (takeLiteral ['\n']).1).length = 1 := by decide
      rw [fencedLines_succ indent mark size bound' hfollow, hend]
      simp only [codeLine, hplace, List.flatten_cons, List.length_append, hline]
      omega
  · refine .inl fun t bound' ht => ?_
    cases bound' with
    | zero => rfl
    | succ bound' => rw [fencedLines, (followAll?_eq_none_iff ks ht.blank).2 hquote]

section Valid

variable {x : List Char} (hx : EndsInLine x) (hbare : Bare x)
include hx hbare

/-- Code in a fence ends before the end of the text, or is longer with an empty line behind the
text. -/
theorem fencedLines_tail (ks : List Container) {indent : Nat} (hindent : indent < 4) {mark : Char}
    (hmark : isLineEnd mark = false) {size : Nat} (hsize : 0 < size) {bound : Nat} {r : List Char}
    (hr : r <:+ x) (hline : r ≠ [] → Bare r) (hb : r.length ≤ bound) :
    (∀ (t : Tail) (bound' : Nat), t.Valid → r.length ≤ bound' →
      fencedLines ks indent mark size bound' (t.after r) =
        ((fencedLines ks indent mark size bound r).1,
          t.after (fencedLines ks indent mark size bound r).2)) ∨
    ((fencedLines ks indent mark size bound r).2 = [] ∧
      ∀ bound', r.length < bound' →
        (fencedLines ks indent mark size bound r).1.flatten.length <
          (fencedLines ks indent mark size bound' (Tail.emptyLine.after r)).1.flatten.length) := by
  by_cases hne : r = []
  · subst hne
    rw [fencedLines_nil ks hindent]
    exact (fencedLines_tail_nil ks indent hmark hsize).imp (fun h t bound' ht _ => h t bound' ht)
      fun h => ⟨rfl, fun bound' hb' => h bound' hb'⟩
  induction bound generalizing r with
  | zero => exact absurd (List.eq_nil_of_length_eq_zero (by omega)) hne
  | succ bound ih =>
    have hpos := List.length_pos_iff.2 hne
    have hbare' := hline hne
    cases hfollow : Container.followAll? ks r with
    | none =>
      refine .inl fun t bound' ht hb' => ?_
      obtain ⟨bound', rfl⟩ : ∃ n, bound' = n + 1 := ⟨bound' - 1, by omega⟩
      rw [fencedLines, fencedLines, Tail.after_of_ne hne,
        Container.followAll?_append ht.atLineEnd, hfollow]
      exact congrArg (Prod.mk []) (Tail.after_of_ne hne).symm
    | some c =>
      -- what stands behind the marks and the indentation of the fence
      have hd : Unmarked r (c.skip indent).2.rest :=
        (unmarked_followAll? hfollow).trans (unmarked_skip indent c)
      have hplace := (hd.trans (unmarked_skip (4 - indent) (c.skip indent).2)).ne_nil hbare'
      have hunfold {t : Tail} (ht : t.Valid) (n : Nat) :=
        fencedLines_after ht hmark size n hne hfollow hplace
      rw [fencedLines_succ indent mark size bound hfollow]
      generalize (c.skip indent).2 = d at hd hunfold
      have hdne := hd.ne_nil hbare'
      have hdsuffix : d.rest <:+ r := by obtain ⟨u, h, -⟩ := hd; exact ⟨u, h.symm⟩
      have hdx := hx.of_suffix (hdsuffix.trans hr)
      cases hend : fenceEnd? indent mark size d with
      | some rest =>
        refine .inl fun t bound' ht hb' => ?_
        obtain ⟨bound', rfl⟩ : ∃ n, bound' = n + 1 := ⟨bound' - 1, by omega⟩
        rw [hunfold ht, hend]
        simp only [skipBlankLine_tail ht (hdx.of_suffix (fenceEnd?_suffix hend))]
      | none =>
        have hshort := length_codeLine_lt hdne
        have hle := hdsuffix.length_le
        by_cases hlast : (codeLine d).2 = []
        · -- the code goes to the end of the text
          refine .inr ⟨by simp only [hlast, fencedLines_nil ks hindent], fun bound' hb' => ?_⟩
          obtain ⟨bound', rfl⟩ : ∃ n, bound' = n + 1 := ⟨bound' - 1, by omega⟩
          have hlt := length_codeLine_tail hdx hlast
          rw [hunfold Tail.valid_emptyLine, hend]
          simp only [hlast, fencedLines_nil ks hindent, List.flatten_cons, List.flatten_nil,
            List.append_nil, List.length_append]
          omega
        · have hrest : (codeLine d).2 <:+ x :=
            (codeLine_suffix d).trans (hdsuffix.trans hr)
          have hbare'' : Bare (codeLine d).2 :=
            hbare.of_takeLiteral (hdsuffix.trans hr) hlast
          refine (ih hrest (fun _ => hbare'') (by omega) hlast).imp ?_ ?_
          · intro h t bound' ht hb'
            obtain ⟨bound', rfl⟩ : ∃ n, bound' = n + 1 := ⟨bound' - 1, by omega⟩
            have := h t bound' ht (by omega)
            rw [Tail.after_of_ne hlast] at this
            rw [hunfold ht, hend, codeLine_tail ht hdx hlast]
            simp only [this]
          · rintro ⟨hnil, h⟩
            refine ⟨hnil, fun bound' hb' => ?_⟩
            obtain ⟨bound', rfl⟩ : ∃ n, bound' = n + 1 := ⟨bound' - 1, by omega⟩
            have := h bound' (by omega)
            rw [Tail.after_of_ne hlast] at this
            rw [hunfold Tail.valid_emptyLine, hend, codeLine_tail Tail.valid_emptyLine hdx hlast]
            simp only [List.flatten_cons, List.length_append]
            omega

end Valid

/-! ## Lines of literal text -/

/-- Lines of literal text from a place on, and what follows them: what is read of each line, and the
place from which the next line goes on with the text, if it does. -/
def literalLines {α : Type} (read : Cursor → α) (next? : Cursor → Option Cursor) :
    (bound : Nat) → Cursor → List α × List Char
  | 0, c => ([], c.rest)
  | bound + 1, c =>
    match next? c with
    | none => ([read c], (codeLine c).2)
    | some d => (read c :: (literalLines read next? bound d).1, (literalLines read next? bound d).2)

/-- Literal text goes on behind the marks of containers in the next line, and a tail behind that line
changes nothing in it. -/
structure GoesOnInLines {α : Type} (read : Cursor → α) (next? : Cursor → Option Cursor) : Prop where
  unmarked {c d : Cursor} : next? c = some d → Unmarked (codeLine c).2 d.rest
  none_of_nil {c : Cursor} : (codeLine c).2 = [] → next? c = none
  next_tail {t : Tail} {c : Cursor} : t.Valid → EndsInLine c.rest → Bare (codeLine c).2 →
    next? (c.append t.text) = (next? c).map (·.append t.text)
  read_tail {t : Tail} {c : Cursor} : t.Valid → EndsInLine c.rest → (codeLine c).2 ≠ [] →
    read (c.append t.text) = read c

section LiteralLines

variable {α : Type} {read : Cursor → α} {next? : Cursor → Option Cursor}
  (hlines : GoesOnInLines read next?)
include hlines

theorem literalLines_suffix (bound : Nat) (c : Cursor) :
    (literalLines read next? bound c).2 <:+ c.rest ∧
      (0 < bound → (literalLines read next? bound c).2 <:+ (codeLine c).2) := by
  induction bound generalizing c with
  | zero => exact ⟨List.suffix_refl _, nofun⟩
  | succ bound ih =>
    have hline : (literalLines read next? (bound + 1) c).2 <:+ (codeLine c).2 := by
      rw [literalLines]
      cases hnext : next? c with
      | none => exact List.suffix_refl _
      | some d =>
        obtain ⟨u, hu, -⟩ := hlines.unmarked hnext
        exact (ih d).1.trans ⟨u, hu.symm⟩
    exact ⟨hline.trans (codeLine_suffix c), fun _ => hline⟩

/-- A line that is not the last one is read in front of a tail as without it, and the text goes on
from the same place. -/
theorem literalLines_append {t : Tail} (ht : t.Valid) {c : Cursor} (hc : EndsInLine c.rest)
    (hmore : Bare (codeLine c).2) (bound : Nat) :
    literalLines read next? (bound + 1) (c.append t.text) =
      match (next? c).map (·.append t.text) with
      | none => ([read c], (codeLine c).2 ++ t.text)
      | some d =>
        (read c :: (literalLines read next? bound d).1, (literalLines read next? bound d).2) := by
  rw [literalLines, codeLine_tail ht hc hmore.ne_nil, hlines.next_tail ht hc hmore,
    hlines.read_tail ht hc hmore.ne_nil]

/-- Literal text ends before the end of a text, or it takes the last line: then it goes on with the
same lines whatever follows the text, and what is read of the last one is read with its end. -/
theorem literalLines_tail {x : List Char} (hx : EndsInLine x) (hbare : Bare x) {bound : Nat}
    {c : Cursor} (hc : c.rest <:+ x) (hne : c.rest ≠ []) (hb : c.rest.length ≤ bound) :
    (∀ (t : Tail) (bound' : Nat), t.Valid → c.rest.length ≤ bound' →
      literalLines read next? bound' (c.append t.text) =
        ((literalLines read next? bound c).1, t.after (literalLines read next? bound c).2)) ∨
    ∃ pre d, literalLines read next? bound c = (pre ++ [read d], []) ∧
      (d.rest <:+ x ∧ (codeLine d).2 = [] ∧ (d = c ∨ isBlankLine d.rest = false)) ∧
      ∀ bound', c.rest.length ≤ bound' → ∃ more rest,
        literalLines read next? bound' (c.append Tail.emptyLine.text) =
          (pre ++ read (d.append Tail.emptyLine.text) :: more, rest) := by
  induction bound generalizing c with
  | zero => exact absurd (List.eq_nil_of_length_eq_zero (by omega)) hne
  | succ bound ih =>
    have hpos := List.length_pos_iff.2 hne
    have hc' := hx.of_suffix hc
    have hshort := length_codeLine_lt hne
    by_cases hlast : (codeLine c).2 = []
    · -- the literal text goes to the end of the text
      refine .inr ⟨[], c, ?_, ⟨hc, hlast, .inl rfl⟩, fun bound' hb' => ?_⟩
      · rw [literalLines, hlines.none_of_nil hlast, hlast]
        rfl
      · obtain ⟨bound', rfl⟩ : ∃ n, bound' = n + 1 := ⟨bound' - 1, by omega⟩
        rw [literalLines]
        split
        · exact ⟨[], _, rfl⟩
        · exact ⟨_, _, rfl⟩
    · have hbare' : Bare (codeLine c).2 := hbare.of_takeLiteral hc hlast
      have hunfold {t : Tail} (ht : t.Valid) := literalLines_append hlines ht hc' hbare'
      rw [literalLines]
      cases hnext : next? c with
      | none =>
        refine .inl fun t bound' ht hb' => ?_
        obtain ⟨bound', rfl⟩ : ∃ n, bound' = n + 1 := ⟨bound' - 1, by omega⟩
        rw [hunfold ht, hnext, Tail.after_of_ne hlast]
        rfl
      | some d =>
        have hd := hlines.unmarked hnext
        have hdsuffix : d.rest <:+ (codeLine c).2 := by obtain ⟨u, h, -⟩ := hd; exact ⟨u, h.symm⟩
        have hdx := hdsuffix.trans ((codeLine_suffix c).trans hc)
        have hle := hdsuffix.length_le
        refine (ih hdx (hd.ne_nil hbare') (by omega)).imp ?_ ?_
        · intro h t bound' ht hb'
          obtain ⟨bound', rfl⟩ : ∃ n, bound' = n + 1 := ⟨bound' - 1, by omega⟩
          rw [hunfold ht, hnext]
          simp only [Option.map_some, h t bound' ht (by omega)]
        · rintro ⟨pre, e, heq, ⟨he, hend, hplace⟩, h⟩
          refine ⟨read c :: pre, e, by simp [heq], ⟨he, hend, .inr ?_⟩, fun bound' hb' => ?_⟩
          · -- the last line of the text stands behind marks, and more than blanks is in it
            rcases hplace with rfl | hplace
            · exact hd.isBlankLine hbare' (not_mem_of_codeLine (hx.of_suffix he) hend)
            · exact hplace
          · obtain ⟨bound', rfl⟩ : ∃ n, bound' = n + 1 := ⟨bound' - 1, by omega⟩
            obtain ⟨more, rest, heq'⟩ := h bound' (by omega)
            refine ⟨more, rest, ?_⟩
            rw [hunfold Tail.valid_emptyLine, hnext]
            simp only [Option.map_some, heq', List.cons_append]

end LiteralLines

/-! ## Indented code -/

/-- The place from which a line goes on with indented code. -/
def codeNext? (ks : List Container) (s : List Char) : Option Cursor := do
  let (n, c) := (← Container.followAll? ks s).skip 4
  if (n = 4 ∨ c.atLineEnd) ∧ !c.rest.isEmpty then some c else none

/-- What is read of a line of indented code: the line, and whether it is blank. -/
def codeOf (c : Cursor) : List Char × Bool := ((codeLine c).1, isBlankLine c.rest)

theorem indentedLines_eq (ks : List Container) (bound : Nat) (c : Cursor) :
    indentedLines ks bound c =
      literalLines codeOf (fun c => codeNext? ks (codeLine c).2) bound c := by
  induction bound generalizing c with
  | zero => rfl
  | succ bound ih =>
    have hunfold : indentedLines ks (bound + 1) c =
        match codeNext? ks (codeLine c).2 with
        | none => ([codeOf c], (codeLine c).2)
        | some d => (codeOf c :: (indentedLines ks bound d).1, (indentedLines ks bound d).2) :=
      rfl
    rw [hunfold, literalLines]
    cases codeNext? ks (codeLine c).2 with
    | none => rfl
    | some d => simp only [ih]

theorem unmarked_codeNext? {ks : List Container} {s : List Char} {c : Cursor}
    (h : codeNext? ks s = some c) : Unmarked s c.rest := by
  simp only [codeNext?, Option.bind_eq_bind, Option.bind_eq_some_iff,
    Option.ite_none_right_eq_some, Option.some.injEq] at h
  obtain ⟨d, hd, -, rfl⟩ := h
  exact (unmarked_followAll? hd).trans (unmarked_skip 4 d)

theorem codeNext?_nil (ks : List Container) : codeNext? ks [] = none := by
  cases hfollow : Container.followAll? ks [] with
  | none => simp [codeNext?, hfollow]
  | some c =>
    obtain rfl := followAll?_nil hfollow
    simp only [codeNext?, hfollow, Option.bind_eq_bind, Option.bind_some, skip_ofLine_nil]
    rfl

theorem codeNext?_append (ks : List Container) {s : List Char} (hs : Bare s) {y : List Char}
    (hy : Markdown.atLineEnd y = true) :
    codeNext? ks (s ++ y) = (codeNext? ks s).map (·.append y) := by
  simp only [codeNext?, Option.bind_eq_bind, Container.followAll?_append hy]
  cases hfollow : Container.followAll? ks s with
  | none => rfl
  | some c =>
    have hne := ((unmarked_followAll? hfollow).trans (unmarked_skip 4 c)).ne_nil hs
    simp only [Option.map_some, Option.bind_some, Cursor.skip_append hy, Cursor.atLineEnd_append hy,
      Cursor.rest_append]
    simp only [List.isEmpty_eq_false_iff.2 hne,
      List.isEmpty_eq_false_iff.2 (List.append_ne_nil_of_left_ne_nil hne y)]
    split <;> rfl

theorem goesOnInLines_code (ks : List Container) :
    GoesOnInLines codeOf (fun c => codeNext? ks (codeLine c).2) where
  unmarked h := unmarked_codeNext? h
  none_of_nil h := by rw [h, codeNext?_nil]
  next_tail ht hc hmore := by
    rw [codeLine_tail ht hc hmore.ne_nil, codeNext?_append ks hmore ht.atLineEnd]
  read_tail ht hc hmore := by
    rw [codeOf, codeLine_tail ht hc hmore, Cursor.rest_append, isBlankLine_append ht.atLineEnd,
      codeOf]

/-- Indented code ends before the end of the text, or its last line is longer with an empty line
behind the text. -/
theorem indentedLines_tail {x : List Char} (hx : EndsInLine x) (hbare : Bare x)
    (ks : List Container) {bound : Nat} {c : Cursor} (hc : c.rest <:+ x)
    (hblank : isBlankLine c.rest = false) (hb : c.rest.length ≤ bound) :
    (∀ (t : Tail) (bound' : Nat), t.Valid → c.rest.length ≤ bound' →
      indentedLines ks bound' (c.append t.text) =
        ((indentedLines ks bound c).1, t.after (indentedLines ks bound c).2)) ∨
    (∃ pre line, indentedLines ks bound c = (pre ++ [(line, false)], []) ∧
      ∀ bound', c.rest.length ≤ bound' → ∃ line' more rest,
        indentedLines ks bound' (c.append Tail.emptyLine.text) =
          (pre ++ (line', false) :: more, rest) ∧ line.length < line'.length) := by
  have hne : c.rest ≠ [] := by
    intro h
    rw [h] at hblank
    cases hblank
  simp only [indentedLines_eq]
  refine (literalLines_tail (goesOnInLines_code ks) hx hbare hc hne hb).imp_right ?_
  rintro ⟨pre, d, heq, ⟨hd, hlast, hplace⟩, h⟩
  have hfilled : isBlankLine d.rest = false := by
    rcases hplace with rfl | hplace
    · exact hblank
    · exact hplace
  have hfilled' : isBlankLine (d.append Tail.emptyLine.text).rest = false := by
    rw [Cursor.rest_append, isBlankLine_append Tail.valid_emptyLine.atLineEnd, hfilled]
  refine ⟨pre, (codeLine d).1, by rw [heq, codeOf, hfilled], fun bound' hb' => ?_⟩
  obtain ⟨more, rest, heq'⟩ := h bound' hb'
  refine ⟨(codeLine (d.append Tail.emptyLine.text)).1, more, rest, ?_,
    length_codeLine_tail (hx.of_suffix hd) hlast⟩
  rw [heq', codeOf, hfilled']

/-! ## Raw HTML -/

/-- A line holds the mark that ends raw HTML. -/
def isMarked (stop : HtmlBlockEnd) (s : List Char) : Bool :=
  match stop with
  | .mark text => Text.occursIn text.toList (takeLiteral s).1
  | .blankLine => false

/-- The place from which a line goes on with raw HTML. -/
def htmlNext? (ks : List Container) (stop : HtmlBlockEnd) (c : Cursor) : Option Cursor :=
  match Container.followAll? ks (codeLine c).2 with
  | none => none
  | some next =>
    if isMarked stop c.rest ∨ (stop = .blankLine ∧ isBlankLine next.rest) ∨ next.rest.isEmpty then
      none
    else some next

theorem htmlLines_eq (ks : List Container) (stop : HtmlBlockEnd) (bound : Nat) (c : Cursor) :
    htmlLines ks stop bound c =
      literalLines (fun c => (codeLine c).1) (htmlNext? ks stop) bound c := by
  induction bound generalizing c with
  | zero => rfl
  | succ bound ih =>
    have hunfold : htmlLines ks stop (bound + 1) c =
        match Container.followAll? ks (codeLine c).2 with
        | none => ([(codeLine c).1], (codeLine c).2)
        | some next =>
          if isMarked stop c.rest ∨ (stop = .blankLine ∧ isBlankLine next.rest) ∨
              next.rest.isEmpty then
            ([(codeLine c).1], (codeLine c).2)
          else
            ((codeLine c).1 :: (htmlLines ks stop bound next).1, (htmlLines ks stop bound next).2) :=
      rfl
    rw [hunfold, literalLines, htmlNext?]
    cases Container.followAll? ks (codeLine c).2 with
    | none => rfl
    | some next =>
      dsimp only
      split
      · rfl
      · simp only [ih]

theorem unmarked_htmlNext? {ks : List Container} {stop : HtmlBlockEnd} {c d : Cursor}
    (h : htmlNext? ks stop c = some d) : Unmarked (codeLine c).2 d.rest := by
  rw [htmlNext?] at h
  split at h
  · cases h
  next hfollow =>
    split at h
    · cases h
    · obtain rfl := Option.some.inj h
      exact unmarked_followAll? hfollow

theorem htmlNext?_of_nil (ks : List Container) (stop : HtmlBlockEnd) {c : Cursor}
    (h : (codeLine c).2 = []) : htmlNext? ks stop c = none := by
  rw [htmlNext?, h]
  cases hfollow : Container.followAll? ks [] with
  | none => rfl
  | some d =>
    obtain rfl := followAll?_nil hfollow
    simp [Cursor.ofLine]

theorem htmlNext?_tail (ks : List Container) (stop : HtmlBlockEnd) {t : Tail} (ht : t.Valid)
    {c : Cursor} (hc : EndsInLine c.rest) (hmore : Bare (codeLine c).2) :
    htmlNext? ks stop (c.append t.text) = (htmlNext? ks stop c).map (·.append t.text) := by
  have hline : isMarked stop (c.append t.text).rest = isMarked stop c.rest := by
    have hrest : (takeLiteral c.rest).2 ≠ [] := hmore.ne_nil
    cases stop with
    | blankLine => rfl
    | mark text =>
      rw [isMarked, isMarked, Cursor.rest_append, takeLiteral_tail ht hc, Tail.stopAt_of_ne hrest,
        List.append_nil]
  rw [htmlNext?, htmlNext?, codeLine_tail ht hc hmore.ne_nil, hline,
    Container.followAll?_append ht.atLineEnd]
  cases hfollow : Container.followAll? ks (codeLine c).2 with
  | none => rfl
  | some d =>
    have hne := (unmarked_followAll? hfollow).ne_nil hmore
    simp only [Option.map_some, Cursor.rest_append, isBlankLine_append ht.atLineEnd,
      List.isEmpty_eq_false_iff.2 hne,
      List.isEmpty_eq_false_iff.2 (List.append_ne_nil_of_left_ne_nil hne t.text)]
    split <;> rfl

theorem goesOnInLines_html (ks : List Container) (stop : HtmlBlockEnd) :
    GoesOnInLines (fun c => (codeLine c).1) (htmlNext? ks stop) where
  unmarked h := unmarked_htmlNext? h
  none_of_nil h := htmlNext?_of_nil ks stop h
  next_tail ht hc hmore := htmlNext?_tail ks stop ht hc hmore
  read_tail ht hc hmore := by rw [codeLine_tail ht hc hmore]

/-- Raw HTML ends before the end of the text, or is longer with an empty line behind the text. -/
theorem htmlLines_tail {x : List Char} (hx : EndsInLine x) (hbare : Bare x) (ks : List Container)
    (stop : HtmlBlockEnd) {bound : Nat} {c : Cursor} (hc : c.rest <:+ x) (hne : c.rest ≠ [])
    (hb : c.rest.length ≤ bound) :
    (∀ (t : Tail) (bound' : Nat), t.Valid → c.rest.length ≤ bound' →
      htmlLines ks stop bound' (c.append t.text) =
        ((htmlLines ks stop bound c).1, t.after (htmlLines ks stop bound c).2)) ∨
    ((htmlLines ks stop bound c).2 = [] ∧
      ∀ bound', c.rest.length ≤ bound' →
        (htmlLines ks stop bound c).1.flatten.length <
          (htmlLines ks stop bound' (c.append Tail.emptyLine.text)).1.flatten.length) := by
  simp only [htmlLines_eq]
  refine (literalLines_tail (goesOnInLines_html ks stop) hx hbare hc hne hb).imp_right ?_
  rintro ⟨pre, d, heq, ⟨hd, hlast, -⟩, h⟩
  refine ⟨by rw [heq], fun bound' hb' => ?_⟩
  obtain ⟨more, rest, heq'⟩ := h bound' hb'
  have hlt := length_codeLine_tail (hx.of_suffix hd) hlast
  rw [heq, heq']
  simp only [List.flatten_append, List.flatten_cons, List.flatten_nil, List.append_nil,
    List.length_append]
  omega

end Outline

end Treatise.Markdown
