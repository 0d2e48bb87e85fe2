import Treatise.Proofs.Markdown.Recognisers

/-!
# The line that follows, before a tail

How a line goes on with the containers that are open is seen in the line. Where a tail follows the
last line of a text, the next line is blank: it continues no quote, and it interrupts a paragraph.

* `Container.follow_append` — the containers that a line continues;
* `Blank.follow`, `Blank.followingLine` — what a blank line continues;
* `FollowingLine.interrupts_append` — whether a line interrupts a paragraph.
-/

namespace Treatise.Markdown

/-! ## Places -/

namespace Cursor

/-- The place, where more text follows. -/
def append (c : Cursor) (y : List Char) : Cursor := { c with rest := c.rest ++ y }

@[simp] theorem rest_append (c : Cursor) (y : List Char) : (c.append y).rest = c.rest ++ y := rfl

theorem ofLine_append (x y : List Char) : ofLine (x ++ y) = (ofLine x).append y := rfl

/-- Reads one column, if it is blank. -/
def column? (c : Cursor) : Option Cursor :=
  if 0 < c.owed then some { c with owed := c.owed - 1 }
  else match c.rest with
    | ' ' :: s => some ⟨s, c.column + 1, 0, c.size + 1⟩
    | '\t' :: s => some ⟨s, c.column + (4 - c.column % 4), 4 - c.column % 4 - 1, c.size + 1⟩
    | _ => none

theorem skip_succ (n : Nat) (c : Cursor) :
    c.skip (n + 1) =
      match c.column? with
      | none => (0, c)
      | some c => ((c.skip n).1 + 1, (c.skip n).2) := rfl

theorem column?_suffix {c d : Cursor} (h : c.column? = some d) : d.rest <:+ c.rest := by
  unfold column? at h
  split at h
  · obtain rfl := Option.some.inj h
    exact List.suffix_refl _
  · split at h
    next heq =>
      obtain rfl := Option.some.inj h
      rw [heq]
      exact List.suffix_cons ..
    next heq =>
      obtain rfl := Option.some.inj h
      rw [heq]
      exact List.suffix_cons ..
    · cases h

theorem skip_suffix (n : Nat) (c : Cursor) : (c.skip n).2.rest <:+ c.rest := by
  induction n generalizing c with
  | zero => exact List.suffix_refl _
  | succ n ih =>
    rw [skip_succ]
    split
    · exact List.suffix_refl _
    next heq => exact (ih _).trans (column?_suffix heq)

section

variable {y : List Char} (hy : Markdown.atLineEnd y = true)
include hy

theorem atLineEnd_append (c : Cursor) : (c.append y).atLineEnd = c.atLineEnd :=
  Markdown.atLineEnd_append hy c.rest

theorem column?_append (c : Cursor) : (c.append y).column? = c.column?.map (·.append y) := by
  by_cases howed : 0 < c.owed
  · simp [column?, howed, append]
  · cases hc : c.rest with
    | nil =>
      cases y with
      | nil => simp [column?, howed, hc, append]
      | cons e y => rcases isLineEnd_iff.1 hy with rfl | rfl <;> simp [column?, howed, hc, append]
    | cons e s =>
      simp only [column?, append, howed, if_false, hc, List.cons_append]
      by_cases hspace : e = ' '
      · subst hspace; rfl
      · by_cases htab : e = '\t'
        · subst htab; rfl
        · simp [hspace, htab]

theorem skip_append (n : Nat) (c : Cursor) :
    (c.append y).skip n = ((c.skip n).1, (c.skip n).2.append y) := by
  induction n generalizing c with
  | zero => rfl
  | succ n ih =>
    rw [skip_succ, skip_succ, column?_append hy]
    cases c.column? with
    | none => rfl
    | some d => simp only [Option.map_some, ih]

theorem skipAll_append (c : Cursor) : (c.append y).skipAll = c.skipAll.append y := by
  have hstop : Stops (fun d => d == ' ' || d == '\t') y := stops_of_atLineEnd ⟨rfl, rfl⟩ hy
  simp [skipAll, append, takeWhile_append hstop, dropWhile_append hstop]

theorem skipChar?_append {d : Char} (hd : isLineEnd d = false) (c : Cursor) :
    (c.append y).skipChar? d = (c.skipChar? d).map (·.append y) := by
  cases hc : c.rest with
  | nil =>
    cases y with
    | nil => simp [skipChar?, hc, append]
    | cons e y =>
      have hne : e ≠ d := by rintro rfl; exact head?_ne hy hd rfl
      simp [skipChar?, hc, append, hne]
  | cons e s =>
    simp only [skipChar?, append, hc, List.cons_append]
    split <;> rfl

theorem skipToText_append (line : List Char) (c : Cursor) :
    (c.append y).skipToText (line ++ y) = (c.skipToText line).append y := by
  have hlen : (lineText line).length ≤ line.length :=
    (List.takeWhile_prefix (!isLineEnd ·)).length_le
  rw [skipToText, skipAll_append hy, skipToText, rest_append, isBlankLine_append hy,
    lineText_append hy]
  split
  · simp only [append]
    rw [List.drop_append_of_le_length (by omega)]
  · rfl

end

end Cursor

/-! ## Containers -/

theorem Cursor.skipAll_suffix (c : Cursor) : c.skipAll.rest <:+ c.rest := List.dropWhile_suffix _

theorem Cursor.skipChar?_suffix {d : Char} {c c' : Cursor} (h : c.skipChar? d = some c') :
    c'.rest <:+ c.rest ∧ c'.rest.length < c.rest.length := by
  unfold skipChar? at h
  split at h
  · cases h
  next e s heq =>
    split at h
    · obtain rfl := Option.some.inj h
      rw [heq]
      exact ⟨List.suffix_cons .., Nat.lt_succ_self _⟩
    · cases h

namespace Container

theorem readQuoteMark?_suffix {c c' : Cursor} (h : readQuoteMark? c = some c') :
    c'.rest <:+ c.rest ∧ c'.rest.length < c.rest.length := by
  obtain ⟨d, hd, rfl⟩ := Option.map_eq_some_iff.1 h
  have hskip := Cursor.skip_suffix 1 d
  obtain ⟨hsuffix, hlt⟩ := Cursor.skipChar?_suffix hd
  exact ⟨hskip.trans hsuffix, Nat.lt_of_le_of_lt hskip.length_le hlt⟩

theorem continue?_suffix {k : Container} {c c' : Cursor} (h : k.continue? c = some c') :
    c'.rest <:+ c.rest := by
  cases k with
  | quote => exact (readQuoteMark?_suffix h).1.trans (Cursor.skip_suffix 3 c)
  | list =>
    obtain rfl := Option.some.inj h
    exact List.suffix_refl _
  | item indent =>
    simp only [continue?] at h
    split at h
    · obtain rfl := Option.some.inj h
      exact Cursor.skip_suffix indent c
    · cases h

theorem follow_suffix (ks : List Container) (c : Cursor) : (follow ks c).2.rest <:+ c.rest := by
  induction ks generalizing c with
  | nil => exact List.suffix_refl _
  | cons k ks ih =>
    rw [follow]
    split
    next heq => exact (ih _).trans (continue?_suffix heq)
    next => exact List.suffix_refl _

section

variable {y : List Char} (hy : Markdown.atLineEnd y = true)
include hy

theorem readQuoteMark?_append (c : Cursor) :
    readQuoteMark? (c.append y) = (readQuoteMark? c).map (·.append y) := by
  rw [readQuoteMark?, Cursor.skipChar?_append hy rfl, readQuoteMark?, Option.map_map,
    Option.map_map]
  congr 1
  funext d
  exact congrArg Prod.snd (Cursor.skip_append hy 1 d)

theorem continue?_append (k : Container) (c : Cursor) :
    k.continue? (c.append y) = (k.continue? c).map (·.append y) := by
  cases k with
  | quote => rw [continue?, Cursor.skip_append hy, readQuoteMark?_append hy, continue?]
  | list => rfl
  | item indent =>
    simp only [continue?, Cursor.skip_append hy, Cursor.atLineEnd_append hy]
    split <;> rfl

theorem follow_append (ks : List Container) (c : Cursor) :
    follow ks (c.append y) = ((follow ks c).1, (follow ks c).2.append y) := by
  induction ks generalizing c with
  | nil => rfl
  | cons k ks ih =>
    rw [follow, continue?_append hy, follow]
    cases k.continue? c with
    | none => rfl
    | some d => exact ih d

theorem followAll?_append (ks : List Container) (x : List Char) :
    followAll? ks (x ++ y) = (followAll? ks x).map (·.append y) := by
  rw [followAll?, Cursor.ofLine_append, follow_append hy, followAll?]
  rcases follow ks (Cursor.ofLine x) with ⟨_ | n, c⟩ <;> rfl

end

theorem followAll?_suffix {ks : List Container} {s : List Char} {c : Cursor}
    (h : followAll? ks s = some c) : c.rest <:+ s := by
  have hfollow := follow_suffix ks (Cursor.ofLine s)
  unfold followAll? at h
  split at h
  next heq =>
    obtain rfl := Option.some.inj h
    rw [heq] at hfollow
    exact hfollow
  · cases h

end Container

theorem FollowingLine.read_eq (ks : List Container) (s : List Char) :
    FollowingLine.read ks s =
      ⟨(Container.follow ks (Cursor.ofLine s)).1 == 0,
        ((Container.follow ks (Cursor.ofLine s)).2.skip 4).1 == 4,
        ((Container.follow ks (Cursor.ofLine s)).2.skip 4).2⟩ := rfl

/-! ## Blank lines -/

namespace Blank

theorem head?_ne {s : List Char} (h : Blank s) {c : Char} (hc : isAnyBlank c = false) :
    s.head? ≠ some c := by
  cases s with
  | nil => nofun
  | cons d s =>
    intro hd
    obtain rfl := Option.some.inj hd
    rcases blank_cons.1 h with hend | ⟨rfl | rfl, -⟩
    · rw [isAnyBlank, hend, Bool.or_true] at hc
      cases hc
    · cases hc
    · cases hc

theorem isBlankLine {s : List Char} (h : Blank s) : isBlankLine s = true := by
  induction s with
  | nil => rfl
  | cons c s ih =>
    rcases blank_cons.1 h with hend | ⟨hc, hs⟩
    · rw [Markdown.isBlankLine, dropBlanks, List.dropWhile_cons_of_neg]
      · exact hend
      · rcases isLineEnd_iff.1 hend with rfl | rfl <;> decide
    · rw [Markdown.isBlankLine, dropBlanks, List.dropWhile_cons_of_pos]
      · exact ih hs
      · rcases hc with rfl | rfl <;> rfl

theorem skipAll {c : Cursor} (h : Blank c.rest) : c.skipAll.atLineEnd = true := h

theorem column? {c d : Cursor} (h : Blank c.rest) (hd : c.column? = some d) : Blank d.rest := by
  unfold Cursor.column? at hd
  split at hd
  · obtain rfl := Option.some.inj hd
    exact h
  · split at hd
    next heq =>
      obtain rfl := Option.some.inj hd
      rw [heq, blank_cons] at h
      exact h.resolve_left nofun |>.2
    next heq =>
      obtain rfl := Option.some.inj hd
      rw [heq, blank_cons] at h
      exact h.resolve_left nofun |>.2
    · cases hd

theorem atLineEnd_of_column? {c : Cursor} (h : Blank c.rest) (hc : c.column? = none) :
    c.atLineEnd = true := by
  unfold Cursor.column? at hc
  split at hc
  · cases hc
  · rw [Cursor.atLineEnd]
    cases hs : c.rest with
    | nil => rfl
    | cons d s =>
      rw [hs] at h hc
      rcases blank_cons.1 h with hend | ⟨rfl | rfl, -⟩
      · exact hend
      · cases hc
      · cases hc

/-- The blanks of a blank line are read up to its end. -/
theorem skip (n : Nat) {c : Cursor} (h : Blank c.rest) :
    Blank (c.skip n).2.rest ∧ ((c.skip n).1 = n ∨ (c.skip n).2.atLineEnd = true) := by
  induction n generalizing c with
  | zero => exact ⟨h, .inl rfl⟩
  | succ n ih =>
    rw [Cursor.skip_succ]
    cases hc : c.column? with
    | none => exact ⟨h, .inr (h.atLineEnd_of_column? hc)⟩
    | some d =>
      obtain ⟨hblank, hend⟩ := ih (h.column? hc)
      exact ⟨hblank, hend.imp (congrArg (· + 1)) id⟩

theorem readQuoteMark? {c : Cursor} (h : Blank c.rest) : Container.readQuoteMark? c = none := by
  rw [Container.readQuoteMark?, Cursor.skipChar?]
  cases hs : c.rest with
  | nil => rfl
  | cons d s =>
    have hne : d ≠ '>' := by
      rintro rfl
      exact h.head?_ne (c := '>') rfl (by rw [hs]; rfl)
    simp [hne]

/-- A blank line continues all containers up to the first quote. -/
theorem follow (ks : List Container) {c : Cursor} (h : Blank c.rest) :
    (Container.follow ks c).1 = (ks.dropWhile (· != .quote)).length ∧
      Blank (Container.follow ks c).2.rest := by
  induction ks generalizing c with
  | nil => exact ⟨rfl, h⟩
  | cons k ks ih =>
    cases k with
    | quote =>
      rw [Container.follow, Container.continue?, (h.skip 3).1.readQuoteMark?]
      exact ⟨rfl, h⟩
    | list mark start tight => exact ih h
    | item indent =>
      obtain ⟨hblank, hend⟩ := h.skip indent
      rw [Container.follow, Container.continue?]
      simp only [if_pos hend]
      exact ih hblank

/-- A paragraph ends before a blank line. -/
theorem followingLine (ks : List Container) {s : List Char} (h : Blank s) :
    Blank (FollowingLine.read ks s).place.rest ∧
      ((FollowingLine.read ks s).isIndented = false →
        (FollowingLine.read ks s).place.atLineEnd = true) := by
  obtain ⟨hblank, hend⟩ := (follow ks (c := Cursor.ofLine s) h).2.skip 4
  refine ⟨hblank, fun hindent => hend.resolve_left fun h4 => ?_⟩
  rw [FollowingLine.read_eq, h4] at hindent
  cases hindent

theorem underlineLevel? (ks : List Container) {s : List Char} (h : Blank s) :
    (FollowingLine.read ks s).underlineLevel? = none := by
  unfold FollowingLine.underlineLevel?
  split
  · rfl
  next hindent =>
    have hend := (h.followingLine ks).2 (by simpa using hindent)
    rw [Cursor.atLineEnd] at hend
    cases hs : (FollowingLine.read ks s).place.rest with
    | nil => rfl
    | cons c s =>
      rw [hs] at hend
      rcases isLineEnd_iff.1 hend with rfl | rfl <;> rfl

end Blank

/-! ## Interrupting a paragraph -/

theorem isAnyBlank_of_mem_takeLine {s : List Char} (h : Blank s) {c : Char}
    (hc : c ∈ (takeLine s).1) : isAnyBlank c = true := by
  induction s with
  | nil => cases hc
  | cons d s ih =>
    by_cases hend : isLineEnd d = true
    · have htake : (takeLine (d :: s)).1 = (splitLineEnd (d :: s)).1 := by
        simp [takeLine, hend]
      rw [isAnyBlank, isLineEnd_of_mem_splitLineEnd (htake ▸ hc), Bool.or_true]
    · have htake : (takeLine (d :: s)).1 = d :: (takeLine s).1 := by
        simp [takeLine, hend]
      obtain ⟨hd, hs⟩ := (blank_cons.1 h).resolve_left hend
      rw [htake] at hc
      rcases List.mem_cons.1 hc with rfl | hc
      · rcases hd with rfl | rfl <;> rfl
      · exact ih hs hc

theorem Blank.delimiterRow? {s : List Char} (h : Blank s) : delimiterRow? s = none := by
  have hpipe : (takeLine s).1.contains '|' = false := by
    rw [← Bool.not_eq_true, List.contains_iff_mem]
    intro hmem
    cases isAnyBlank_of_mem_takeLine h hmem
  simp only [Markdown.delimiterRow?, hpipe, Bool.false_eq_true, false_and, and_false, if_false]

theorem Blank.tableHead? (head : List Char) {s : List Char} (h : Blank s) :
    tableHead? head s = none := by
  simp [Markdown.tableHead?, h.delimiterRow?]

theorem Blank.followAll? {ks : List Container} {s : List Char} (h : Blank s) {c : Cursor}
    (hc : Container.followAll? ks s = some c) : Blank c.rest := by
  have hfollow := (Blank.follow ks (c := Cursor.ofLine s) h).2
  unfold Container.followAll? at hc
  split at hc
  next heq =>
    obtain rfl := Option.some.inj hc
    rwa [heq] at hfollow
  · cases hc

theorem interruptsText_eq (inAll inTable : Bool) (s : List Char) :
    interruptsText inAll inTable s =
      (atLineEnd s || isRule s || (headingLevel? s).isSome || (fence? s).isSome ||
        s.head? == some '>' || itemInterrupts inAll inTable s || (htmlStart? true s).isSome) := by
  unfold interruptsText
  congr 1
  cases s with
  | nil => rfl
  | cons c s =>
    by_cases hc : c = '<'
    · subst hc; rfl
    · simp [htmlStart?, hc]

theorem FollowingLine.place_suffix (ks : List Container) (x : List Char) :
    (read ks x).place.rest <:+ x :=
  (Cursor.skip_suffix 4 _).trans (Container.follow_suffix ks (Cursor.ofLine x))

section Valid

variable {t : Tail} (ht : t.Valid)
include ht

theorem itemInterrupts_append (inAll inTable : Bool) (x : List Char) :
    itemInterrupts inAll inTable (x ++ t.text) = itemInterrupts inAll inTable x := by
  rw [itemInterrupts, itemStart?_append ht.atLineEnd, itemInterrupts]
  cases itemStart? x with
  | none => rfl
  | some m => simp only [Option.map_some, isBlankLine_append ht.atLineEnd]

theorem interruptsText_tail {x : List Char} (hx : EndsInLine x) (inAll inTable : Bool) :
    interruptsText inAll inTable (x ++ t.text) = interruptsText inAll inTable x := by
  have hy := ht.atLineEnd
  have hquote : ((x ++ t.text).head? == some '>') = (x.head? == some '>') := by
    rw [Bool.eq_iff_iff, beq_iff_eq, beq_iff_eq]
    exact head?_append hy rfl x
  rw [interruptsText_eq, atLineEnd_append hy, isRule_append hy, headingLevel?_append hy,
    fence?_tail ht hx, Option.isSome_map, hquote, itemInterrupts_append ht,
    htmlStart?_append hy, interruptsText_eq]

theorem beginsTable_tail (ks : List Container) {x : List Char} (hx : EndsInLine x) :
    beginsTable ks (x ++ t.text) = beginsTable ks x := by
  have hpipe : ((x ++ t.text).head? == some '|') = (x.head? == some '|') := by
    rw [Bool.eq_iff_iff, beq_iff_eq, beq_iff_eq]
    exact head?_append ht.atLineEnd rfl x
  have hrest := hx.of_suffix (takeLine_suffix x)
  rw [beginsTable, hpipe, takeLine_tail ht hx, lineText_append ht.atLineEnd, beginsTable]
  congr 1
  by_cases hmore : (takeLine x).2 = []
  · -- the line is the last one, and no head of a table
    have hnone {s : List Char} {c : Cursor} (hs : Blank s) (hc : Container.followAll? ks s = some c) :
        (tableHead? (lineText x) c.rest).isSome = false := by
      rw [(hs.followAll? hc).tableHead?]
      rfl
    rw [hmore]
    cases hc : Container.followAll? ks (t.after []) with
    | none =>
      cases hc' : Container.followAll? ks [] with
      | none => rfl
      | some c' => exact (hnone .nil hc').symm
    | some c =>
      cases hc' : Container.followAll? ks [] with
      | none => exact hnone ht.blank hc
      | some c' => exact (hnone ht.blank hc).trans (hnone .nil hc').symm
  · rw [Tail.after_of_ne hmore, Container.followAll?_append ht.atLineEnd]
    cases hc : Container.followAll? ks (takeLine x).2 with
    | none => rfl
    | some c =>
      simp only [Option.map_some, Cursor.rest_append,
        tableHead?_tail ht (hrest.of_suffix (Container.followAll?_suffix hc)), Option.isSome_map]

theorem interrupts_tail (ks : List Container) (inAll : Bool) {x : List Char} (hx : EndsInLine x) :
    interrupts ks inAll (x ++ t.text) = interrupts ks inAll x := by
  rw [interrupts, interruptsText_tail ht hx, beginsTable_tail ht ks hx, interrupts]

namespace FollowingLine

theorem read_append (ks : List Container) (x : List Char) :
    read ks (x ++ t.text) = { read ks x with place := (read ks x).place.append t.text } := by
  rw [read_eq, Cursor.ofLine_append, Container.follow_append ht.atLineEnd,
    Cursor.skip_append ht.atLineEnd]
  rfl

theorem interrupts_append (ks : List Container) {x : List Char} (hx : EndsInLine x) :
    (read ks (x ++ t.text)).interrupts ks = (read ks x).interrupts ks := by
  rw [interrupts, read_append ht, interrupts]
  congr 1
  exact interrupts_tail ht ks _ (hx.of_suffix (place_suffix ks x))

theorem underlineLevel?_append (ks : List Container) (x : List Char) :
    (read ks (x ++ t.text)).underlineLevel? = (read ks x).underlineLevel? := by
  rw [underlineLevel?, read_append ht, underlineLevel?, Cursor.rest_append,
    Markdown.underlineLevel?_append ht.atLineEnd]

end FollowingLine

end Valid

end Treatise.Markdown
