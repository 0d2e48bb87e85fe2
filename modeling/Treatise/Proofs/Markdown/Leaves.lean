import Treatise.Proofs.Markdown.Chomping
import Treatise.Proofs.Markdown.Labels

/-!
# Paragraphs before a tail

A paragraph, a table or a link definition that ends before the end of a text is the same whatever
follows the text; one that ends with the text gets the end of its last line and no more.
-/

namespace Treatise.Markdown

theorem splitLineEnd_ne_nil {c : Char} (hc : isLineEnd c = true) (s : List Char) :
    (splitLineEnd (c :: s)).1 ≠ [] := by
  unfold splitLineEnd
  split
  · exact List.cons_ne_nil _ _
  next heq =>
    obtain ⟨rfl, rfl⟩ := List.cons.inj heq
    rw [if_pos hc]
    exact List.cons_ne_nil _ _
  next heq => cases heq

theorem length_takeLine_lt {s : List Char} (h : s ≠ []) : (takeLine s).2.length < s.length := by
  have happend := congrArg List.length (takeLine_append s)
  rw [List.length_append] at happend
  have hpos : (takeLine s).1 ≠ [] := by
    obtain ⟨c, s, rfl⟩ := List.exists_cons_of_ne_nil h
    by_cases hc : isLineEnd c = true
    · have hsplit := splitLineEnd_ne_nil hc s
      simp [takeLine, hc, hsplit]
    · simp [takeLine, hc]
  have := List.length_pos_iff.2 hpos
  omega

namespace Outline

/-! ## Paragraphs -/

/-- No paragraph goes on with a blank line. -/
theorem paragraphLines_of_blank (ks : List Container) (bound : Nat) {s : List Char}
    (h : Blank s) : paragraphLines ks bound s = ([], none, s) := by
  cases bound with
  | zero => rfl
  | succ bound =>
    have hstop : (FollowingLine.read ks s).place.skipAll.atLineEnd = true :=
      (h.followingLine ks).1.skipAll
    simp [paragraphLines, h.underlineLevel? ks, hstop]

/-- The lines of a paragraph are the text up to what follows it. -/
theorem paragraphLines_append (ks : List Container) (bound : Nat) (s : List Char)
    (h : (paragraphLines ks bound s).2.1 = none) :
    (paragraphLines ks bound s).1.flatten ++ (paragraphLines ks bound s).2.2 = s := by
  induction bound generalizing s with
  | zero => rfl
  | succ bound ih =>
    revert h
    rw [paragraphLines]
    dsimp only
    split
    · intro h
      cases h
    · split
      · exact fun _ => rfl
      · intro h
        rw [List.flatten_cons, List.append_assoc, ih _ h, takeLine_append]

theorem paragraphLines_suffix (ks : List Container) (bound : Nat) (s : List Char) :
    (paragraphLines ks bound s).2.2 <:+ s := by
  induction bound generalizing s with
  | zero => exact List.suffix_refl s
  | succ bound ih =>
    rw [paragraphLines]
    dsimp only
    split
    · exact (takeLine_suffix _).trans (FollowingLine.place_suffix ks s)
    · split
      · exact List.suffix_refl s
      · exact (ih _).trans (takeLine_suffix s)

section Valid

variable {t : Tail} (ht : t.Valid)
include ht

theorem paragraphLines_tail (ks : List Container) {bound bound' : Nat} {r : List Char}
    (hr : EndsInLine r) (hne : r ≠ []) (hb : r.length ≤ bound) (hb' : r.length ≤ bound') :
    ∃ lines, paragraphLines ks bound' (r ++ t.text) =
        (lines, (paragraphLines ks bound r).2.1, t.after (paragraphLines ks bound r).2.2) ∧
      lines.flatten = (paragraphLines ks bound r).1.flatten ++
        if (paragraphLines ks bound r).2.1 = none then t.stopAt (paragraphLines ks bound r).2.2
        else [] := by
  induction bound generalizing bound' r with
  | zero => exact absurd (List.eq_nil_of_length_eq_zero (by omega)) hne
  | succ bound ih =>
    have hpos := List.length_pos_iff.2 hne
    obtain ⟨bound', rfl⟩ : ∃ n, bound' = n + 1 := ⟨bound' - 1, by omega⟩
    have hplace := hr.of_suffix (FollowingLine.place_suffix ks r)
    have hatEnd : (FollowingLine.read ks (r ++ t.text)).place.skipAll.atLineEnd =
        (FollowingLine.read ks r).place.skipAll.atLineEnd := by
      rw [FollowingLine.read_append ht]
      exact (congrArg Cursor.atLineEnd (Cursor.skipAll_append ht.atLineEnd _)).trans
        (Cursor.atLineEnd_append ht.atLineEnd _)
    have hinAll : (FollowingLine.read ks (r ++ t.text)).inAll = (FollowingLine.read ks r).inAll := by
      rw [FollowingLine.read_append ht]
    have hrest : (takeLine (FollowingLine.read ks (r ++ t.text)).place.rest).2 =
        t.after (takeLine (FollowingLine.read ks r).place.rest).2 := by
      rw [FollowingLine.read_append ht]
      exact congrArg Prod.snd (takeLine_tail ht hplace)
    rw [paragraphLines, paragraphLines]
    simp only [hinAll, FollowingLine.underlineLevel?_append ht,
      FollowingLine.interrupts_append ht ks hr, hatEnd, hrest]
    split
    · exact ⟨[], rfl, rfl⟩
    · split
      · refine ⟨[], ?_, ?_⟩
        · rw [Tail.after_of_ne hne]
        · simp [Tail.stopAt_of_ne hne]
      · rw [takeLine_tail ht hr]
        have hlt := length_takeLine_lt hne
        by_cases hlast : (takeLine r).2 = []
        · -- the line is the last one of the text, and its end is in the tail
          refine ⟨[(takeLine r).1 ++ t.stop], ?_, ?_⟩
          · simp [hlast, paragraphLines_of_blank ks _ ht.blank,
              paragraphLines_of_blank ks _ Blank.nil]
          · simp [hlast, paragraphLines_of_blank ks _ Blank.nil]
        · obtain ⟨lines, heq, hlines⟩ := ih (hr.of_suffix (takeLine_suffix r)) hlast
            (by omega) (show _ ≤ bound' by omega)
          refine ⟨(takeLine r).1 :: lines, ?_, ?_⟩
          · simp only [Tail.after_of_ne hlast, Tail.stopAt_of_ne hlast, heq, List.append_nil]
          · simp only [List.flatten_cons, hlines, List.append_assoc]

/-- A paragraph that is all of a text is the same with the end of its last line. -/
theorem chomp_paragraph_append_stop (ks : List Container) {x : List Char}
    (hx : EndsInLine x) :
    (Block.paragraph ⟨ks, x ++ t.stop, 0, false⟩).chomp =
      (Block.paragraph ⟨ks, x, 0, false⟩).chomp := by
  have hself : (Passage.mk ks x 0 false).chomp = ⟨ks, x, 0, false⟩ := by
    simpa using Passage.chomp_append_stop ks hx (.inl rfl)
  rw [Block.chomp, Block.chomp, Passage.chomp_append_stop ks hx ht.stop, hself]

/-- A paragraph that goes to the end of the text has the end of the line in the tail. -/
theorem readParagraph_tail (ks : List Container) {bound bound' : Nat} {x : List Char}
    (hx : EndsInLine x) (hne : x ≠ []) (hb : x.length ≤ bound + 1) (hb' : x.length ≤ bound' + 1) :
    (readParagraph ks bound' (x ++ t.text)).1.chomp = (readParagraph ks bound x).1.chomp ∧
      (readParagraph ks bound' (x ++ t.text)).2 = t.after (readParagraph ks bound x).2 := by
  have hshort := length_takeLine_lt hne
  simp only [readParagraph, takeLine_tail ht hx]
  by_cases hlast : (takeLine x).2 = []
  · -- a paragraph of one line
    have hline : (takeLine x).1 = x := by simpa [hlast] using takeLine_append x
    rw [hlast, hline, Tail.after_nil, Tail.stopAt_nil, paragraphLines_of_blank ks _ ht.blank,
      paragraphLines_of_blank ks _ Blank.nil]
    refine ⟨?_, rfl⟩
    simp only [List.flatten_cons, List.flatten_nil, List.append_nil]
    exact chomp_paragraph_append_stop ht ks hx
  · obtain ⟨lines, heq, hlines⟩ := paragraphLines_tail ht ks
      (hx.of_suffix (takeLine_suffix x)) hlast (show _ ≤ bound by omega)
      (show _ ≤ bound' by omega)
    rw [Tail.after_of_ne hlast, Tail.stopAt_of_ne hlast, List.append_nil, heq]
    cases hlevel : (paragraphLines ks bound (takeLine x).2).2.1 with
    | some level =>
      rw [hlevel, if_neg (by simp), List.append_nil] at hlines
      simp [hlines]
    | none =>
      rw [hlevel, if_pos rfl] at hlines
      refine ⟨?_, rfl⟩
      by_cases hend : (paragraphLines ks bound (takeLine x).2).2.2 = []
      · have hall : (takeLine x).1 ++ (paragraphLines ks bound (takeLine x).2).1.flatten = x := by
          have happend := paragraphLines_append ks bound (takeLine x).2 hlevel
          rw [hend, List.append_nil] at happend
          rw [happend, takeLine_append]
        rw [hend, Tail.stopAt_nil] at hlines
        simp only [List.flatten_cons, hlines, ← List.append_assoc, hall]
        exact chomp_paragraph_append_stop ht ks hx
      · rw [Tail.stopAt_of_ne hend, List.append_nil] at hlines
        simp [hlines]

/-! ## Tables -/

end Valid

/-- No row of a table is blank. -/
theorem tableRows_of_blank (ks : List Container) (columns bound : Nat) {s : List Char}
    (h : Blank s) : tableRows ks columns bound s = ([], s) := by
  cases bound with
  | zero => rfl
  | succ bound =>
    rw [tableRows]
    cases hfollow : Container.followAll? ks s with
    | none => rfl
    | some c =>
      have hstop : interruptsText true true c.skipAll.rest = true := by
        rw [interruptsText_eq,
          show atLineEnd c.skipAll.rest = true from (h.followAll? hfollow).skipAll]
        rfl
      simp [hstop]

theorem tableRows_suffix (ks : List Container) (columns bound : Nat) (s : List Char) :
    (tableRows ks columns bound s).2 <:+ s := by
  induction bound generalizing s with
  | zero => exact List.suffix_refl s
  | succ bound ih =>
    rw [tableRows]
    cases hfollow : Container.followAll? ks s with
    | none => exact List.suffix_refl s
    | some c =>
      dsimp only
      split
      · exact List.suffix_refl s
      · exact (ih _).trans ((takeLine_suffix _).trans
          ((Cursor.skipAll_suffix c).trans (Container.followAll?_suffix hfollow)))

theorem rest_of_delimiterRow? {s rest : List Char} {columns : Nat}
    (h : delimiterRow? s = some (columns, rest)) : rest = (takeLine s).2 := by
  simp only [delimiterRow?, Option.ite_none_right_eq_some, Option.some.injEq, Prod.mk.injEq] at h
  exact h.2.2.symm

theorem tableHead?_suffix {head s rest : List Char} (h : tableHead? head s = some rest) :
    rest <:+ s := by
  rw [tableHead?] at h
  split at h
  · cases h
  · cases hrow : delimiterRow? s with
    | none => simp [hrow] at h
    | some p =>
      simp only [hrow, Option.ite_none_right_eq_some, Option.some.injEq] at h
      rw [← h.2, rest_of_delimiterRow? hrow]
      exact takeLine_suffix s

/-- The second line of a table is not blank. -/
theorem readTable?_of_blank (ks : List Container) (bound : Nat) {s : List Char}
    (h : Blank (takeLine s).2) : readTable? ks bound s = none := by
  simp only [readTable?]
  split
  · rfl
  · cases hfollow : Container.followAll? ks (takeLine s).2 with
    | none => rfl
    | some c => simp only [(h.followAll? hfollow).tableHead?]

theorem readTable?_suffix {ks : List Container} {bound : Nat} {s : List Char}
    {p : Block × List Char} (h : readTable? ks bound s = some p) :
    p.2 <:+ (takeLine s).2 := by
  simp only [readTable?] at h
  split at h
  · cases h
  · split at h
    · cases h
    next c hfollow =>
      split at h
      · cases h
      next rest hhead =>
        obtain rfl := Option.some.inj h
        exact (tableRows_suffix ..).trans
          ((tableHead?_suffix hhead).trans (Container.followAll?_suffix hfollow))

theorem readParagraph_suffix (ks : List Container) (bound : Nat) (s : List Char) :
    (readParagraph ks bound s).2 <:+ (takeLine s).2 := by
  have h := paragraphLines_suffix ks bound (takeLine s).2
  rw [readParagraph]
  dsimp only
  split <;> exact h

section Valid

variable {t : Tail} (ht : t.Valid)
include ht

theorem tableRows_tail (ks : List Container) (columns : Nat) {bound bound' : Nat} {r : List Char}
    (hr : EndsInLine r) (hb : r.length ≤ bound) (hb' : r.length ≤ bound') :
    tableRows ks columns bound' (t.after r) =
      ((tableRows ks columns bound r).1, t.after (tableRows ks columns bound r).2) := by
  induction bound generalizing bound' r with
  | zero =>
    obtain rfl : r = [] := List.eq_nil_of_length_eq_zero (by omega)
    rw [Tail.after_nil, tableRows_of_blank ks _ _ ht.blank]
    rfl
  | succ bound ih =>
    by_cases hne : r = []
    · rw [hne, Tail.after_nil, tableRows_of_blank ks _ _ ht.blank,
        tableRows_of_blank ks _ _ Blank.nil, Tail.after_nil]
    have hpos := List.length_pos_iff.2 hne
    obtain ⟨bound', rfl⟩ : ∃ n, bound' = n + 1 := ⟨bound' - 1, by omega⟩
    rw [Tail.after_of_ne hne, tableRows, tableRows, Container.followAll?_append ht.atLineEnd]
    cases hfollow : Container.followAll? ks r with
    | none => simp [Tail.after_of_ne hne]
    | some c =>
      have hsuffix : c.skipAll.rest <:+ r :=
        (Cursor.skipAll_suffix c).trans (Container.followAll?_suffix hfollow)
      have hc := hr.of_suffix hsuffix
      simp only [Option.map_some, Cursor.skipAll_append ht.atLineEnd, Cursor.rest_append,
        interruptsText_tail ht hc, takeLine_tail ht hc,
        row_append (ht.atLineEnd_stopAt _)]
      split
      · rw [Tail.after_of_ne hne]
      next hrow =>
        -- a row takes a line of the text
        have hcne : c.skipAll.rest ≠ [] := by
          intro hnil
          rw [hnil] at hrow
          exact hrow (.inl rfl)
        have hlt := length_takeLine_lt hcne
        have hle := hsuffix.length_le
        rw [ih (hc.of_suffix (takeLine_suffix _)) (by omega) (by omega)]

theorem readTable?_tail (ks : List Container) {bound bound' : Nat} {x : List Char}
    (hx : EndsInLine x) (hne : x ≠ []) (hb : x.length ≤ bound + 1) (hb' : x.length ≤ bound' + 1) :
    readTable? ks bound' (x ++ t.text) =
      (readTable? ks bound x).map fun p => (p.1, t.after p.2) := by
  have hrest := hx.of_suffix (takeLine_suffix x)
  have hshort := length_takeLine_lt hne
  by_cases hlast : (takeLine x).2 = []
  · -- the delimiters would stand in a blank line
    rw [readTable?_of_blank, readTable?_of_blank]
    · rfl
    · rw [hlast]; exact .nil
    · rw [takeLine_tail ht hx, hlast]; exact ht.blank
  · simp only [readTable?, takeLine_tail ht hx, lineText_append (ht.atLineEnd_stopAt _),
      row_append (ht.atLineEnd_stopAt _)]
    rw [Tail.after_of_ne hlast, Container.followAll?_append ht.atLineEnd]
    split
    · rfl
    cases hfollow : Container.followAll? ks (takeLine x).2 with
    | none => rfl
    | some c =>
      have hsuffix := Container.followAll?_suffix hfollow
      have hc := hrest.of_suffix hsuffix
      simp only [Option.map_some, Cursor.rest_append, tableHead?_tail ht hc]
      cases hhead : tableHead? (lineText (takeLine x).1) c.rest with
      | none => rfl
      | some rest =>
        have hrows := tableHead?_suffix hhead
        have hle := hrows.length_le
        have hle' := hsuffix.length_le
        simp only [Option.map_some,
          tableRows_tail ht ks _ (hc.of_suffix hrows) (show _ ≤ bound by omega)
            (show _ ≤ bound' by omega)]

/-! ## Definitions and what follows them -/

end Valid

/-- The text goes on in the next line as a paragraph does, unless what is asked for holds and the line
is an underline. -/
def definitionStep (ks : List Container) (mayUnderline : FollowingLine → Bool) : LineStep := fun s =>
  if (FollowingLine.read ks s).interrupts ks ∨
      (mayUnderline (FollowingLine.read ks s) ∧ (FollowingLine.read ks s).underlineLevel?.isSome) then
    none
  else some (FollowingLine.read ks s).place

theorem readDefinition?_eq (ks : List Container) (bound : Nat) (s : List Char) :
    readDefinition? ks bound s =
      LinkDefinition.read? (definitionStep ks (·.inAll)) (definitionStep ks fun _ => true) bound s :=
  rfl

theorem suffix_of_definitionStep {ks : List Container} {mayUnderline : FollowingLine → Bool}
    {s : List Char} {c : Cursor} (h : definitionStep ks mayUnderline s = some c) : c.rest <:+ s := by
  rw [definitionStep] at h
  split at h
  · cases h
  · obtain rfl := Option.some.inj h
    exact FollowingLine.place_suffix ks s

theorem readDefinition?_suffix {ks : List Container} {bound : Nat} {s : List Char}
    {p : LinkDefinition × List Char} (h : readDefinition? ks bound s = some p) :
    p.2 <:+ s ∧ p.2.length < s.length := by
  rw [readDefinition?_eq] at h
  exact LinkDefinition.read?_suffix suffix_of_definitionStep suffix_of_definitionStep h

/-- A text that ends in blanks, on its only line. -/
theorem takeWhile_reverse_ne_nil {r s : List Char} (hr : r <:+ s) (hne : r ≠ [])
    (hline : lineText s = s) (hblank : isBlankLine r = true) :
    s.reverse.takeWhile isInlineBlank ≠ [] := by
  have hno : ∀ c ∈ s, isLineEnd c = false := by
    intro c hc
    rw [← hline] at hc
    simpa using List.mem_takeWhile_imp hc
  have hdrop : dropBlanks r = [] := by
    cases hd : dropBlanks r with
    | nil => rfl
    | cons c u =>
      have hc : isLineEnd c = true := by rw [isBlankLine, hd] at hblank; exact hblank
      have hmem : c ∈ s := hr.subset ((dropBlanks_suffix r).subset (by rw [hd]; exact .head _))
      rw [hno c hmem] at hc
      cases hc
  obtain ⟨u, rfl⟩ := hr
  obtain ⟨v, c, rfl⟩ := List.eq_nil_or_concat r |>.resolve_left hne
  have hc : isInlineBlank c = true := List.dropWhile_eq_nil_iff.1 hdrop c (by simp)
  simp [hc]

/-- The text of a line begins before the end of the line. -/
theorem skipToText_ne_nil {c : Cursor} {s : List Char} (hc : c.rest <:+ s)
    (h : c.skipAll.atLineEnd = false) : (c.skipToText s).rest ≠ [] := by
  have hsuffix := (Cursor.skipAll_suffix c).trans hc
  have hne : c.skipAll.rest ≠ [] := by
    intro hnil
    rw [Cursor.atLineEnd, hnil] at h
    cases h
  unfold Cursor.skipToText
  dsimp only
  split
  next hblank =>
    intro hdrop
    have hsize := List.drop_eq_nil_iff.1 hdrop
    have hline : (lineText s).length ≤ s.length := (List.takeWhile_prefix _).length_le
    have hpos : 0 < s.length := (List.length_pos_iff.2 hne).trans_le hsuffix.length_le
    -- otherwise the line goes to the end, and its last character is no blank
    have hall : lineText s = s := (List.takeWhile_prefix _).eq_of_length (by
      change (lineText s).length = s.length
      omega)
    have hlast := List.length_pos_iff.2 (takeWhile_reverse_ne_nil hsuffix hne hall hblank)
    rw [hall] at hsize
    omega
  next => exact hne

/-- Behind a definition, a paragraph begins with the text of its line. -/
theorem suffix_of_skipToText (ks : List Container) {s : List Char}
    (h : ¬((FollowingLine.read ks s).interrupts ks = true ∨
      (FollowingLine.read ks s).place.skipAll.atLineEnd = true)) :
    ((FollowingLine.read ks s).place.skipToText s).rest <:+ s ∧
      ((FollowingLine.read ks s).place.skipToText s).rest ≠ [] := by
  have hplace := FollowingLine.place_suffix ks s
  refine ⟨?_, skipToText_ne_nil hplace (by simpa using fun h' => h (.inr h'))⟩
  unfold Cursor.skipToText
  dsimp only
  split
  · exact List.drop_suffix _ _
  · exact (Cursor.skipAll_suffix _).trans hplace

theorem takeParagraph_suffix (bound : Nat) (o : Outline) {s : List Char} (hs : s ≠ [])
    (hb : s.length ≤ bound) :
    (takeParagraph bound o s).2 <:+ s ∧ (takeParagraph bound o s).2.length < s.length := by
  induction bound generalizing o s with
  | zero => exact absurd (List.eq_nil_of_length_eq_zero (by omega)) hs
  | succ bound ih =>
    rw [takeParagraph]
    cases hdef : readDefinition? o.containers bound s with
    | some p =>
      obtain ⟨hsuffix, hlt⟩ := readDefinition?_suffix hdef
      dsimp only
      split
      · exact ⟨hsuffix, hlt⟩
      next hgo =>
        obtain ⟨hsuffix', hlt'⟩ := suffix_of_skipToText o.containers hgo
        have hle := hsuffix'.length_le
        obtain ⟨hmore, hmore'⟩ := ih { o with definitions := o.definitions ++ [p.1] } hlt' (by omega)
        exact ⟨hmore.trans (hsuffix'.trans hsuffix), by omega⟩
    | none =>
      have hline := length_takeLine_lt hs
      have hread : ((readTable? o.containers bound s).getD
          (readParagraph o.containers bound s)).2 <:+ (takeLine s).2 := by
        cases htable : readTable? o.containers bound s with
        | none => exact readParagraph_suffix ..
        | some p => exact readTable?_suffix htable
      exact ⟨hread.trans (takeLine_suffix s), by have := hread.length_le; dsimp only; omega⟩

section Valid

variable {t : Tail} (ht : t.Valid)
include ht

theorem definitionStep_local (ks : List Container) {mayUnderline : FollowingLine → Bool}
    (h : ∀ l : FollowingLine, ∀ c, mayUnderline { l with place := c } = mayUnderline l) :
    (definitionStep ks mayUnderline).Local t where
  suffix := suffix_of_definitionStep
  within {r} hr _ := by
    have hmay : mayUnderline (FollowingLine.read ks (r ++ t.text)) =
        mayUnderline (FollowingLine.read ks r) := by
      rw [FollowingLine.read_append ht, h]
    rw [definitionStep, definitionStep, FollowingLine.interrupts_append ht ks hr, hmay,
      FollowingLine.underlineLevel?_append ht]
    split
    · rfl
    · rw [FollowingLine.read_append ht]
      rfl
  behind {c} hc := by
    rw [definitionStep] at hc
    split at hc
    · cases hc
    · obtain rfl := Option.some.inj hc
      exact (ht.blank.followingLine ks).1

theorem readDefinition?_tail (ks : List Container) {bound bound' : Nat} {x : List Char}
    (hx : EndsInLine x) (hb : x.length ≤ bound + 1) (hb' : x.length ≤ bound' + 1) :
    readDefinition? ks bound' (x ++ t.text) =
      (readDefinition? ks bound x).map fun p => (p.1, t.after p.2) := by
  rw [readDefinition?_eq, readDefinition?_eq]
  exact LinkDefinition.read?_tail ht (definitionStep_local ht ks fun _ _ => rfl)
    (definitionStep_local ht ks fun _ _ => rfl) hx hb hb'

theorem skipToText_read_tail (ks : List Container) {x : List Char} :
    ((FollowingLine.read ks (x ++ t.text)).place.skipToText (x ++ t.text)).rest =
      ((FollowingLine.read ks x).place.skipToText x).rest ++ t.text := by
  rw [FollowingLine.read_append ht]
  exact congrArg Cursor.rest (Cursor.skipToText_append ht.atLineEnd x _)

/-- What a paragraph adds to an outline, up to the end of its last line, and what follows it. -/
theorem takeParagraph_tail {bound bound' : Nat} {o o' : Outline} (ho : o'.chomp = o.chomp)
    {x : List Char} (hx : EndsInLine x) (hne : x ≠ []) (hb : x.length ≤ bound)
    (hb' : x.length ≤ bound') :
    (takeParagraph bound' o' (x ++ t.text)).1.chomp = (takeParagraph bound o x).1.chomp ∧
      (takeParagraph bound' o' (x ++ t.text)).2 = t.after (takeParagraph bound o x).2 := by
  induction bound generalizing bound' o o' x with
  | zero => exact absurd (List.eq_nil_of_length_eq_zero (by omega)) hne
  | succ bound ih =>
    have hpos := List.length_pos_iff.2 hne
    obtain ⟨bound', rfl⟩ : ∃ n, bound' = n + 1 := ⟨bound' - 1, by omega⟩
    have hks : o'.containers = o.containers := by
      rw [← containers_chomp, ho, containers_chomp]
    have hdefs : o'.definitions = o.definitions := by
      rw [← definitions_chomp, ho, definitions_chomp]
    rw [takeParagraph, takeParagraph, hks, readDefinition?_tail ht o.containers hx hb hb']
    cases hdef : readDefinition? o.containers bound x with
    | some p =>
      obtain ⟨definition, rest⟩ := p
      obtain ⟨hsuffix, hlt⟩ : rest <:+ x ∧ rest.length < x.length := readDefinition?_suffix hdef
      have ho' : ({ o' with definitions := o'.definitions ++ [definition] } : Outline).chomp =
          ({ o with definitions := o.definitions ++ [definition] } : Outline).chomp := by
        rw [hdefs]
        exact congrArg (fun u : Outline =>
          { u with definitions := o.definitions ++ [definition] }) ho
      have hrest := hx.of_suffix hsuffix
      simp only [Option.map_some]
      by_cases hend : rest = []
      · -- no paragraph goes on with the blank line behind the text
        have hstop {s : List Char} (hs : Blank s) :
            (FollowingLine.read o.containers s).place.skipAll.atLineEnd = true :=
          (hs.followingLine o.containers).1.skipAll
        subst hend
        simp only [Tail.after_nil, hstop ht.blank, hstop Blank.nil, or_true, if_true]
        exact ⟨ho', trivial⟩
      · rw [Tail.after_of_ne hend, FollowingLine.interrupts_append ht _ hrest,
          skipToText_read_tail ht,
          FollowingLine.read_append ht]
        simp only [Cursor.skipAll_append ht.atLineEnd, Cursor.atLineEnd_append ht.atLineEnd]
        split
        · exact ⟨ho', by rw [Tail.after_of_ne hend]⟩
        next hgo =>
          obtain ⟨hmore, hmore'⟩ := suffix_of_skipToText o.containers hgo
          have hle := hmore.length_le
          exact ih ho' (hrest.of_suffix hmore) hmore' (by omega) (by omega)
    | none =>
      obtain ⟨hblock, hafter⟩ := readParagraph_tail ht o.containers hx hne hb hb'
      simp only [Option.map_none, readTable?_tail ht o.containers hx hne hb hb', chomp_add, ho]
      cases readTable? o.containers bound x with
      | none => exact ⟨congrArg _ hblock, hafter⟩
      | some p => exact ⟨rfl, rfl⟩

end Valid

end Outline

end Treatise.Markdown
