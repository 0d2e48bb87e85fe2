import Treatise.Proofs.Markdown.LeafBlocks

/-!
# Texts before a tail

Reading a text block by block, where a tail follows: each step is the same as without the tail, until
one takes literal text to the end of the text. That text goes on in the tail, and nothing that is read
later makes up for it.

* `take_tail` — the step for one block;
* `ReadsTo` — a text is read to its end, whatever follows;
* **`readsTo_or_literals_ne`** — it is, or an empty line behind it shows in literal text.
-/

namespace Treatise.Markdown

/-! ## Beginning containers -/

/-- The start of an item whose marker is read, which had `size` characters. -/
def itemContent? (indent size : Nat) (m : ListMarker) (c : Cursor) :
    Option (ListMarker × Nat × Cursor) :=
  if (c.skip 1).1 = 1 ∨ (c.skip 1).2.atLineEnd then
    if isBlankLine (c.skip 1).2.rest then some (m, indent + size + 1, (c.skip 1).2)
    else if ((c.skip 1).2.skip 4).1 < 4 then
      some (m, indent + size + 1 + ((c.skip 1).2.skip 4).1, ((c.skip 1).2.skip 4).2)
    else some (m, indent + size + 1, (c.skip 1).2)
  else none

theorem readItemMarker?_eq (indent : Nat) (c : Cursor) :
    readItemMarker? indent c =
      if isRule c.rest then none
      else match ListMarker.read? c.rest with
        | none => none
        | some (m, size, rest) =>
          itemContent? indent size m
            { c with rest, column := c.column + size, size := c.size + size } := rfl

theorem itemContent?_append (indent size : Nat) (m : ListMarker) {y : List Char}
    (hy : Markdown.atLineEnd y = true) (c : Cursor) :
    itemContent? indent size m (c.append y) =
      (itemContent? indent size m c).map fun r => (r.1, r.2.1, r.2.2.append y) := by
  simp only [itemContent?, Cursor.skip_append hy, Cursor.atLineEnd_append hy, Cursor.rest_append,
    isBlankLine_append hy]
  split
  · split
    · rfl
    · split <;> rfl
  · rfl

theorem itemContent?_suffix {indent size n : Nat} {m m' : ListMarker} {c d : Cursor}
    (h : itemContent? indent size m c = some (m', n, d)) : d.rest <:+ c.rest := by
  have hone := Cursor.skip_suffix 1 c
  rw [itemContent?] at h
  split at h
  · split at h
    · obtain ⟨-, -, rfl⟩ := Option.some.inj h; exact hone
    · split at h
      · obtain ⟨-, -, rfl⟩ := Option.some.inj h
        exact (Cursor.skip_suffix 4 _).trans hone
      · obtain ⟨-, -, rfl⟩ := Option.some.inj h; exact hone
  · cases h

theorem readItemMarker?_append (indent : Nat) {y : List Char} (hy : Markdown.atLineEnd y = true)
    (c : Cursor) :
    readItemMarker? indent (c.append y) =
      (readItemMarker? indent c).map fun r => (r.1, r.2.1, r.2.2.append y) := by
  rw [readItemMarker?_eq, readItemMarker?_eq, Cursor.rest_append, isRule_append hy,
    listMarker_read?_append hy]
  split
  · rfl
  cases ListMarker.read? c.rest with
  | none => rfl
  | some m =>
    exact itemContent?_append indent m.2.1 m.1 hy
      { c with rest := m.2.2, column := c.column + m.2.1, size := c.size + m.2.1 }

theorem length_listMarker_read? {s rest : List Char} {m : ListMarker} {size : Nat}
    (h : ListMarker.read? s = some (m, size, rest)) : rest <:+ s ∧ rest.length < s.length := by
  unfold ListMarker.read? at h
  split at h
  · cases h
  next c s =>
    split at h
    · obtain ⟨-, -, rfl⟩ := Option.some.inj h
      exact ⟨List.suffix_cons c _, Nat.lt_succ_self _⟩
    · dsimp only at h
      split at h
      · cases h
      next d _ heq =>
        split at h
        · obtain ⟨-, -, rfl⟩ := Option.some.inj h
          have hsuffix := heq ▸ List.drop_suffix _ (c :: s)
          exact ⟨(List.suffix_cons d _).trans hsuffix, hsuffix.length_le⟩
        · cases h

theorem readItemMarker?_suffix {indent n : Nat} {c d : Cursor} {m : ListMarker}
    (h : readItemMarker? indent c = some (m, n, d)) :
    d.rest <:+ c.rest ∧ d.rest.length < c.rest.length := by
  rw [readItemMarker?_eq] at h
  split at h
  · cases h
  · split at h
    · cases h
    next hmarker =>
      obtain ⟨hsuffix, hlt⟩ := length_listMarker_read? hmarker
      have hrest := itemContent?_suffix h
      exact ⟨hrest.trans hsuffix, hrest.length_le.trans_lt hlt⟩

theorem Blank.readItemMarker? (indent : Nat) {c : Cursor} (h : Blank c.rest) :
    readItemMarker? indent c = none := by
  have hmarker : ListMarker.read? c.rest = none := by
    cases hrest : c.rest with
    | nil => rfl
    | cons d s =>
      have hd : d = '\n' ∨ d = '\r' ∨ d = ' ' ∨ d = '\t' := by
        rw [hrest, blank_cons, isLineEnd_iff] at h
        rcases h with (h | h) | ⟨h | h, -⟩ <;> simp [h]
      have hdigit : Char.isDigit d = false := by rcases hd with rfl | rfl | rfl | rfl <;> rfl
      have hbullet : ¬(d = '-' ∨ d = '+' ∨ d = '*') := by
        rcases hd with rfl | rfl | rfl | rfl <;> decide
      simp [ListMarker.read?, hbullet, hdigit]
  rw [readItemMarker?_eq, hmarker, ite_self]

namespace Outline

theorem openContainers_succ (bound : Nat) (o : Outline) (c : Cursor) :
    openContainers (bound + 1) o c =
      if 4 ≤ (c.skip 4).1 then (o, c, false)
      else match readItemMarker? (c.skip 4).1 (c.skip 4).2 with
        | some (m, itemIndent, d) =>
          if isBlankLine d.rest then
            ({ (o.continueList m).push (.item itemIndent) with freshItem := true }, d, true)
          else openContainers bound ((o.continueList m).push (.item itemIndent)) d
        | none =>
          match Container.readQuoteMark? (c.skip 4).2 with
          | some d => openContainers bound (o.finishList.push .quote) d
          | none => (o, c, false) := rfl

/-- Nothing begins in a blank line. -/
theorem openContainers_of_blank (bound : Nat) (o : Outline) {c : Cursor} (h : Blank c.rest) :
    openContainers bound o c = (o, c, false) := by
  cases bound with
  | zero => rfl
  | succ bound =>
    have hplace := (h.skip 4).1
    rw [openContainers_succ, hplace.readItemMarker?, hplace.readQuoteMark?, ite_self]

theorem openContainers_suffix (bound : Nat) (o : Outline) (c : Cursor) :
    (openContainers bound o c).2.1.rest <:+ c.rest := by
  induction bound generalizing o c with
  | zero => exact List.suffix_refl _
  | succ bound ih =>
    have hskip := Cursor.skip_suffix 4 c
    rw [openContainers_succ]
    split
    · exact List.suffix_refl _
    · split
      next hmarker =>
        have hd := (readItemMarker?_suffix hmarker).1.trans hskip
        split
        · exact hd
        · exact (ih _ _).trans hd
      · split
        next hmark => exact (ih _ _).trans ((Container.readQuoteMark?_suffix hmark).1.trans hskip)
        · exact List.suffix_refl _

/-- An empty item has a marker. -/
theorem length_openContainers_lt (bound : Nat) (o : Outline) {c : Cursor}
    (h : (openContainers bound o c).2.2 = true) :
    (openContainers bound o c).2.1.rest.length < c.rest.length := by
  induction bound generalizing o c with
  | zero => cases h
  | succ bound ih =>
    have hskip := (Cursor.skip_suffix 4 c).length_le
    rw [openContainers_succ] at h ⊢
    split at h
    · cases h
    · split at h
      next hindent _ m itemIndent d hmarker =>
        have hlt := (readItemMarker?_suffix hmarker).2
        rw [if_neg hindent]
        split at h
        next hblank => rw [if_pos hblank]; exact hlt.trans_le hskip
        next hblank => rw [if_neg hblank]; exact (ih _ h).trans (hlt.trans_le hskip)
      next hindent _ hmarker =>
        split at h
        next d hmark =>
          rw [if_neg hindent]
          exact (ih _ h).trans_le
            ((Container.readQuoteMark?_suffix hmark).1.length_le.trans hskip)
        · cases h

/-- Nothing begins at the end of a text, and nothing at the tail there. -/
theorem openContainers_tail_of_nil {t : Tail} (ht : t.Valid) (bound bound' : Nat) {o o' : Outline}
    (ho : o'.chomp = o.chomp) {c : Cursor} (hc : c.rest = []) :
    (openContainers bound' o' (c.append t.text)).1.chomp = (openContainers bound o c).1.chomp ∧
      (openContainers bound' o' (c.append t.text)).2 =
        ((openContainers bound o c).2.1.append t.text, (openContainers bound o c).2.2) := by
  have hblank : Blank c.rest := by
    rw [hc]
    exact .nil
  have hblank' : Blank (c.append t.text).rest := by
    rw [Cursor.rest_append, hc]
    exact .of_atLineEnd ht.atLineEnd
  rw [openContainers_of_blank _ _ hblank, openContainers_of_blank _ _ hblank']
  exact ⟨ho, rfl⟩

theorem openContainers_tail {t : Tail} (ht : t.Valid) {bound bound' : Nat} {o o' : Outline}
    (ho : o'.chomp = o.chomp) {c : Cursor} (hb : c.rest.length ≤ bound)
    (hb' : c.rest.length ≤ bound') :
    (openContainers bound' o' (c.append t.text)).1.chomp = (openContainers bound o c).1.chomp ∧
      (openContainers bound' o' (c.append t.text)).2 =
        ((openContainers bound o c).2.1.append t.text, (openContainers bound o c).2.2) := by
  induction bound generalizing bound' o o' c with
  | zero =>
    exact openContainers_tail_of_nil ht _ _ ho (List.eq_nil_of_length_eq_zero (by omega))
  | succ bound ih =>
    by_cases hnil : c.rest = []
    · exact openContainers_tail_of_nil ht _ _ ho hnil
    have hpos := List.length_pos_iff.2 hnil
    obtain ⟨bound', rfl⟩ : ∃ n, bound' = n + 1 := ⟨bound' - 1, by omega⟩
    have hskip := (Cursor.skip_suffix 4 c).length_le
    rw [openContainers_succ, openContainers_succ, Cursor.skip_append ht.atLineEnd,
      readItemMarker?_append _ ht.atLineEnd, Container.readQuoteMark?_append ht.atLineEnd]
    split
    · exact ⟨ho, rfl⟩
    -- behind each marker less is left of the line, and the outline is alike again
    cases hmarker : readItemMarker? (c.skip 4).1 (c.skip 4).2 with
    | some r =>
      obtain ⟨m, itemIndent, d⟩ := r
      have hlt := (readItemMarker?_suffix hmarker).2
      have hitem : ((o'.continueList m).push (.item itemIndent)).chomp =
          ((o.continueList m).push (.item itemIndent)).chomp := by
        rw [chomp_push, chomp_push, chomp_continueList, chomp_continueList, ho]
      simp only [Option.map_some, Cursor.rest_append, isBlankLine_append ht.atLineEnd]
      split
      · exact ⟨congrArg (fun u : Outline => { u with freshItem := true }) hitem, rfl⟩
      · exact ih hitem (by omega) (by omega)
    | none =>
      simp only [Option.map_none]
      cases hmark : Container.readQuoteMark? (c.skip 4).2 with
      | some d =>
        have hlt := (Container.readQuoteMark?_suffix hmark).2
        have hquote : (o'.finishList.push .quote).chomp = (o.finishList.push .quote).chomp := by
          rw [chomp_push, chomp_push, chomp_finishList, chomp_finishList, ho]
        exact ih hquote (by omega) (by omega)
      | none => exact ⟨ho, rfl⟩

/-! ## One step -/

/-- The containers that the first line of a text continues and begins, and the place behind their
marks. -/
def opened (bound : Nat) (o : Outline) (s : List Char) : Outline × Cursor × Bool :=
  openContainers bound (closeMany (Container.follow o.containers (Cursor.ofLine s)).1 o)
    (Container.follow o.containers (Cursor.ofLine s)).2

theorem take_eq (bound : Nat) (o : Outline) (s : List Char) :
    o.take bound s =
      if (opened bound o s).2.2 then
        ((opened bound o s).1, skipBlankLine (opened bound o s).2.1.rest)
      else if isBlankLine (opened bound o s).2.1.rest then
        ((opened bound o s).1.blankLine, skipBlankLine (opened bound o s).2.1.rest)
      else (opened bound o s).1.finishList.takeLeaf bound (opened bound o s).2.1 := rfl

theorem opened_suffix (bound : Nat) (o : Outline) (s : List Char) :
    (opened bound o s).2.1.rest <:+ s :=
  (openContainers_suffix ..).trans (Container.follow_suffix o.containers (Cursor.ofLine s))

theorem keeps_opened (bound : Nat) {o : Outline} (h : Alternating o.shape) (s : List Char) :
    Keeps o (opened bound o s).1 :=
  (keeps_closeMany h _).trans (keeps_openContainers bound (keeps_closeMany h _).alternating _)

theorem opened_tail {t : Tail} (ht : t.Valid) {bound bound' : Nat} {o o' : Outline}
    (ho : o'.chomp = o.chomp) {s : List Char} (hb : s.length ≤ bound) (hb' : s.length ≤ bound') :
    (opened bound' o' (s ++ t.text)).1.chomp = (opened bound o s).1.chomp ∧
      (opened bound' o' (s ++ t.text)).2 =
        ((opened bound o s).2.1.append t.text, (opened bound o s).2.2) := by
  have hle := (Container.follow_suffix o.containers (Cursor.ofLine s)).length_le
  rw [opened, containers_of_chomp_eq ho, Cursor.ofLine_append,
    Container.follow_append ht.atLineEnd]
  exact openContainers_tail ht (by rw [chomp_closeMany, chomp_closeMany, ho]) (hle.trans hb)
    (hle.trans hb')

theorem length_skipBlankLine_lt {s : List Char} (hs : s ≠ []) (hblank : isBlankLine s = true) :
    (skipBlankLine s).length < s.length := by
  have hle := (dropBlanks_suffix s).length_le
  cases hd : dropBlanks s with
  | nil =>
    rw [skipBlankLine, hd]
    exact List.length_pos_iff.2 hs
  | cons c r =>
    have hc : isLineEnd c = true := by rw [isBlankLine, hd] at hblank; exact hblank
    have hpos := List.length_pos_iff.2 (splitLineEnd_ne_nil hc r)
    have happend := congrArg List.length (splitLineEnd_append (c :: r))
    rw [List.length_append] at happend
    rw [skipBlankLine, hd, skipLineEnd]
    rw [hd] at hle
    omega

/-- What is taken is not empty. -/
theorem take_suffix {bound : Nat} (o : Outline) {s : List Char} (hs : s ≠ [])
    (hb : s.length ≤ bound) :
    (o.take bound s).2 <:+ s ∧ (o.take bound s).2.length < s.length := by
  have hopened := opened_suffix bound o s
  have hle := hopened.length_le
  rw [take_eq]
  split
  next hitem =>
    have hlt := length_openContainers_lt _ _ hitem
    have hline := (Container.follow_suffix o.containers (Cursor.ofLine s)).length_le
    have hskip := skipBlankLine_suffix (opened bound o s).2.1.rest
    exact ⟨hskip.trans hopened, (hskip.length_le.trans_lt hlt).trans_le hline⟩
  · split
    next hblank =>
      refine ⟨(skipBlankLine_suffix _).trans hopened, ?_⟩
      by_cases hnil : (opened bound o s).2.1.rest = []
      · rw [hnil]
        exact List.length_pos_iff.2 hs
      · exact (length_skipBlankLine_lt hnil hblank).trans_le hle
    next hblank =>
      obtain ⟨hsuffix, hlt⟩ := takeLeaf_suffix (opened bound o s).1.finishList
        (by simpa using hblank) (hle.trans hb)
      exact ⟨hsuffix.trans hopened, hlt.trans_le hle⟩

/-- No literal text is lost in a step. -/
theorem keeps_take (bound : Nat) {o : Outline} (h : Alternating o.shape) (s : List Char) :
    Alternating (o.take bound s).1.shape ∧ o.literals <+: (o.take bound s).1.literals := by
  have hopened := keeps_opened bound h s
  rw [take_eq]
  split
  · exact ⟨hopened.alternating, hopened.literals ▸ List.prefix_rfl⟩
  · split
    · have hblank := hopened.trans (keeps_blankLine hopened.alternating)
      exact ⟨hblank.alternating, hblank.literals ▸ List.prefix_rfl⟩
    · obtain ⟨hfinish, hlist⟩ := keeps_finishList hopened.alternating
      obtain ⟨hshape, hliterals⟩ := adds_takeLeaf bound hlist (opened bound o s).2.1
      refine ⟨by rw [hshape]; exact hfinish.alternating, ?_⟩
      rwa [(hopened.trans hfinish).literals] at hliterals

/-- A step is the same whatever follows the text, or takes literal text that goes on. -/
theorem take_tail {x : List Char} (hx : EndsInLine x) (hbare : Bare x) {o : Outline}
    (h : Alternating o.shape) {bound : Nat} {s : List Char} (hs : s <:+ x)
    (hb : s.length ≤ bound) :
    EndsOrGoesOn (fun bound o y => o.take bound (s ++ y)) s.length o (o.take bound s) := by
  have hopened := keeps_opened bound h s
  have hsuffix := opened_suffix bound o s
  have hplace := hx.of_suffix (hsuffix.trans hs)
  by_cases hitem : (opened bound o s).2.2 = true
  · -- an item begins that holds nothing in its first line
    refine .inl fun t bound' o' ht hb' ho => ?_
    obtain ⟨hsame, heq⟩ := opened_tail ht ho hb hb'
    simp only [take_eq, heq, hitem, if_pos, Cursor.rest_append, skipBlankLine_tail ht hplace,
      and_true]
    exact hsame
  by_cases hblank : isBlankLine (opened bound o s).2.1.rest = true
  · -- the line is blank behind the marks
    refine .inl fun t bound' o' ht hb' ho => ?_
    obtain ⟨hsame, heq⟩ := opened_tail ht ho hb hb'
    simp only [take_eq, heq, if_neg hitem, Cursor.rest_append, isBlankLine_append ht.atLineEnd,
      if_pos hblank, skipBlankLine_tail ht hplace, chomp_blankLine, hsame, and_self]
  · -- a leaf block begins; it alone may go on behind the text
    obtain ⟨hfinish, hlist⟩ := keeps_finishList hopened.alternating
    have hle := hsuffix.length_le
    have hleaf := takeLeaf_tail hx hbare hlist (hsuffix.trans hs) (by simpa using hblank)
      (hle.trans hb)
    have hsame {t : Tail} (ht : t.Valid) {bound' : Nat} {o' : Outline} (hb' : s.length ≤ bound')
        (ho : o'.chomp = o.chomp) :
        (opened bound' o' (s ++ t.text)).1.finishList.chomp =
            (opened bound o s).1.finishList.chomp ∧
          o'.take bound' (s ++ t.text) =
            (opened bound' o' (s ++ t.text)).1.finishList.takeLeaf bound'
              ((opened bound o s).2.1.append t.text) := by
      obtain ⟨hsame, heq⟩ := opened_tail ht ho hb hb'
      refine ⟨by rw [chomp_finishList, chomp_finishList, hsame], ?_⟩
      simp only [take_eq, heq, hitem, Cursor.rest_append, isBlankLine_append ht.atLineEnd, hblank]
      rfl
    have htake : o.take bound s =
        (opened bound o s).1.finishList.takeLeaf bound (opened bound o s).2.1 := by
      rw [take_eq, if_neg hitem, if_neg hblank]
    rw [htake]
    refine hleaf.imp ?_ ?_
    · intro hleaf t bound' o' ht hb' ho
      obtain ⟨hfinish', heq⟩ := hsame ht hb' ho
      dsimp only
      rw [heq]
      exact hleaf t bound' _ ht (hle.trans hb') hfinish'
    · rintro ⟨text, hnil, hlit, hmore⟩
      have hliterals := (hopened.trans hfinish).literals
      refine ⟨text, hnil, by rw [hlit, hliterals], fun bound' o' hb' ho => ?_⟩
      obtain ⟨hfinish', heq⟩ := hsame Tail.valid_emptyLine hb' ho
      dsimp only
      rw [heq, ← hliterals]
      exact hmore bound' _ (hle.trans hb') hfinish'

/-! ## The whole text -/

/-- Takes a whole text and leaves the containers open. -/
def readAll : (bound : Nat) → Outline → List Char → Outline
  | 0, o, _ => o
  | bound + 1, o, s =>
    if s.isEmpty then o else readAll bound (o.take bound s).1 (o.take bound s).2

theorem readAll_nil (bound : Nat) (o : Outline) : readAll bound o [] = o := by
  cases bound <;> rfl

theorem readAll_succ (bound : Nat) (o : Outline) {s : List Char} (hs : s ≠ []) :
    readAll (bound + 1) o s = readAll bound (o.take bound s).1 (o.take bound s).2 := by
  rw [readAll, if_neg (by simpa using hs)]

/-- All containers are closed at the end. -/
theorem takeAll_eq {bound : Nat} (o : Outline) {s : List Char} (hb : s.length < bound) :
    takeAll bound o s = closeMany (readAll bound o s).spine.length (readAll bound o s) := by
  induction bound generalizing o s with
  | zero => omega
  | succ bound ih =>
    by_cases hs : s = []
    · rw [hs]
      rfl
    · have hlt := (take_suffix o hs (by omega : s.length ≤ bound)).2
      rw [takeAll, if_neg (by simpa using hs), readAll_succ _ _ hs]
      exact ih (o.take bound s).1 (s := (o.take bound s).2) (by omega)

theorem keeps_readAll (bound : Nat) {o : Outline} (h : Alternating o.shape) (s : List Char) :
    Alternating (readAll bound o s).shape ∧ o.literals <+: (readAll bound o s).literals := by
  induction bound generalizing o s with
  | zero => exact ⟨h, List.prefix_rfl⟩
  | succ bound ih =>
    rw [readAll]
    split
    · exact ⟨h, List.prefix_rfl⟩
    · obtain ⟨hstep, hliterals⟩ := keeps_take bound h s
      obtain ⟨hrun, hmore⟩ := ih hstep (o.take bound s).2
      exact ⟨hrun, hliterals.trans hmore⟩

/-- The text is read to its end, and then what follows it, whatever that is; `o` is what was read
before, and `e` what is read then. -/
def ReadsTo (s : List Char) (o e : Outline) : Prop :=
  ∀ (t : Tail) (bound : Nat) (o' : Outline), t.Valid → (s ++ t.text).length < bound →
    o'.chomp = o.chomp →
    ∃ bound' e', t.behind.length < bound' ∧ e'.chomp = e.chomp ∧
      readAll bound o' (s ++ t.text) = readAll bound' e' t.behind

/-- A text is read to its end, or an empty line behind it goes into literal text. -/
theorem readsTo_or_literals_ne {x : List Char} (hx : EndsInLine x) (hbare : Bare x)
    {bound : Nat} {o : Outline} (h : Alternating o.shape) {s : List Char} (hs : s <:+ x)
    (hne : s ≠ []) (hb : s.length < bound) :
    ReadsTo s o (readAll bound o s) ∨
      ∀ (bound' : Nat) (o' : Outline), s.length + 2 < bound' → o'.chomp = o.chomp →
        (readAll bound' o' (s ++ Tail.emptyLine.text)).literals ≠ (readAll bound o s).literals := by
  induction bound generalizing o s with
  | zero => omega
  | succ bound ih =>
    obtain ⟨hsuffix, hlt⟩ := take_suffix o hne (by omega : s.length ≤ bound)
    have happend (y : List Char) : s ++ y ≠ [] := List.append_ne_nil_of_left_ne_nil hne y
    rw [readAll_succ _ _ hne]
    rcases take_tail hx hbare h hs (by omega : s.length ≤ bound) with
      hsame | ⟨text, hnil, hlit, hmore⟩
    · by_cases hlast : (o.take bound s).2 = []
      · refine .inl fun t bound' o' ht hb' ho => ?_
        rw [List.length_append] at hb'
        obtain ⟨bound', rfl⟩ : ∃ n, bound' = n + 1 := ⟨bound' - 1, by omega⟩
        obtain ⟨hchomp, hrest⟩ := hsame t bound' o' ht (by omega) ho
        have htext : t.text.length = t.stop.length + t.behind.length := List.length_append
        have hpos := List.length_pos_iff.2 hne
        refine ⟨bound', (o'.take bound' (s ++ t.text)).1, by omega, ?_, ?_⟩
        · rw [hchomp, hlast, readAll_nil]
        · dsimp only at hrest
          rw [readAll_succ _ _ (happend _), hrest, hlast, Tail.after_nil]
      · refine (ih (keeps_take bound h s).1 (hsuffix.trans hs) hlast (by omega)).imp ?_ ?_
        · intro hrun t bound' o' ht hb' ho
          rw [List.length_append] at hb'
          obtain ⟨bound', rfl⟩ : ∃ n, bound' = n + 1 := ⟨bound' - 1, by omega⟩
          obtain ⟨hchomp, hrest⟩ := hsame t bound' o' ht (by omega) ho
          obtain ⟨bound'', e', hb'', he, hread⟩ := hrun t bound' _ ht
            (by rw [List.length_append]; omega) hchomp
          refine ⟨bound'', e', hb'', he, ?_⟩
          dsimp only at hrest
          rw [readAll_succ _ _ (happend _), hrest, Tail.after_of_ne hlast, hread]
        · intro hne' bound' o' hb' ho
          obtain ⟨bound', rfl⟩ : ∃ n, bound' = n + 1 := ⟨bound' - 1, by omega⟩
          obtain ⟨hchomp, hrest⟩ := hsame Tail.emptyLine bound' o' Tail.valid_emptyLine (by omega) ho
          dsimp only at hrest
          rw [readAll_succ _ _ (happend _), hrest, Tail.after_of_ne hlast]
          exact hne' bound' _ (by omega) hchomp
    · refine .inr fun bound' o' hb' ho heq => ?_
      obtain ⟨bound', rfl⟩ : ∃ n, bound' = n + 1 := ⟨bound' - 1, by omega⟩
      obtain ⟨text', hlength, hlit'⟩ := hmore bound' o' (by omega) ho
      have halt : Alternating o'.shape := by rw [shape_of_chomp_eq ho]; exact h
      have hprefix := (keeps_readAll bound'
        (keeps_take bound' halt (s ++ Tail.emptyLine.text)).1
        (o'.take bound' (s ++ Tail.emptyLine.text)).2).2
      -- the texts are at the same place in the order of the document
      rw [← readAll_succ _ _ (happend _), heq, hnil, readAll_nil, hlit, hlit',
        List.prefix_append_right_inj] at hprefix
      have : text' = text := by simpa using hprefix
      rw [this] at hlength
      exact lt_irrefl _ hlength

end Outline

end Treatise.Markdown
