import Treatise.Proofs.Markdown.Cutting

/-!
# Blank lines

However many blank lines follow a text, they close the quotes that are open there and what stands in
them, and the next block finds the list around it loose.

* `Outline.takeBlank` — what one blank line does, and so any number of them;
* `readAll_blankLines`, `readAll_plain` — blank lines before a text, and at the end of one;
* `closeAll_takeBlank` — at the end of a document, blank lines do nothing.
-/

namespace Treatise.Markdown

/-! ## One blank line -/

theorem Unmarked.dropBlanks_eq {s r : List Char} (h : Unmarked s r) (hs : Blank s) :
    Blank r ∧ dropBlanks r = dropBlanks s := by
  obtain ⟨u, rfl, hu⟩ := h
  induction u with
  | nil => exact ⟨hs, rfl⟩
  | cons c u ih =>
    have hc := hu c (.head _)
    rcases blank_cons.1 hs with hend | ⟨hblank, hrest⟩
    · rw [isBareChar_of_isLineEnd hend] at hc
      cases hc
    · obtain ⟨hr, heq⟩ := ih (fun d hd => hu d (.tail _ hd)) hrest
      refine ⟨hr, heq.trans ?_⟩
      rcases hblank with rfl | rfl <;> rfl

namespace Outline

/-- The outline behind a blank line. -/
def takeBlank (o : Outline) : Outline :=
  (closeMany (o.containers.dropWhile (· != .quote)).length o).blankLine

theorem take_of_blank (bound : Nat) (o : Outline) {s : List Char} (h : Blank s) :
    o.take bound s = (o.takeBlank, skipBlankLine s) := by
  obtain ⟨hmissing, hblank⟩ := Blank.follow o.containers (c := Cursor.ofLine s) h
  obtain ⟨-, hskip⟩ := (unmarked_follow o.containers (Cursor.ofLine s)).dropBlanks_eq h
  have hopened : opened bound o s =
      (closeMany (o.containers.dropWhile (· != .quote)).length o,
        (Container.follow o.containers (Cursor.ofLine s)).2, false) := by
    rw [opened, openContainers_of_blank _ _ hblank, hmissing]
  rw [take_eq, hopened]
  simp only [Bool.false_eq_true, if_false, hblank.isBlankLine, if_true, skipBlankLine, hskip]
  rfl

theorem shape_closeMany (n : Nat) (o : Outline) : (closeMany n o).shape = o.shape.drop n := by
  induction n generalizing o with
  | zero => rfl
  | succ n ih => rw [closeMany, ih, shape_close, List.drop_tail]

theorem containers_eq (o : Outline) : o.containers = o.shape.reverse := rfl

theorem containers_closeMany_quotes (o : Outline) :
    (closeMany (o.containers.dropWhile (· != .quote)).length o).containers =
      o.containers.takeWhile (· != .quote) := by
  have hsplit := List.takeWhile_append_dropWhile (p := (· != .quote)) (l := o.containers)
  have hlength := congrArg List.length hsplit
  rw [List.length_append] at hlength
  have htake : (o.containers.takeWhile (· != .quote) ++
      o.containers.dropWhile (· != .quote)).take (o.containers.takeWhile (· != .quote)).length =
        o.containers.takeWhile (· != .quote) := List.take_left
  rw [containers_eq, shape_closeMany, List.reverse_drop, ← containers_eq, ← List.length_reverse,
    ← containers_eq, ← hlength, Nat.add_sub_cancel]
  rwa [hsplit] at htake

theorem ne_quote_of_mem_blankLine {o : Outline} (h : ∀ k ∈ o.shape, k ≠ .quote) :
    ∀ k ∈ o.blankLine.shape, k ≠ .quote := by
  obtain ⟨blocks, spine, afterBlank, freshItem, definitions⟩ := o
  cases spine with
  | nil => exact h
  | cons top spine =>
    obtain ⟨k, held, items⟩ := top
    cases k with
    | quote => exact h
    | list mark start tight => exact h
    | item n =>
      cases freshItem with
      | false => exact h
      | true => exact List.forall_mem_cons.2 ⟨nofun, (List.forall_mem_cons.1 h).2⟩

/-- No quote is open behind a blank line. -/
theorem dropWhile_containers_takeBlank (o : Outline) :
    o.takeBlank.containers.dropWhile (· != .quote) = [] := by
  have hnone : ∀ k ∈ (closeMany (o.containers.dropWhile (· != .quote)).length o).shape,
      k ≠ .quote := by
    intro k hk
    rw [← List.mem_reverse, ← containers_eq, containers_closeMany_quotes] at hk
    simpa using List.mem_takeWhile_imp hk
  rw [List.dropWhile_eq_nil_iff]
  intro k hk
  have := ne_quote_of_mem_blankLine hnone k (List.mem_reverse.1 hk)
  simpa using this

theorem blankLine_blankLine (o : Outline) : o.blankLine.blankLine = o.blankLine := by
  obtain ⟨blocks, spine, afterBlank, freshItem, definitions⟩ := o
  cases spine with
  | nil => rfl
  | cons top spine =>
    obtain ⟨k, held, items⟩ := top
    cases k with
    | quote => rfl
    | list mark start tight => rfl
    | item n => cases freshItem <;> rfl

/-- A second blank line does nothing. -/
theorem takeBlank_takeBlank (o : Outline) : o.takeBlank.takeBlank = o.takeBlank := by
  rw [takeBlank, dropWhile_containers_takeBlank]
  exact blankLine_blankLine _

theorem chomp_takeBlank (o : Outline) : o.takeBlank.chomp = o.chomp.takeBlank := by
  rw [takeBlank, takeBlank, chomp_blankLine, chomp_closeMany, containers_chomp]

theorem keeps_takeBlank {o : Outline} (h : Alternating o.shape) : Keeps o o.takeBlank :=
  (keeps_closeMany h _).trans (keeps_blankLine (keeps_closeMany h _).alternating)

/-! ## The end of the document -/

/-- All containers are closed. -/
def closeAll (o : Outline) : Outline := closeMany o.spine.length o

theorem length_spine (o : Outline) : o.spine.length = o.shape.length := (List.length_map _).symm

theorem closeMany_add (m n : Nat) (o : Outline) :
    closeMany (m + n) o = closeMany n (closeMany m o) := by
  induction m generalizing o with
  | zero => rw [Nat.zero_add]; rfl
  | succ m ih => rw [Nat.succ_add, closeMany, ih]; rfl

theorem closeMany_nil {o : Outline} (h : o.spine = []) (n : Nat) : closeMany n o = o := by
  induction n with
  | zero => rfl
  | succ n ih =>
    have hclose : o.close = o := by rw [close, h]
    rw [closeMany, hclose, ih]

theorem spine_closeMany {o : Outline} {n : Nat} (h : o.spine.length ≤ n) :
    (closeMany n o).spine = [] := by
  rw [← List.length_eq_zero_iff, length_spine, shape_closeMany, List.length_drop, ← length_spine]
  omega

theorem closeAll_closeMany (m : Nat) (o : Outline) : (closeMany m o).closeAll = o.closeAll := by
  rw [closeAll, closeAll, ← closeMany_add, length_spine (closeMany m o), shape_closeMany,
    List.length_drop, ← length_spine]
  by_cases h : m ≤ o.spine.length
  · rw [Nat.add_sub_cancel' h]
  · -- nothing was left to be closed
    have hm : m + (o.spine.length - m) = o.spine.length + (m - o.spine.length) := by omega
    rw [hm, closeMany_add, closeMany_nil (spine_closeMany (le_refl _))]

theorem chomp_closeAll (o : Outline) : o.closeAll.chomp = o.chomp.closeAll := by
  rw [closeAll, closeAll, chomp_closeMany, length_spine_chomp]

theorem close_afterBlank (o : Outline) (b : Bool) :
    ({ o with afterBlank := b } : Outline).close = { o.close with afterBlank := b } := by
  have hadd (o : Outline) (c : Block) : ({ o with afterBlank := b } : Outline).add c =
      { o.add c with afterBlank := b } := by
    obtain ⟨_, spine, _, _, _⟩ := o
    cases spine <;> rfl
  have haddItem (o : Outline) (item : List Block) :
      ({ o with afterBlank := b } : Outline).addItem item =
        { o.addItem item with afterBlank := b } := by
    obtain ⟨_, spine, _, _, _⟩ := o
    cases spine <;> rfl
  obtain ⟨blocks, spine, afterBlank, freshItem, definitions⟩ := o
  cases spine with
  | nil => rfl
  | cons top spine =>
    obtain ⟨k, held, items⟩ := top
    cases k with
    | quote => exact hadd ⟨blocks, spine, afterBlank, freshItem, definitions⟩ (.quote held)
    | item n => exact haddItem ⟨blocks, spine, afterBlank, freshItem, definitions⟩ held
    | list mark start tight =>
      have h := hadd ⟨blocks, spine, afterBlank, freshItem, definitions⟩
        (.list tight (listNumber? mark start) items)
      cases tight with
      | false => exact h
      | true => exact congrArg (fun o : Outline => { o with freshItem := false }) h

theorem closeMany_afterBlank (n : Nat) (o : Outline) (b : Bool) :
    closeMany n { o with afterBlank := b } = { closeMany n o with afterBlank := b } := by
  induction n generalizing o with
  | zero => rfl
  | succ n ih => rw [closeMany, close_afterBlank, ih, closeMany]

/-- A blank line before the end changes no block. -/
theorem closeAll_blankLine (o : Outline) :
    ∃ b, o.blankLine.closeAll = { o.closeAll with afterBlank := b } := by
  have hblank (o : Outline) (b : Bool) :
      ({ o with afterBlank := b } : Outline).closeAll = { o.closeAll with afterBlank := b } :=
    closeMany_afterBlank _ o b
  obtain ⟨blocks, spine, afterBlank, freshItem, definitions⟩ := o
  cases spine with
  | nil => exact ⟨true, rfl⟩
  | cons top spine =>
    obtain ⟨k, held, items⟩ := top
    cases k with
    | quote => exact ⟨_, rfl⟩
    | list mark start tight => exact ⟨true, hblank _ true⟩
    | item n =>
      cases freshItem with
      | false => exact ⟨true, hblank _ true⟩
      | true =>
        -- the item is closed as it would have been
        exact ⟨true,
          hblank ⟨blocks, ⟨.item n, held, items⟩ :: spine, afterBlank, true, definitions⟩ true⟩

theorem closeAll_takeBlank (o : Outline) :
    ∃ b, o.takeBlank.closeAll = { o.closeAll with afterBlank := b } := by
  obtain ⟨b, h⟩ := closeAll_blankLine (closeMany (o.containers.dropWhile (· != .quote)).length o)
  exact ⟨b, by rw [takeBlank, h, closeAll_closeMany]⟩

end Outline

/-! ## Any number of blank lines -/

/-- Spaces, tabs and line ends. A carriage return stands before a line feed only. -/
def isPlain : List Char → Bool
  | [] => true
  | '\r' :: '\n' :: s => isPlain s
  | c :: s => (c == ' ' || c == '\t' || c == '\n') && isPlain s

/-- The first line of a text is blank. What follows it is plain again, and ends as the text does. -/
theorem exists_skipBlankLine {g : List Char} (hg : isPlain g = true) (hne : g ≠ []) :
    ∃ rest, rest.length < g.length ∧ isPlain rest = true ∧
      (g.getLast? = some '\n' → rest ≠ [] → rest.getLast? = some '\n') ∧
      ∀ w, g.getLast? = some '\n' ∨ w = [] → Blank (g ++ w) ∧ skipBlankLine (g ++ w) = rest ++ w := by
  fun_induction isPlain g with
  | case1 => exact absurd rfl hne
  | case2 s ih =>
    refine ⟨s, by simp only [List.length_cons]; omega, hg, fun hlast hs => ?_,
      fun w _ => ⟨blank_cons.2 (.inl rfl), rfl⟩⟩
    obtain ⟨c, s, rfl⟩ := List.exists_cons_of_ne_nil hs
    simpa using hlast
  | case3 c s _ ih =>
    obtain ⟨hc, hs⟩ := Bool.and_eq_true_iff.1 hg
    have hlast (hs : s ≠ []) : (c :: s).getLast? = s.getLast? := by
      obtain ⟨d, s, rfl⟩ := List.exists_cons_of_ne_nil hs
      rfl
    -- the first line ends here, or the character is a blank of it and the text goes on
    by_cases hend : c = '\n'
    · subst hend
      exact ⟨s, by simp, hs, fun h hs => (hlast hs).symm.trans h,
        fun w _ => ⟨blank_cons.2 (.inl rfl), rfl⟩⟩
    have hblank : c = ' ' ∨ c = '\t' := by simpa [hend] using hc
    have hskip (w : List Char) : skipBlankLine (c :: w) = skipBlankLine w := by
      rcases hblank with rfl | rfl <;> rfl
    by_cases hnil : s = []
    · subst hnil
      refine ⟨[], by simp, rfl, nofun, fun w hw => ?_⟩
      obtain rfl : w = [] := by simpa [hend] using hw
      exact ⟨blank_cons.2 (.inr ⟨hblank, .nil⟩), by rw [List.append_nil, hskip]; rfl⟩
    · obtain ⟨rest, hlt, hplain, hmore, hline⟩ := ih hs hnil
      rw [hlast hnil]
      refine ⟨rest, by rw [List.length_cons]; omega, hplain, hmore, fun w hw => ?_⟩
      obtain ⟨hblank', heq⟩ := hline w hw
      exact ⟨blank_cons.2 (.inr ⟨hblank, hblank'⟩), by rw [List.cons_append, hskip, heq]⟩

namespace Outline

theorem readAll_blankLines {g : List Char} (hg : isPlain g = true) (hlast : g.getLast? = some '\n')
    (w : List Char) {bound : Nat} (hb : (g ++ w).length < bound) (o : Outline) :
    ∃ bound', w.length < bound' ∧ readAll bound o (g ++ w) = readAll bound' o.takeBlank w := by
  induction bound generalizing g o with
  | zero => omega
  | succ bound ih =>
    have hne : g ≠ [] := by
      rintro rfl
      cases hlast
    obtain ⟨rest, hlt, hplain, hmore, hline⟩ := exists_skipBlankLine hg hne
    obtain ⟨hblank, heq⟩ := hline w (.inl hlast)
    rw [List.length_append] at hb
    rw [readAll_succ _ _ (List.append_ne_nil_of_left_ne_nil hne w), take_of_blank _ _ hblank, heq]
    by_cases hnil : rest = []
    · exact ⟨bound, by omega, by rw [hnil, List.nil_append]⟩
    · obtain ⟨bound', hb', hread⟩ := ih hplain (hmore hlast hnil)
        (by rw [List.length_append]; omega) o.takeBlank
      exact ⟨bound', hb', by rw [hread, takeBlank_takeBlank]⟩

/-- Blank lines before a text change nothing. -/
theorem take_takeBlank_empty (bound : Nat) (s : List Char) :
    Outline.empty.takeBlank.take bound s = Outline.empty.take bound s := by
  have hfinish : Outline.empty.takeBlank.finishList = Outline.empty.finishList := rfl
  have hblank : Outline.empty.takeBlank.blankLine = Outline.empty.blankLine := rfl
  have hlist (m : ListMarker) :
      Outline.empty.takeBlank.continueList m = Outline.empty.continueList m := rfl
  -- the two outlines differ until a container is begun, and no block sees the difference
  have hopened : opened bound Outline.empty.takeBlank s = opened bound .empty s ∨
      opened bound Outline.empty.takeBlank s = (Outline.empty.takeBlank, Cursor.ofLine s, false) ∧
        opened bound .empty s = (.empty, Cursor.ofLine s, false) := by
    change openContainers bound Outline.empty.takeBlank (Cursor.ofLine s) =
        openContainers bound Outline.empty (Cursor.ofLine s) ∨
      openContainers bound Outline.empty.takeBlank (Cursor.ofLine s) = _ ∧
        openContainers bound Outline.empty (Cursor.ofLine s) = _
    cases bound with
    | zero => exact .inr ⟨rfl, rfl⟩
    | succ bound =>
      rw [openContainers_succ, openContainers_succ]
      split
      · exact .inr ⟨rfl, rfl⟩
      · simp only [hlist, hfinish]
        split
        · exact .inl rfl
        · split
          · exact .inl rfl
          · exact .inr ⟨rfl, rfl⟩
  rw [take_eq, take_eq]
  rcases hopened with h | ⟨h, h'⟩
  · rw [h]
  · simp only [h, h', hblank, hfinish]
    rfl

/-- Blank lines at the end of a text. -/
theorem readAll_plain {g : List Char} (hg : isPlain g = true) {bound : Nat} (hb : g.length < bound)
    (o : Outline) : readAll bound o g = o ∨ readAll bound o g = o.takeBlank := by
  induction bound generalizing g o with
  | zero => omega
  | succ bound ih =>
    by_cases hne : g = []
    · rw [hne]
      exact .inl rfl
    obtain ⟨rest, hlt, hplain, -, hline⟩ := exists_skipBlankLine hg hne
    obtain ⟨hblank, heq⟩ := hline [] (.inr rfl)
    rw [List.append_nil] at hblank heq
    rw [readAll_succ _ _ hne, take_of_blank _ _ hblank, heq, List.append_nil]
    rcases ih hplain (by omega) o.takeBlank with h | h
    · exact .inr h
    · exact .inr (h.trans o.takeBlank_takeBlank)

end Outline

end Treatise.Markdown
