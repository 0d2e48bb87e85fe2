import Treatise.Proofs.Markdown.WellNested

/-!
# Levels of headings

A heading is marked by one to six `#`, or by an underline of one of two kinds. So the headings of a
text have the levels one to six and no others.

* **`levelled_readBlocks`** — the blocks of a text hold no headings of other levels.
* **`isHeadingLevel_of_enter`** — and so do its events.
-/

namespace Treatise.Markdown

/-- A level that a heading can have. -/
def IsHeadingLevel (level : Nat) : Prop := 1 ≤ level ∧ level ≤ 6

theorem isHeadingLevel_of_headingLevel? {s : List Char} {level : Nat}
    (h : headingLevel? s = some level) : IsHeadingLevel level := by
  unfold headingLevel? at h
  simp only at h
  split at h
  · next hlevel =>
    have heq : (s.takeWhile (· == '#')).length = level := by
      split at h
      · exact Option.some.inj h
      · split at h
        · exact Option.some.inj h
        · cases h
    exact heq ▸ hlevel
  · cases h

theorem isHeadingLevel_of_underlineLevel? {s : List Char} {level : Nat}
    (h : underlineLevel? s = some level) : IsHeadingLevel level := by
  unfold underlineLevel? at h
  split at h
  · cases h
  · next c _ =>
    split at h
    · have heq : (if c = '=' then 1 else 2) = level := Option.some.inj h
      have hcases : level = 1 ∨ level = 2 := by
        split at heq
        · exact .inl heq.symm
        · exact .inr heq.symm
      unfold IsHeadingLevel
      omega
    · cases h

/-! ## Blocks -/

mutual

/-- The levels of the headings in a block. -/
def Block.levels : Block → List Nat
  | .heading level _ => [level]
  | .quote content => levelsOfBlocks content
  | .list _ _ items => levelsOfItems items
  | _ => []

def levelsOfBlocks : List Block → List Nat
  | [] => []
  | b :: bs => b.levels ++ levelsOfBlocks bs

def levelsOfItems : List (List Block) → List Nat
  | [] => []
  | item :: items => levelsOfBlocks item ++ levelsOfItems items

end

theorem levelsOfBlocks_append (bs cs : List Block) :
    levelsOfBlocks (bs ++ cs) = levelsOfBlocks bs ++ levelsOfBlocks cs := by
  induction bs with
  | nil => rfl
  | cons b bs ih => rw [List.cons_append, levelsOfBlocks, levelsOfBlocks, ih, List.append_assoc]

theorem levelsOfItems_append (items more : List (List Block)) :
    levelsOfItems (items ++ more) = levelsOfItems items ++ levelsOfItems more := by
  induction items with
  | nil => rfl
  | cons item items ih =>
    rw [List.cons_append, levelsOfItems, levelsOfItems, ih, List.append_assoc]

/-- The headings in the block have levels that headings can have. -/
def Block.Levelled (b : Block) : Prop := ∀ level ∈ b.levels, IsHeadingLevel level

theorem Block.levelled_of_nil {b : Block} (h : b.levels = []) : b.Levelled := by
  intro level hlevel
  rw [h] at hlevel
  cases hlevel

theorem Block.levelled_heading {level : Nat} (h : IsHeadingLevel level) (p : Passage) :
    (Block.heading level p).Levelled := by
  intro l hl
  have heq : l = level := List.mem_singleton.1 hl
  exact heq ▸ h

/-! ## A text read in part -/

/-- The headings in an open container have levels that headings can have. -/
structure OpenContainer.Levelled (c : OpenContainer) : Prop where
  blocks : ∀ level ∈ levelsOfBlocks c.blocks, IsHeadingLevel level
  items : ∀ level ∈ levelsOfItems c.items, IsHeadingLevel level

namespace Outline

/-- All headings so far have levels that headings can have. -/
structure Levelled (o : Outline) : Prop where
  blocks : ∀ level ∈ levelsOfBlocks o.blocks, IsHeadingLevel level
  spine : ∀ c ∈ o.spine, c.Levelled

/-- The property is about the blocks and the open containers only. -/
theorem Levelled.congr {o o' : Outline} (h : o.Levelled) (hblocks : o'.blocks = o.blocks)
    (hspine : o'.spine = o.spine) : o'.Levelled :=
  ⟨hblocks ▸ h.blocks, hspine ▸ h.spine⟩

theorem Levelled.tail {o : Outline} (h : o.Levelled) {top : OpenContainer}
    {spine : List OpenContainer} (hspine : o.spine = top :: spine) :
    top.Levelled ∧ ∀ c ∈ spine, c.Levelled := by
  have hall := h.spine
  rw [hspine] at hall
  exact List.forall_mem_cons.1 hall

theorem levelled_add {o : Outline} (h : o.Levelled) {b : Block} (hb : b.Levelled) :
    (o.add b).Levelled := by
  have hone : levelsOfBlocks [b] = b.levels := List.append_nil _
  -- the block goes to the end of the innermost container, or of the text
  unfold add
  split
  · refine ⟨fun level hlevel => ?_, h.spine⟩
    rw [levelsOfBlocks_append, hone, List.mem_append] at hlevel
    exact hlevel.elim (h.blocks level) (hb level)
  · next top spine hspine =>
    obtain ⟨htop, hrest⟩ := h.tail hspine
    refine ⟨h.blocks, List.forall_mem_cons.2 ⟨⟨fun level hlevel => ?_, htop.items⟩, hrest⟩⟩
    rw [levelsOfBlocks_append, hone, List.mem_append] at hlevel
    exact hlevel.elim (htop.blocks level) (hb level)

theorem levelled_addItem {o : Outline} (h : o.Levelled) {item : List Block}
    (hitem : ∀ level ∈ levelsOfBlocks item, IsHeadingLevel level) : (o.addItem item).Levelled := by
  have hone : levelsOfItems [item] = levelsOfBlocks item := List.append_nil _
  unfold addItem
  split
  · exact h
  · next top spine hspine =>
    obtain ⟨htop, hrest⟩ := h.tail hspine
    refine ⟨h.blocks, List.forall_mem_cons.2 ⟨⟨htop.blocks, fun level hlevel => ?_⟩, hrest⟩⟩
    rw [levelsOfItems_append, hone, List.mem_append] at hlevel
    exact hlevel.elim (htop.items level) (hitem level)

theorem levelled_push {o : Outline} (h : o.Levelled) (k : Container) : (o.push k).Levelled :=
  ⟨h.blocks, List.forall_mem_cons.2 ⟨⟨nofun, nofun⟩, h.spine⟩⟩

theorem levelled_close {o : Outline} (h : o.Levelled) : o.close.Levelled := by
  unfold close
  split
  · exact h
  · next top spine hspine =>
    obtain ⟨htop, hrest⟩ := h.tail hspine
    have houter : ({ o with spine } : Outline).Levelled := ⟨h.blocks, hrest⟩
    -- what the container holds becomes one block or one item of the container around it
    simp only
    split
    · exact levelled_add houter htop.blocks
    · exact levelled_addItem houter htop.blocks
    · next mark start tight _ =>
      have hlist :=
        levelled_add houter (b := .list tight (listNumber? mark start) top.items) htop.items
      split
      · exact hlist.congr rfl rfl
      · exact hlist

theorem levelled_closeMany {o : Outline} (h : o.Levelled) (n : Nat) : (closeMany n o).Levelled := by
  induction n generalizing o with
  | zero => exact h
  | succ n ih => exact ih (levelled_close h)

theorem levelled_loosen {c : OpenContainer} (h : c.Levelled) : (loosen c).Levelled := by
  unfold loosen
  split
  · exact ⟨h.blocks, h.items⟩
  · exact h

theorem levelled_finishFreshItem {o : Outline} (h : o.Levelled) : o.finishFreshItem.Levelled := by
  unfold finishFreshItem
  simp only
  split
  · exact (levelled_close h).congr rfl rfl
  · exact h.congr rfl rfl

theorem levelled_finishList {o : Outline} (h : o.Levelled) : o.finishList.Levelled := by
  unfold finishList
  extract_lets fresh closed spine
  have hfresh : fresh.Levelled := levelled_finishFreshItem h
  -- the list whose item is complete is closed first
  have hclosed : closed.Levelled := by
    unfold closed
    split
    · exact levelled_close hfresh
    · exact hfresh
  split
  · have hspine : ∀ c ∈ spine, c.Levelled := by
      unfold spine
      split
      · next top around rest heq =>
        obtain ⟨htop, hrest⟩ := hclosed.tail heq
        obtain ⟨haround, hrest⟩ := List.forall_mem_cons.1 hrest
        exact List.forall_mem_cons.2
          ⟨htop, List.forall_mem_cons.2 ⟨levelled_loosen haround, hrest⟩⟩
      · exact hclosed.spine
    exact ⟨hclosed.blocks, hspine⟩
  · exact hclosed

theorem levelled_continueList {o : Outline} (h : o.Levelled) (m : ListMarker) :
    (o.continueList m).Levelled := by
  have hfresh := levelled_finishFreshItem h
  have hbegin {o : Outline} (h : o.Levelled) :
      ({ o.push (.list m.mark m.number true) with afterBlank := false } : Outline).Levelled :=
    (levelled_push h _).congr rfl rfl
  unfold continueList
  simp only
  split
  · exact hbegin hfresh
  · next top spine hspine =>
    split
    · split
      · split
        · obtain ⟨htop, hrest⟩ := hfresh.tail hspine
          exact ⟨hfresh.blocks, List.forall_mem_cons.2 ⟨levelled_loosen htop, hrest⟩⟩
        · exact hfresh
      · exact hbegin (levelled_finishList hfresh)
    · exact hbegin (levelled_finishList hfresh)

theorem levelled_blankLine {o : Outline} (h : o.Levelled) : o.blankLine.Levelled := by
  unfold blankLine
  split
  · exact h.congr rfl rfl
  · next top spine hspine =>
    obtain ⟨htop, hrest⟩ := h.tail hspine
    split
    · exact h
    · split
      · exact ⟨h.blocks, List.forall_mem_cons.2 ⟨⟨htop.blocks, htop.items⟩, hrest⟩⟩
      · exact h.congr rfl rfl
    · exact h.congr rfl rfl

theorem levelled_openContainers (bound : Nat) {o : Outline} (h : o.Levelled) (c : Cursor) :
    (openContainers bound o c).1.Levelled := by
  induction bound generalizing o c with
  | zero => exact h
  | succ bound ih =>
    unfold openContainers
    simp only
    split
    · exact h
    · split
      · next m itemIndent c' _ =>
        have hitem := levelled_push (levelled_continueList h m) (.item itemIndent)
        split
        · exact hitem.congr rfl rfl
        · exact ih hitem _
      · split
        · exact ih (levelled_push (levelled_finishList h) .quote) _
        · exact h

/-! ## Leaf blocks -/

theorem isHeadingLevel_of_paragraphLines {containers : List Container} {bound : Nat}
    {s after : List Char} {lines : List (List Char)} {level : Nat}
    (h : paragraphLines containers bound s = (lines, some level, after)) :
    IsHeadingLevel level := by
  induction bound generalizing s lines with
  | zero => cases h
  | succ bound ih =>
    unfold paragraphLines at h
    simp only at h
    split at h
    · next l hl =>
      -- the line is the underline
      have hunderline : (FollowingLine.read containers s).underlineLevel? = some l := by
        split at hl
        · exact hl
        · cases hl
      have heq : l = level := by
        have := congrArg (·.2.1) h
        exact Option.some.inj this
      unfold FollowingLine.underlineLevel? at hunderline
      split at hunderline
      · cases hunderline
      · exact heq ▸ isHeadingLevel_of_underlineLevel? hunderline
    · split at h
      · cases h
      · have hlevel := congrArg (·.2.1) h
        have hafter := congrArg (·.2.2) h
        exact @ih _ _ (Prod.ext rfl (Prod.ext hlevel hafter))

theorem levelled_readParagraph (containers : List Container) (bound : Nat) (s : List Char) :
    (readParagraph containers bound s).1.Levelled := by
  unfold readParagraph
  simp only
  generalize hlines : paragraphLines containers bound (takeLine s).2 = r
  obtain ⟨lines, level, after⟩ := r
  cases level with
  | none => exact Block.levelled_of_nil rfl
  | some level => exact Block.levelled_heading (isHeadingLevel_of_paragraphLines hlines) _

theorem levels_of_readTable? {containers : List Container} {bound : Nat} {s after : List Char}
    {b : Block} (h : readTable? containers bound s = some (b, after)) : b.levels = [] := by
  unfold readTable? at h
  simp only at h
  split at h
  · cases h
  · split at h
    · cases h
    · split at h
      · cases h
      · cases h
        rfl

theorem levelled_takeParagraph {bound : Nat} {o : Outline} (h : o.Levelled) (s : List Char) :
    (takeParagraph bound o s).1.Levelled := by
  induction bound generalizing o s with
  | zero => exact h
  | succ bound ih =>
    unfold takeParagraph
    simp only
    split
    · next definition rest _ =>
      have hdefined :
          ({ o with definitions := o.definitions ++ [definition] } : Outline).Levelled :=
        h.congr rfl rfl
      split
      · exact hdefined
      · exact ih hdefined _
    · refine levelled_add h ?_
      cases htable : readTable? o.containers bound s with
      | none => exact levelled_readParagraph o.containers bound s
      | some r => exact Block.levelled_of_nil (levels_of_readTable? htable)

theorem levelled_takeLeaf {o : Outline} (h : o.Levelled) (bound : Nat) (c : Cursor) :
    (o.takeLeaf bound c).1.Levelled := by
  unfold takeLeaf
  simp only
  split
  · exact (levelled_add h (b := .code [] _) nofun).congr rfl rfl
  · split
    · exact levelled_add h (b := .html _) nofun
    · split
      · exact levelled_add h (b := .rule) nofun
      · split
        · next level hlevel =>
          exact levelled_add h (Block.levelled_heading (isHeadingLevel_of_headingLevel? hlevel) _)
        · split
          · exact levelled_add h (b := .code _ _) nofun
          · exact levelled_takeParagraph h _

theorem levelled_take {o : Outline} (h : o.Levelled) (bound : Nat) (s : List Char) :
    (o.take bound s).1.Levelled := by
  unfold take
  simp only
  have hclosed := levelled_closeMany h (Container.follow o.containers (Cursor.ofLine s)).1
  have hopen := fun c => levelled_openContainers bound hclosed c
  split
  · exact hopen _
  · split
    · exact levelled_blankLine (hopen _)
    · exact levelled_takeLeaf (levelled_finishList (hopen _)) _ _

theorem levelled_takeAll {bound : Nat} {o : Outline} (h : o.Levelled) (s : List Char) :
    (takeAll bound o s).Levelled := by
  induction bound generalizing o s with
  | zero => exact h
  | succ bound ih =>
    unfold takeAll
    split
    · exact levelled_closeMany h _
    · exact ih (levelled_take h bound s) _

end Outline

theorem levelled_readBlocks (s : List Char) :
    ∀ level ∈ levelsOfBlocks (readBlocks s).1, IsHeadingLevel level := by
  have hempty : Outline.empty.Levelled := ⟨nofun, nofun⟩
  exact (Outline.levelled_takeAll hempty s).blocks

/-! ## Events -/

/-- No heading begins in running text. -/
theorem notMem_of_wellNested {e : Element} {es : List Event}
    (h : WellNested Event.fits (some e) es) (he : e.holdsInline = true) (level : Nat) :
    .enter (.heading level) ∉ es := by
  generalize hholder : some e = holder at h
  induction h generalizing e with
  | nil => exact List.not_mem_nil
  | single hsingle _ _ ih =>
    intro hmem
    rcases List.mem_cons.1 hmem with rfl | hmem
    · cases hsingle
    · exact ih he hholder hmem
  | @verbatim holder e' inside es hverbatim hfits =>
    -- no verbatim element stands inside running text
    have hinside : e'.isInline = true := (hfits e hholder.symm).1 he
    cases e' <;> first | exact absurd hinside Bool.false_ne_true | cases hverbatim
  | @around holder e' inside es _ hfits _ _ ihInside ih =>
    intro hmem
    -- an element inside running text is one of running text, and holds running text
    have hinside : e'.isInline = true := (hfits e hholder.symm).1 he
    have hholds : e'.holdsInline = true := by
      cases e' <;> first | rfl | exact absurd hinside Bool.false_ne_true
    have hne : e' ≠ .heading level := by
      rintro rfl
      exact absurd hinside Bool.false_ne_true
    have hparts : .enter (.heading level) ∈ inside ∨ .enter (.heading level) ∈ es := by
      simpa [Element.around, Ne.symm hne] using hmem
    rcases hparts with hmem | hmem
    · exact ihInside hholds rfl hmem
    · exact ih he hholder hmem

theorem notMem_passageEvents (definitions : List LinkDefinition) (p : Passage) (level : Nat) :
    .enter (.heading level) ∉ passageEvents definitions p := by
  have hnested : WellNested Event.fits (some .paragraph) (passageEvents definitions p) :=
    wellNested_passageEvents definitions (Element.admitsInline_of_holdsInline rfl) p
  exact notMem_of_wellNested hnested rfl level

theorem notMem_cellsEvents (definitions : List LinkDefinition) (cells : List Passage)
    (level : Nat) : .enter (.heading level) ∉ cellsEvents definitions cells := by
  intro hmem
  obtain ⟨cell, -, hcell⟩ := List.mem_flatMap.1 hmem
  have hinside : .enter (.heading level) ∈ passageEvents definitions cell := by
    simpa [Element.around] using hcell
  exact notMem_passageEvents definitions cell level hinside

/-- A heading among the events of an element that is none is among those inside. -/
theorem mem_of_mem_around (e : Element) {inside : List Event} {level : Nat}
    (he : e ≠ .heading level) (h : .enter (.heading level) ∈ e.around inside) :
    .enter (.heading level) ∈ inside := by
  simpa [Element.around, Ne.symm he] using h

mutual

theorem mem_levels_of_enter {definitions : List LinkDefinition} {tight : Bool} {level : Nat} :
    ∀ {b : Block}, .enter (.heading level) ∈ blockEvents definitions tight b → level ∈ b.levels
  | .paragraph p, h => by
    unfold blockEvents at h
    simp only at h
    split at h
    · exact absurd h (notMem_passageEvents definitions p level)
    · have hinside := mem_of_mem_around .paragraph nofun h
      exact absurd hinside (notMem_passageEvents definitions p level)
  | .heading l p, h => by
    by_cases hl : l = level
    · exact List.mem_singleton.2 hl.symm
    · have hinside := mem_of_mem_around (.heading l) (fun heq => hl (Element.heading.inj heq)) h
      exact absurd hinside (notMem_passageEvents definitions p level)
  | .quote content, h => mem_levelsOfBlocks_of_enter (mem_of_mem_around .quote nofun h)
  | .code language s, h => by
    have hinside := mem_of_mem_around (.codeBlock language) nofun h
    cases List.mem_singleton.1 hinside
  | .html s, h => by
    have hinside := mem_of_mem_around .htmlBlock nofun h
    cases List.mem_singleton.1 hinside
  | .list tight number items, h =>
    mem_levelsOfItems_of_enter (mem_of_mem_around (.list number) nofun h)
  | .rule, h => nomatch List.mem_singleton.1 h
  | .table head rows, h => by
    rcases List.mem_append.1 (mem_of_mem_around .table nofun h) with h | h
    · have hinside := mem_of_mem_around .tableHead nofun h
      exact absurd hinside (notMem_cellsEvents definitions head level)
    · obtain ⟨cells, -, hcells⟩ := List.mem_flatMap.1 h
      have hinside := mem_of_mem_around .tableRow nofun hcells
      exact absurd hinside (notMem_cellsEvents definitions cells level)

theorem mem_levelsOfBlocks_of_enter {definitions : List LinkDefinition} {tight : Bool}
    {level : Nat} : ∀ {bs : List Block},
      .enter (.heading level) ∈ blocksEvents definitions tight bs → level ∈ levelsOfBlocks bs
  | [], h => absurd h List.not_mem_nil
  | b :: bs, h => by
    rcases List.mem_append.1 h with h | h
    · exact List.mem_append_left _ (mem_levels_of_enter h)
    · exact List.mem_append_right _ (mem_levelsOfBlocks_of_enter h)

theorem mem_levelsOfItems_of_enter {definitions : List LinkDefinition} {tight : Bool}
    {level : Nat} : ∀ {items : List (List Block)},
      .enter (.heading level) ∈ itemsEvents definitions tight items →
        level ∈ levelsOfItems items
  | [], h => absurd h List.not_mem_nil
  | item :: items, h => by
    rcases List.mem_append.1 h with h | h
    · have hinside := mem_of_mem_around .item nofun h
      exact List.mem_append_left _ (mem_levelsOfBlocks_of_enter hinside)
    · exact List.mem_append_right _ (mem_levelsOfItems_of_enter h)

end

/-- The headings among the events of a text have the levels that headings can have. -/
theorem isHeadingLevel_of_enter {s : List Char} {level : Nat}
    (h : .enter (.heading level) ∈ readEvents s) : IsHeadingLevel level :=
  levelled_readBlocks s level (mem_levelsOfBlocks_of_enter h)

end Treatise.Markdown
