import Treatise.Proofs.Markdown.Chomping

/-!
# Literal text

The texts of code blocks and of raw HTML, in the order of the document. Reading on never takes one
back or changes it, as lists hold nothing but items and items stand in lists only.

* `Alternating` — the open containers are so nested;
* `Outline.literals` — the literal texts read so far;
* `literals_…` — a step keeps them, but for the leaf block that it adds.
-/

namespace Treatise.Markdown

mutual

/-- The texts of the code blocks and the raw HTML in a block. -/
def Block.literals : Block → List (List Char)
  | .quote content => literalsOfBlocks content
  | .code _ s => [s]
  | .html s => [s]
  | .list _ _ items => literalsOfItems items
  | _ => []

def literalsOfBlocks : List Block → List (List Char)
  | [] => []
  | b :: bs => b.literals ++ literalsOfBlocks bs

def literalsOfItems : List (List Block) → List (List Char)
  | [] => []
  | item :: items => literalsOfBlocks item ++ literalsOfItems items

end

theorem literalsOfBlocks_append (bs cs : List Block) :
    literalsOfBlocks (bs ++ cs) = literalsOfBlocks bs ++ literalsOfBlocks cs := by
  induction bs with
  | nil => rfl
  | cons b bs ih =>
    rw [List.cons_append, literalsOfBlocks, literalsOfBlocks, ih, List.append_assoc]

theorem literalsOfItems_append (items more : List (List Block)) :
    literalsOfItems (items ++ more) = literalsOfItems items ++ literalsOfItems more := by
  induction items with
  | nil => rfl
  | cons item items ih =>
    rw [List.cons_append, literalsOfItems, literalsOfItems, ih, List.append_assoc]

mutual

@[simp] theorem Block.literals_chomp : (b : Block) → b.chomp.literals = b.literals
  | .paragraph _ => rfl
  | .heading _ _ => rfl
  | .quote content => literalsOfBlocks_chomp content
  | .code _ _ => rfl
  | .html _ => rfl
  | .list _ _ items => literalsOfItems_chomp items
  | .rule => rfl
  | .table _ _ => rfl

@[simp] theorem literalsOfBlocks_chomp :
    (bs : List Block) → literalsOfBlocks (chompBlocks bs) = literalsOfBlocks bs
  | [] => rfl
  | b :: bs => congrArg₂ (· ++ ·) b.literals_chomp (literalsOfBlocks_chomp bs)

@[simp] theorem literalsOfItems_chomp :
    (items : List (List Block)) → literalsOfItems (chompItems items) = literalsOfItems items
  | [] => rfl
  | item :: items =>
    congrArg₂ (· ++ ·) (literalsOfBlocks_chomp item) (literalsOfItems_chomp items)

end

/-! ## Open containers -/

def Container.isList : Container → Bool
  | list _ _ _ => true
  | _ => false

def Container.isItem : Container → Bool
  | item _ => true
  | _ => false

/-- Lists hold nothing but items, and items stand in lists only. The innermost container comes
first. -/
def Alternating : List Container → Prop
  | [] => True
  | k :: outer => k.isItem = outer.head?.any Container.isList ∧ Alternating outer

theorem Alternating.tail {ks : List Container} (h : Alternating ks) : Alternating ks.tail := by
  cases ks with
  | nil => exact h
  | cons k ks => exact h.2

/-- The literal texts in what an open container holds. -/
def OpenContainer.literals (c : OpenContainer) : List (List Char) :=
  if c.container.isList then literalsOfItems c.items else literalsOfBlocks c.blocks

theorem OpenContainer.literals_chomp (c : OpenContainer) : c.chomp.literals = c.literals := by
  simp [OpenContainer.literals, OpenContainer.chomp]

namespace Outline

/-- The literal texts read so far. -/
def literals (o : Outline) : List (List Char) :=
  literalsOfBlocks o.blocks ++ o.spine.reverse.flatMap (·.literals)

@[simp] theorem literals_chomp (o : Outline) : o.chomp.literals = o.literals := by
  have hspine : (o.spine.map (·.chomp)).reverse.flatMap (·.literals) =
      o.spine.reverse.flatMap (·.literals) := by
    rw [← List.map_reverse, List.flatMap_map]
    simp only [OpenContainer.literals_chomp]
  rw [literals, literals, ← hspine]
  exact congrArg (· ++ _) (literalsOfBlocks_chomp o.blocks)

/-- The open containers, the innermost first. -/
def shape (o : Outline) : List Container := o.spine.map (·.container)

/-- The innermost container is a list. -/
def topIsList (o : Outline) : Bool := o.shape.head?.any Container.isList

@[simp] theorem shape_add (o : Outline) (b : Block) : (o.add b).shape = o.shape := by
  unfold add
  split
  · rfl
  next h => simp [shape, h]

@[simp] theorem shape_addItem (o : Outline) (item : List Block) :
    (o.addItem item).shape = o.shape := by
  unfold addItem
  split
  · rfl
  next h => simp [shape, h]

theorem literals_push (o : Outline) (k : Container) : (o.push k).literals = o.literals := by
  simp [literals, push, OpenContainer.literals, literalsOfBlocks, literalsOfItems]

theorem literals_add {o : Outline} (h : o.topIsList = false) (b : Block) :
    (o.add b).literals = o.literals ++ b.literals := by
  have hone : literalsOfBlocks [b] = b.literals := List.append_nil _
  obtain ⟨blocks, spine, _, _, _⟩ := o
  cases spine with
  | nil => simp [literals, add, literalsOfBlocks_append, hone]
  | cons top spine =>
    have htop : top.container.isList = false := h
    simp [literals, add, literalsOfBlocks_append, hone, OpenContainer.literals, htop]

theorem literals_addItem {o : Outline} (h : o.topIsList = true) (item : List Block) :
    (o.addItem item).literals = o.literals ++ literalsOfBlocks item := by
  have hone : literalsOfItems [item] = literalsOfBlocks item := List.append_nil _
  obtain ⟨blocks, spine, _, _, _⟩ := o
  cases spine with
  | nil => cases h
  | cons top spine =>
    have htop : top.container.isList = true := h
    simp [literals, addItem, literalsOfItems_append, hone, OpenContainer.literals, htop]

/-- Nothing literal is lost or added between two outlines, and the containers of the second one
alternate. -/
structure Keeps (o o' : Outline) : Prop where
  alternating : Alternating o'.shape
  literals : o'.literals = o.literals

theorem Keeps.refl {o : Outline} (h : Alternating o.shape) : Keeps o o := ⟨h, rfl⟩

theorem Keeps.trans {o₁ o₂ o₃ : Outline} (h : Keeps o₁ o₂) (h' : Keeps o₂ o₃) : Keeps o₁ o₃ :=
  ⟨h'.alternating, h'.literals.trans h.literals⟩

/-- Only the blocks and the open containers count. -/
theorem Keeps.congr {o o₁ o₂ : Outline} (h : Keeps o o₁) (hblocks : o₂.blocks = o₁.blocks)
    (hspine : o₂.spine = o₁.spine) : Keeps o o₂ where
  alternating := by rw [shape, hspine]; exact h.alternating
  literals := by rw [Outline.literals, hblocks, hspine]; exact h.literals

@[simp] theorem shape_close (o : Outline) : o.close.shape = o.shape.tail := by
  obtain ⟨blocks, spine, afterBlank, freshItem, definitions⟩ := o
  cases spine with
  | nil => rfl
  | cons top spine =>
    obtain ⟨k, held, items⟩ := top
    cases k with
    | quote => exact shape_add ⟨blocks, spine, afterBlank, freshItem, definitions⟩ _
    | item n => exact shape_addItem ⟨blocks, spine, afterBlank, freshItem, definitions⟩ _
    | list mark start tight =>
      cases tight <;> exact shape_add ⟨blocks, spine, afterBlank, freshItem, definitions⟩ _

/-- A container that is closed goes into the one around it with all that it holds. -/
theorem keeps_close {o : Outline} (h : Alternating o.shape) : Keeps o o.close := by
  refine ⟨by rw [shape_close]; exact h.tail, ?_⟩
  obtain ⟨blocks, spine, afterBlank, freshItem, definitions⟩ := o
  cases spine with
  | nil => rfl
  | cons top spine =>
    obtain ⟨k, held, items⟩ := top
    have htop (c : OpenContainer) :
        (Outline.mk blocks (c :: spine) afterBlank freshItem definitions).literals =
          (Outline.mk blocks spine afterBlank freshItem definitions).literals ++ c.literals := by
      simp [literals]
    rw [htop]
    cases k with
    | quote => exact literals_add (o := ⟨blocks, spine, _, _, _⟩) h.1.symm (.quote held)
    | item n => exact literals_addItem (o := ⟨blocks, spine, _, _, _⟩) h.1.symm held
    | list mark start tight =>
      have hadd := literals_add (o := ⟨blocks, spine, afterBlank, freshItem, definitions⟩)
        h.1.symm (.list tight (listNumber? mark start) items)
      cases tight <;> exact hadd

theorem keeps_closeMany {o : Outline} (h : Alternating o.shape) (n : Nat) :
    Keeps o (closeMany n o) := by
  induction n generalizing o with
  | zero => exact .refl h
  | succ n ih => exact (keeps_close h).trans (ih (keeps_close h).alternating)

theorem keeps_finishFreshItem {o : Outline} (h : Alternating o.shape) :
    Keeps o o.finishFreshItem := by
  unfold finishFreshItem
  dsimp only
  split
  · exact (keeps_close h).congr rfl rfl
  · exact (Keeps.refl h).congr rfl rfl

theorem isList_of_top? (o : Outline) : o.topIsList = o.top?.any Container.isList := by
  rw [topIsList, shape, List.head?_map, top?]

/-- A list stands in no list. -/
theorem keeps_closeList {o : Outline} (h : Alternating o.shape) :
    Keeps o o.closeList ∧ o.closeList.topIsList = false := by
  unfold closeList
  split
  next mark start tight htop =>
    refine ⟨keeps_close h, ?_⟩
    rw [topIsList, shape_close]
    have hhead : o.shape.head? = some (.list mark start tight) := by
      rw [shape, List.head?_map]; exact htop
    obtain ⟨outer, hshape⟩ : ∃ outer, o.shape = .list mark start tight :: outer := by
      cases hs : o.shape with
      | nil => rw [hs] at hhead; cases hhead
      | cons k outer => rw [hs] at hhead; exact ⟨outer, by rw [Option.some.inj hhead]⟩
    rw [hshape] at h ⊢
    exact h.1.symm
  next hno =>
    refine ⟨.refl h, ?_⟩
    rw [isList_of_top?]
    cases htop : o.top? with
    | none => rfl
    | some k =>
      cases k with
      | list mark start tight => exact absurd htop (hno mark start tight)
      | _ => rfl

@[simp] theorem isList_loosen (c : OpenContainer) :
    (loosen c).container.isList = c.container.isList := by
  obtain ⟨k, _, _⟩ := c
  cases k <;> rfl

@[simp] theorem isItem_loosen (c : OpenContainer) :
    (loosen c).container.isItem = c.container.isItem := by
  obtain ⟨k, _, _⟩ := c
  cases k <;> rfl

@[simp] theorem literals_loosen (c : OpenContainer) : (loosen c).literals = c.literals := by
  obtain ⟨k, _, _⟩ := c
  cases k <;> rfl

theorem keeps_loosenAround {o : Outline} (h : Alternating o.shape) :
    Keeps o o.loosenAround ∧ o.loosenAround.topIsList = o.topIsList := by
  obtain ⟨blocks, spine, afterBlank, freshItem, definitions⟩ := o
  cases afterBlank with
  | false => exact ⟨.refl h, rfl⟩
  | true =>
    match spine with
    | [] => exact ⟨(Keeps.refl h).congr rfl rfl, rfl⟩
    | [_] => exact ⟨(Keeps.refl h).congr rfl rfl, rfl⟩
    | top :: around :: spine =>
      obtain ⟨htop, haround, hspine⟩ := h
      refine ⟨⟨⟨?_, ?_, hspine⟩, ?_⟩, rfl⟩
      · exact htop.trans (isList_loosen around).symm
      · exact (isItem_loosen around).trans haround
      · simp [literals, loosenAround]

/-- No list is the innermost container when another block begins. -/
theorem keeps_finishList {o : Outline} (h : Alternating o.shape) :
    Keeps o o.finishList ∧ o.finishList.topIsList = false := by
  have hfresh := keeps_finishFreshItem h
  obtain ⟨hclosed, htop⟩ := keeps_closeList hfresh.alternating
  obtain ⟨haround, htop'⟩ := keeps_loosenAround hclosed.alternating
  exact ⟨(hfresh.trans hclosed).trans haround, htop'.trans htop⟩

theorem keeps_push {o : Outline} (h : Alternating o.shape) {k : Container}
    (hk : k.isItem = o.topIsList) : Keeps o (o.push k) :=
  ⟨⟨hk, h⟩, literals_push o k⟩

theorem keeps_beginList {o : Outline} (h : Alternating o.shape) (htop : o.topIsList = false)
    (m : ListMarker) : Keeps o (o.beginList m) ∧ (o.beginList m).topIsList = true :=
  ⟨(keeps_push h (k := .list m.mark m.number true) htop.symm).congr rfl rfl, rfl⟩

theorem keeps_loosenTop {o : Outline} (h : Alternating o.shape) {top : OpenContainer}
    {spine : List OpenContainer} (hspine : o.spine = top :: spine) :
    Keeps o { o with spine := loosen top :: spine } ∧
      ({ o with spine := loosen top :: spine } : Outline).topIsList = o.topIsList := by
  rw [shape, hspine] at h
  refine ⟨⟨⟨(isItem_loosen top).trans h.1, h.2⟩, ?_⟩, ?_⟩
  · simp [literals, hspine]
  · simp [topIsList, shape, hspine]

/-- A list is the innermost container when an item begins. -/
theorem keeps_continueList {o : Outline} (h : Alternating o.shape) (m : ListMarker) :
    Keeps o (o.continueList m) ∧ (o.continueList m).topIsList = true := by
  have hfresh := keeps_finishFreshItem h
  rw [continueList_eq]
  generalize o.finishFreshItem = o' at hfresh
  have hbegin : Keeps o (o'.finishList.beginList m) ∧
      (o'.finishList.beginList m).topIsList = true := by
    obtain ⟨hfinish, htop⟩ := keeps_finishList hfresh.alternating
    obtain ⟨hbegin, hlist⟩ := keeps_beginList hfinish.alternating htop m
    exact ⟨(hfresh.trans hfinish).trans hbegin, hlist⟩
  unfold goOnWithList
  split
  next hspine =>
    obtain ⟨hbegin, hlist⟩ := keeps_beginList hfresh.alternating
      (by simp [topIsList, shape, hspine]) m
    exact ⟨hfresh.trans hbegin, hlist⟩
  next top spine hspine =>
    split
    next mark start tight hlist =>
      have htop : o'.topIsList = true := by simp [topIsList, shape, hspine, hlist, Container.isList]
      split
      · split
        · obtain ⟨hloosen, hsame⟩ := keeps_loosenTop hfresh.alternating hspine
          exact ⟨hfresh.trans (hloosen.congr rfl rfl), hsame.trans htop⟩
        · exact ⟨hfresh, htop⟩
      · exact hbegin
    next => exact hbegin

theorem keeps_blankLine {o : Outline} (h : Alternating o.shape) : Keeps o o.blankLine := by
  obtain ⟨blocks, spine, afterBlank, freshItem, definitions⟩ := o
  cases spine with
  | nil => exact (Keeps.refl h).congr rfl rfl
  | cons top spine =>
    obtain ⟨k, held, items⟩ := top
    cases k with
    | quote => exact .refl h
    | list mark start tight => exact (Keeps.refl h).congr rfl rfl
    | item n =>
      cases freshItem with
      | false => exact (Keeps.refl h).congr rfl rfl
      | true => exact ⟨h, by simp [literals, blankLine, OpenContainer.literals, Container.isList]⟩

theorem keeps_openContainers (bound : Nat) {o : Outline} (h : Alternating o.shape) (c : Cursor) :
    Keeps o (openContainers bound o c).1 := by
  induction bound generalizing o c with
  | zero => exact .refl h
  | succ bound ih =>
    rw [openContainers]
    dsimp only
    split
    · exact .refl h
    · split
      next m itemIndent c' _ =>
        obtain ⟨hlist, htop⟩ := keeps_continueList h m
        have hitem := hlist.trans (keeps_push hlist.alternating (k := .item itemIndent) htop.symm)
        split
        · exact hitem.congr rfl rfl
        · exact hitem.trans (ih hitem.alternating _)
      · split
        next c' _ =>
          obtain ⟨hfinish, htop⟩ := keeps_finishList h
          have hquote := hfinish.trans (keeps_push hfinish.alternating (k := .quote) htop.symm)
          exact hquote.trans (ih hquote.alternating _)
        · exact .refl h

end Outline

end Treatise.Markdown
