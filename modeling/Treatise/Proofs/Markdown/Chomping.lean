import Treatise.Proofs.Markdown.Tails
import Treatise.Text.Line

/-!
# Passages without the end of their last line

What a passage says does not depend on the end of its last line, so outlines are compared with that
end taken off. Every step of the reader keeps to it: what the open containers hold is never looked at.

* `Outline.chomp` — an outline whose passages have no line end at their end;
* the lemmas named `chomp_…` — a step on the chomped outline is the chomped step.
-/

namespace Treatise.Markdown

instance (x : List Char) : Decidable (EndsInLine x) :=
  decidable_of_iff (x.getLast?.all (fun c => !isLineEnd c && c != '\\') = true)
    (by simp [EndsInLine, Option.all_eq_true])

theorem chompLine_append_stop {x stop : List Char} (hx : EndsInLine x)
    (hstop : stop = [] ∨ stop = ['\n'] ∨ stop = ['\r', '\n']) :
    Text.chompLine (x ++ stop) = x := by
  have hlast : ∀ c r, x.reverse = c :: r → isLineEnd c = false := fun c r h =>
    (hx c (by rw [List.getLast?_eq_head?_reverse, h]; rfl)).1
  cases hrev : x.reverse with
  | nil =>
    obtain rfl : x = [] := List.reverse_eq_nil_iff.1 hrev
    rcases hstop with rfl | rfl | rfl <;> rfl
  | cons c r =>
    have hc := hlast c r hrev
    have hn : c ≠ '\n' := by rintro rfl; cases hc
    have hr : c ≠ '\r' := by rintro rfl; cases hc
    have hx : (c :: r).reverse = x := by rw [← hrev, List.reverse_reverse]
    rcases hstop with rfl | rfl | rfl
    · simp [Text.chompLine, hrev, hn]
    · simp only [Text.chompLine, List.reverse_append, hrev]
      simp [hr, ← hx]
    · simp only [Text.chompLine, List.reverse_append, hrev]
      simp [← hx]

/-- A passage without the end of its last line. A passage that ends otherwise stays as it is. -/
def Passage.chomp (p : Passage) : Passage :=
  if p.tail = 0 ∧ p.isCell = false ∧ EndsInLine (Text.chompLine p.text) then
    { p with text := Text.chompLine p.text }
  else p

theorem Passage.chomp_append_stop (ks : List Container) {x stop : List Char} (hx : EndsInLine x)
    (hstop : stop = [] ∨ stop = ['\n'] ∨ stop = ['\r', '\n']) :
    (Passage.mk ks (x ++ stop) 0 false).chomp = ⟨ks, x, 0, false⟩ := by
  rw [chomp, if_pos ⟨rfl, rfl, by rw [chompLine_append_stop hx hstop]; exact hx⟩,
    chompLine_append_stop hx hstop]

/-! ## Blocks -/

mutual

/-- A block whose passages have no line end at their end. -/
def Block.chomp : Block → Block
  | .paragraph p => .paragraph p.chomp
  | .heading level p => .heading level p.chomp
  | .quote content => .quote (chompBlocks content)
  | .list tight number items => .list tight number (chompItems items)
  | b => b

def chompBlocks : List Block → List Block
  | [] => []
  | b :: bs => b.chomp :: chompBlocks bs

def chompItems : List (List Block) → List (List Block)
  | [] => []
  | item :: items => chompBlocks item :: chompItems items

end

theorem chompBlocks_append (bs cs : List Block) :
    chompBlocks (bs ++ cs) = chompBlocks bs ++ chompBlocks cs := by
  induction bs with
  | nil => rfl
  | cons b bs ih => rw [List.cons_append, chompBlocks, chompBlocks, ih, List.cons_append]

theorem chompItems_append (items more : List (List Block)) :
    chompItems (items ++ more) = chompItems items ++ chompItems more := by
  induction items with
  | nil => rfl
  | cons item items ih => rw [List.cons_append, chompItems, chompItems, ih, List.cons_append]

/-! ## Outlines -/

def OpenContainer.chomp (c : OpenContainer) : OpenContainer :=
  { c with blocks := chompBlocks c.blocks, items := chompItems c.items }

namespace Outline

def chomp (o : Outline) : Outline :=
  { o with blocks := chompBlocks o.blocks, spine := o.spine.map (·.chomp) }

variable (o : Outline)

@[simp] theorem containers_chomp : o.chomp.containers = o.containers := by
  simp [containers, chomp, OpenContainer.chomp]

@[simp] theorem definitions_chomp : o.chomp.definitions = o.definitions := rfl

@[simp] theorem top?_chomp : o.chomp.top? = o.top? := by
  simp only [top?, chomp, List.head?_map, Option.map_map]
  rfl

@[simp] theorem length_spine_chomp : o.chomp.spine.length = o.spine.length := List.length_map _

theorem chomp_add (b : Block) : (o.add b).chomp = o.chomp.add b.chomp := by
  obtain ⟨blocks, spine, _, _, _⟩ := o
  cases spine with
  | nil => simp only [add, chomp, List.map_nil, chompBlocks_append, chompBlocks]
  | cons top spine =>
    simp only [add, chomp, List.map_cons, OpenContainer.chomp, chompBlocks_append, chompBlocks]

theorem chomp_addItem (item : List Block) :
    (o.addItem item).chomp = o.chomp.addItem (chompBlocks item) := by
  obtain ⟨blocks, spine, _, _, _⟩ := o
  cases spine with
  | nil => rfl
  | cons top spine =>
    simp only [addItem, chomp, List.map_cons, OpenContainer.chomp, chompItems_append, chompItems]

theorem chomp_push (k : Container) : (o.push k).chomp = o.chomp.push k := rfl

theorem chomp_close : o.close.chomp = o.chomp.close := by
  obtain ⟨blocks, spine, afterBlank, freshItem, definitions⟩ := o
  cases spine with
  | nil => rfl
  | cons top spine =>
    obtain ⟨k, held, items⟩ := top
    cases k with
    | quote => exact chomp_add ⟨blocks, spine, afterBlank, freshItem, definitions⟩ (.quote held)
    | item n => exact chomp_addItem ⟨blocks, spine, afterBlank, freshItem, definitions⟩ held
    | list mark start tight =>
      have hadd := chomp_add ⟨blocks, spine, afterBlank, freshItem, definitions⟩
        (.list tight (listNumber? mark start) items)
      cases tight with
      | false => exact hadd
      | true => exact congrArg (fun o : Outline => { o with freshItem := false }) hadd

theorem chomp_closeMany (n : Nat) : (closeMany n o).chomp = closeMany n o.chomp := by
  induction n generalizing o with
  | zero => rfl
  | succ n ih => rw [closeMany, closeMany, ih, chomp_close]

theorem chomp_loosen (c : OpenContainer) : (loosen c).chomp = loosen c.chomp := by
  obtain ⟨k, _, _⟩ := c
  cases k <;> rfl

theorem chomp_finishFreshItem : o.finishFreshItem.chomp = o.chomp.finishFreshItem := by
  have hin : o.chomp.inItem = o.inItem := by rw [inItem, inItem, top?_chomp]
  have hclose (b : Bool) : (if b then o.close else o).chomp =
      if b then o.chomp.close else o.chomp := by
    cases b
    · rfl
    · exact chomp_close o
  unfold finishFreshItem
  rw [hin]
  exact congrArg (fun o : Outline => { o with freshItem := false }) (hclose _)

/-- A list that is complete is closed. -/
def closeList (o : Outline) : Outline :=
  match o.top? with
  | some (.list _ _ _) => o.close
  | _ => o

/-- After a blank line, the list around the innermost container is loose. -/
def loosenAround (o : Outline) : Outline :=
  if o.afterBlank then
    { o with
      spine := match o.spine with
        | top :: around :: spine => top :: loosen around :: spine
        | spine => spine
      afterBlank := false }
  else o

theorem finishList_eq : o.finishList = o.finishFreshItem.closeList.loosenAround := rfl

theorem chomp_closeList : o.closeList.chomp = o.chomp.closeList := by
  unfold closeList
  rw [top?_chomp]
  split
  · exact chomp_close o
  · rfl

theorem chomp_loosenAround : o.loosenAround.chomp = o.chomp.loosenAround := by
  obtain ⟨blocks, spine, afterBlank, freshItem, definitions⟩ := o
  cases afterBlank with
  | false => rfl
  | true =>
    match spine with
    | [] => rfl
    | [_] => rfl
    | top :: around :: spine =>
      simp only [loosenAround, chomp, if_pos, List.map_cons, chomp_loosen]

theorem chomp_finishList : o.finishList.chomp = o.chomp.finishList := by
  rw [finishList_eq, finishList_eq, chomp_loosenAround, chomp_closeList, chomp_finishFreshItem]

/-- Begins a list. -/
def beginList (o : Outline) (m : ListMarker) : Outline :=
  { o.push (.list m.mark m.number true) with afterBlank := false }

/-- Goes on with the innermost list, if its mark is the same. -/
def goOnWithList (o : Outline) (m : ListMarker) : Outline :=
  match o.spine with
  | [] => o.beginList m
  | top :: spine =>
    match top.container with
    | .list mark _ _ =>
      if mark = m.mark then
        if o.afterBlank then { o with spine := loosen top :: spine, afterBlank := false } else o
      else o.finishList.beginList m
    | _ => o.finishList.beginList m

theorem continueList_eq (m : ListMarker) :
    o.continueList m = o.finishFreshItem.goOnWithList m := rfl

theorem chomp_continueList (m : ListMarker) :
    (o.continueList m).chomp = o.chomp.continueList m := by
  have hbegin (o : Outline) : (o.finishList.beginList m).chomp = o.chomp.finishList.beginList m :=
    congrArg (beginList · m) (chomp_finishList o)
  rw [continueList_eq, continueList_eq, ← chomp_finishFreshItem]
  generalize o.finishFreshItem = o
  obtain ⟨blocks, spine, afterBlank, freshItem, definitions⟩ := o
  cases spine with
  | nil => rfl
  | cons top spine =>
    obtain ⟨k, held, items⟩ := top
    cases k with
    | quote => exact hbegin _
    | item n => exact hbegin _
    | list mark start tight =>
      by_cases hmark : mark = m.mark
      · cases afterBlank <;> simp [goOnWithList, chomp, hmark, OpenContainer.chomp, loosen]
      · have hother (o : Outline) (spine : List OpenContainer) (held : List Block)
            (items : List (List Block))
            (h : o.spine = ⟨.list mark start tight, held, items⟩ :: spine) :
            o.goOnWithList m = o.finishList.beginList m := by
          simp only [goOnWithList, h, if_neg hmark]
        rw [hother _ _ _ _ rfl, hbegin]
        exact (hother _ _ _ _ rfl).symm

theorem chomp_blankLine : o.blankLine.chomp = o.chomp.blankLine := by
  obtain ⟨blocks, spine, afterBlank, freshItem, definitions⟩ := o
  cases spine with
  | nil => rfl
  | cons top spine =>
    obtain ⟨k, held, items⟩ := top
    cases k with
    | quote => rfl
    | list mark start tight => rfl
    | item n => cases freshItem <;> rfl

end Outline

end Treatise.Markdown
