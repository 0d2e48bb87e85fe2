import Mathlib.Data.List.TakeDrop
import Treatise.Document
import Treatise.Proofs.Nesting
import Treatise.Proofs.SectionParts

/-!
# What reading builds

The tree of every document is fresh: nothing in it is numbered.

* **`Growth.NestingLaw`**, **`PartLaw`** — what holds between the innermost node of a growing tree
  before and behind nested events, and between a container before and behind the parts put into it,
  if it holds for single events and for complete elements and statements.
* **`grows_readInto`** — a Markdown text puts fresh nodes at the end of a tree.
* **`fresh_parse`** — the tree of a source is fresh.
* **`fresh_buildSections`** — and so it is with its sections.
-/

namespace Treatise

open Markdown (Element Ending Event WellNested)
open Node (AllOf Fresh Grows)

/-! ## Events -/

namespace Node

theorem tag_withTitle (n : Node) (title : List Char) :
    (ofElement.withTitle n title).tag = n.tag := by
  unfold ofElement.withTitle
  split <;> rfl

theorem children_withTitle (n : Node) (title : List Char) :
    (ofElement.withTitle n title).children = n.children := by
  unfold ofElement.withTitle
  split <;> rfl

theorem id_withTitle (n : Node) (title : List Char) :
    (ofElement.withTitle n title).attr? "id" = n.attr? "id" := by
  unfold ofElement.withTitle
  split
  · rfl
  · simp [setAttr, attr?]

theorem isLeaf_ofElement (e : Element) : (ofElement e).tag.isLeaf = e.isVerbatim := by
  cases e <;> simp only [ofElement, tag_withTitle] <;> rfl

theorem holdsInline_ofElement (e : Element) :
    (ofElement e).tag.holdsInline = e.holdsInline := by
  cases e <;> simp only [ofElement, tag_withTitle] <;> rfl

theorem isInline_ofElement {e : Element} (h : e.isInline = true) :
    (ofElement e).tag.isInline = true := by
  cases e <;> simp only [ofElement, tag_withTitle] <;> first | rfl | cases h

theorem isVerbatim_eq_of_tag {n m : Node} (h : n.tag = m.tag) : isVerbatim n = isVerbatim m := by
  unfold isVerbatim
  rw [h]

theorem isVerbatim_ofElement (e : Element) : isVerbatim (ofElement e) = e.isVerbatim := by
  unfold isVerbatim
  cases e <;> simp only [ofElement, tag_withTitle] <;> rfl

/-- The end of an element is one of its kind. -/
theorem closes_ofElement (e : Element) : e.ending.closes (ofElement e).tag = true := by
  cases e <;> simp only [ofElement, tag_withTitle] <;> rfl

/-- Only ends of its own kind end a verbatim element. -/
theorem closes_ofElement_eq_false {e : Element} (hverbatim : e.isVerbatim = true) {k : Ending}
    (h : k ≠ e.ending) : k.closes (ofElement e).tag = false := by
  cases e with
  | codeBlock language => cases k <;> first | rfl | exact absurd rfl h
  | htmlBlock => cases k <;> first | rfl | exact absurd rfl h
  | _ => cases hverbatim

theorem text_ofElement (e : Element) : (ofElement e).text = "" := by
  have htitle (n : Node) (title : List Char) : (ofElement.withTitle n title).text = n.text := by
    unfold ofElement.withTitle
    split <;> rfl
  cases e <;> simp only [ofElement, htitle] <;> rfl

theorem tag_addText (n : Node) (s : List Char) : (n.addText s).tag = n.tag := by
  unfold addText
  generalize Segment.scan s = segments
  induction segments generalizing n with
  | nil => rfl
  | cons segment segments ih =>
    rw [List.foldl_cons, ih]
    cases segment with
    | text s =>
      rw [addSegment, appendText]
      split <;> rfl
    | mark m inner => rfl

theorem addText_nil (n : Node) : n.addText [] = n := by
  rw [addText, Segment.scan]
  rfl

theorem fresh_ofElement (e : Element) : AllOf Fresh [ofElement e] := by
  have hchildren : (ofElement e).children = [] := by
    cases e <;> simp only [ofElement, children_withTitle] <;> rfl
  have hid : (ofElement e).attr? "id" = none := by
    cases e <;> simp only [ofElement, id_withTitle] <;> rfl
  have hrole : ∀ role, (ofElement e).hasRole role = false := by
    intro role
    unfold hasRole
    cases e <;> simp only [ofElement, tag_withTitle] <;> rfl
  rw [allOf_cons, hchildren]
  exact ⟨.of_children_nil hid (hrole _) (hrole _) hchildren, allOf_nil, allOf_nil⟩

end Node

/-- The text that an event adds to a verbatim element. -/
def Markdown.Event.verbatimText : Event → List Char
  | text s => s
  | html s => s
  | _ => []

/-- The nodes that a single event makes. -/
def Tag.isSingle : Tag → Bool
  | hardBreak | code | math _ | html | rule => true
  | _ => false

/-! ## The growing tree -/

namespace Growth

/-- The innermost node. -/
def top (g : Growth) : Node := g.nodes.headD g.base

/-- The tree with another innermost node and other text that waits. -/
def setTop (g : Growth) (n : Node) (waiting : String) : Growth :=
  { g.mapTop (fun _ => n) with waiting := waiting }

@[simp] theorem top_setTop (g : Growth) (n : Node) (w : String) : (g.setTop n w).top = n := by
  obtain ⟨base, nodes, waiting⟩ := g
  cases nodes <;> rfl

@[simp] theorem setTop_setTop (g : Growth) (n m : Node) (w w' : String) :
    (g.setTop n w).setTop m w' = g.setTop m w' := by
  obtain ⟨base, nodes, waiting⟩ := g
  cases nodes <;> rfl

theorem setTop_top (g : Growth) : g.setTop g.top g.waiting = g := by
  obtain ⟨base, nodes, waiting⟩ := g
  cases nodes <;> rfl

theorem mapTop_eq (g : Growth) (f : Node → Node) : g.mapTop f = g.setTop (f g.top) g.waiting := by
  obtain ⟨base, nodes, waiting⟩ := g
  cases nodes <;> rfl

theorem flush_eq (g : Growth) : g.flush = g.setTop (g.top.addText g.waiting.toList) "" := by
  obtain ⟨base, nodes, waiting⟩ := g
  cases nodes <;> rfl

theorem add_eq (g : Growth) (n : Node) :
    g.add n = g.setTop ((g.top.addText g.waiting.toList).push n) "" := by
  rw [add, flush_eq, mapTop_eq, setTop_setTop, top_setTop]
  obtain ⟨base, nodes, waiting⟩ := g
  cases nodes <;> rfl

theorem wait_eq (g : Growth) (s : List Char) :
    g.wait s = g.setTop g.top (g.waiting ++ String.ofList s) := by
  obtain ⟨base, nodes, waiting⟩ := g
  cases nodes <;> rfl

theorem addVerbatim_eq (g : Growth) (s : List Char) :
    g.addVerbatim s = g.setTop (g.top.setText (g.top.text ++ String.ofList s)) g.waiting :=
  mapTop_eq g _

theorem inVerbatim_setTop {g : Growth} {n : Node} (hn : n.tag = g.top.tag) (w : String) :
    (g.setTop n w).inVerbatim = g.inVerbatim := by
  obtain ⟨base, nodes, waiting⟩ := g
  cases nodes with
  | nil => rfl
  | cons m nodes => exact Node.isVerbatim_eq_of_tag hn

theorem step_of_content {g : Growth} (h : g.inVerbatim = false) (e : Event) :
    g.step e = g.stepContent e := by
  rw [step, h, if_neg Bool.false_ne_true]

theorem step_of_verbatim {g : Growth} (h : g.inVerbatim = true) (e : Event) :
    g.step e = g.stepVerbatim e := by
  rw [step, h, if_pos rfl]

/-- What a single event does outside verbatim elements: text waits, and a node without children is
put behind the text that waits. -/
theorem step_single {g : Growth} (hout : g.inVerbatim = false) {e : Event}
    (h : e.isSingle = true) :
    (∃ w, g.step e = g.setTop g.top w) ∨
      ∃ c : Node, c.tag.isSingle = true ∧ c.children = [] ∧
        g.step e = g.setTop ((g.top.addText g.waiting.toList).push c) "" := by
  have hadd (n : Node) (hn : n.tag.isSingle = true) (hnil : n.children = []) :
      ∃ c : Node, c.tag.isSingle = true ∧ c.children = [] ∧
        g.add n = g.setTop ((g.top.addText g.waiting.toList).push c) "" :=
    ⟨n, hn, hnil, add_eq g n⟩
  rw [step_of_content hout]
  cases e with
  | enter e => cases h
  | leave e => cases h
  | text s => exact .inl ⟨_, wait_eq g s⟩
  | softBreak => exact .inl ⟨_, wait_eq g ['\n']⟩
  | hardBreak => exact .inr (hadd (Node.ofTag .hardBreak) rfl rfl)
  | code s => exact .inr (hadd ((Node.ofTag .code).setText _) rfl rfl)
  | math display s => exact .inr (hadd ((Node.ofTag (.math display)).setText _) rfl rfl)
  | html s => exact .inr (hadd ((Node.ofTag .html).setText _) rfl rfl)
  | inlineHtml s => exact .inr (hadd ((Node.ofTag .html).setText _) rfl rfl)
  | rule => exact .inr (hadd (Node.ofTag .rule) rfl rfl)

theorem tag_top_step {g : Growth} (hout : g.inVerbatim = false) {e : Event}
    (h : e.isSingle = true) : (g.step e).top.tag = g.top.tag := by
  rcases step_single hout h with ⟨w, hstep⟩ | ⟨c, -, -, hstep⟩
  · rw [hstep, top_setTop]
  · rw [hstep, top_setTop]
    exact Node.tag_addText g.top _

/-- What is put behind the text that waits leaves the innermost node the element that it is. -/
theorem outside_push {g : Growth} (hout : g.inVerbatim = false) (c : Node) :
    ((g.top.addText g.waiting.toList).push c).tag = g.top.tag ∧
      (g.setTop ((g.top.addText g.waiting.toList).push c) "").inVerbatim = false := by
  have htag : ((g.top.addText g.waiting.toList).push c).tag = g.top.tag :=
    Node.tag_addText g.top _
  exact ⟨htag, (inVerbatim_setTop htag "").trans hout⟩

/-! ### Elements -/

/-- Inside the element, its own end is the one that ends it. -/
theorem step_leave {g : Growth} {e : Element} {c : Node} (hc : c.tag = (Node.ofElement e).tag)
    (w : String) :
    ((g.enter e).setTop c w).step (.leave e.ending) =
      g.setTop ((g.top.addText g.waiting.toList).push (c.addText w.toList)) "" := by
  have hcloses : e.ending.closes c.tag = true := by
    rw [hc]
    exact Node.closes_ofElement e
  have hleave : ((g.enter e).setTop c w).leave e.ending = ((g.enter e).setTop c w).close :=
    if_pos hcloses
  have hclose : ((g.enter e).setTop c w).close =
      g.setTop ((g.top.addText g.waiting.toList).push (c.addText w.toList)) "" := by
    obtain ⟨base, nodes, waiting⟩ := g
    cases nodes <;> rfl
  rw [step]
  split
  · exact hleave.trans hclose
  · exact hleave.trans hclose

/-- The events of an element change the innermost node by that of the element, which the events inside
made on its own above the text that waited. -/
theorem foldl_around {g : Growth} (hout : g.inVerbatim = false) {e : Element} {inside : List Event}
    {c : Node} {w : String} (h : inside.foldl step (g.enter e) = (g.enter e).setTop c w)
    (hc : c.tag = (Node.ofElement e).tag) :
    (e.around inside).foldl step g =
      g.setTop ((g.top.addText g.waiting.toList).push (c.addText w.toList)) "" := by
  have henter : g.step (.enter e) = g.enter e := step_of_content hout _
  simp only [Element.around, List.foldl_append, List.foldl_cons, List.foldl_nil]
  rw [henter, h, step_leave hc]

/-- At first there is no text in an element. -/
theorem enter_eq_setTop (g : Growth) (e : Element) :
    g.enter e = (g.enter e).setTop ((Node.ofElement e).setText "") "" := by
  have hempty : (Node.ofElement e).setText "" = Node.ofElement e := by
    rw [← Node.text_ofElement e]
    cases Node.ofElement e
    rfl
  rw [hempty]
  exact (setTop_top (g.enter e)).symm

/-- The node of a verbatim element, with the events inside. -/
def verbatimNode (e : Element) (inside : List Event) : Node :=
  (Node.ofElement e).setText (String.ofList (inside.flatMap Event.verbatimText))

/-- A verbatim element takes the text of an event, if it has one, as long as it does not end. -/
theorem step_inside_verbatim {g : Growth} {e : Element} (hverbatim : e.isVerbatim = true) {x : Event}
    (hx : x ≠ .leave e.ending) (s : String) :
    ((g.enter e).setTop ((Node.ofElement e).setText s) "").step x =
      (g.enter e).setTop ((Node.ofElement e).setText (s ++ String.ofList x.verbatimText)) "" := by
  have hin : ((g.enter e).setTop ((Node.ofElement e).setText s) "").inVerbatim = true :=
    (Node.isVerbatim_ofElement e).trans hverbatim
  have htext (t : List Char) : ((g.enter e).setTop ((Node.ofElement e).setText s) "").addVerbatim t =
      (g.enter e).setTop ((Node.ofElement e).setText (s ++ String.ofList t)) "" := by
    rw [addVerbatim_eq, top_setTop, setTop_setTop]
    rfl
  have hnone : ((g.enter e).setTop ((Node.ofElement e).setText s) "") =
      (g.enter e).setTop ((Node.ofElement e).setText (s ++ String.ofList [])) "" := by
    rw [String.ofList_nil, String.append_empty]
  rw [step_of_verbatim hin]
  cases x with
  | text t => exact htext t
  | html t => exact htext t
  | leave k =>
    have hcloses : ¬k.closes ((Node.ofElement e).setText s).tag = true := by
      rw [Bool.not_eq_true]
      exact Node.closes_ofElement_eq_false hverbatim fun h => hx (congrArg Event.leave h)
    exact (if_neg hcloses).trans hnone
  | _ => exact hnone

/-- Up to the end of a verbatim element, its node takes the text as it stands, and nothing else. -/
theorem foldl_inside_verbatim {g : Growth} {e : Element} (hverbatim : e.isVerbatim = true)
    {inside : List Event} (hend : .leave e.ending ∉ inside) (s : String) :
    inside.foldl step ((g.enter e).setTop ((Node.ofElement e).setText s) "") =
      (g.enter e).setTop ((Node.ofElement e).setText
        (s ++ String.ofList (inside.flatMap Event.verbatimText))) "" := by
  induction inside generalizing s with
  | nil => simp
  | cons x inside ih =>
    obtain ⟨hx, hinside⟩ := not_or.1 (mt List.mem_cons.2 hend)
    rw [List.foldl_cons, step_inside_verbatim hverbatim (Ne.symm hx), ih hinside, List.flatMap_cons,
      String.ofList_append, String.append_assoc]

/-- A verbatim element is put behind the text that waits. -/
theorem foldl_around_verbatim {g : Growth} (hout : g.inVerbatim = false) {e : Element}
    (hverbatim : e.isVerbatim = true) {inside : List Event} (hend : .leave e.ending ∉ inside) :
    (e.around inside).foldl step g =
      g.setTop ((g.top.addText g.waiting.toList).push (verbatimNode e inside)) "" := by
  have hinside := foldl_inside_verbatim (g := g) hverbatim hend ""
  rw [← enter_eq_setTop, String.empty_append] at hinside
  have haround := foldl_around hout hinside rfl
  rwa [String.toList_empty, Node.addText_nil] at haround

/-! ### Nested events -/

/-- A relation between the innermost node before and behind events, which holds wherever the events
are nested and keep to a content model. `ready` says what the events inside an element find. -/
structure NestingLaw (fits : Option Element → Event → Prop)
    (ready : Option Element → Growth → Prop) (r : Node → Node → Prop) : Prop where
  refl : ∀ n, r n n
  trans : ∀ {n m k}, r n m → r m k → r n k
  text : ∀ n s, r n (n.setText s)
  single : ∀ {holder g e}, ready holder g → g.inVerbatim = false → e.isSingle = true →
    fits holder e → ∃ n w, g.step e = g.setTop n w ∧ r g.top n ∧ ready holder (g.setTop n w)
  enter : ∀ {holder g e}, ready holder g → fits holder (.enter e) → ready (some e) (g.enter e)
  flush : ∀ {e g}, ready (some e) g → e.isVerbatim = false →
    r g.top (g.top.addText g.waiting.toList)
  push : ∀ {holder g e c}, ready holder g → g.inVerbatim = false → fits holder (.enter e) →
    r (Node.ofElement e) c →
      r g.top ((g.top.addText g.waiting.toList).push c) ∧
        ready holder (g.setTop ((g.top.addText g.waiting.toList).push c) "")

/-- Nested events change the innermost node as the law says, and leave the nodes around it alone.
Induction on the nesting: the events inside an element act on the node of that element, which is
then put into the node around it. -/
theorem NestingLaw.foldl_step {fits : Option Element → Event → Prop}
    {ready : Option Element → Growth → Prop} {r : Node → Node → Prop}
    (law : NestingLaw fits ready r) {holder : Option Element} {es : List Event}
    (h : WellNested fits holder es) :
    ∀ g : Growth, g.inVerbatim = false → ready holder g →
      ∃ n w, es.foldl step g = g.setTop n w ∧ n.tag = g.top.tag ∧ r g.top n ∧
        ready holder (g.setTop n w) := by
  -- what is put in front of events that the law holds for
  have hcons {front es : List Event} {holder : Option Element} {g : Growth} {n : Node} {w : String}
      (hfront : front.foldl step g = g.setTop n w) (htag : n.tag = g.top.tag) (hr : r g.top n)
      (hrest : ∃ m w', es.foldl step (g.setTop n w) = (g.setTop n w).setTop m w' ∧
        m.tag = (g.setTop n w).top.tag ∧ r (g.setTop n w).top m ∧
          ready holder ((g.setTop n w).setTop m w')) :
      ∃ m w', (front ++ es).foldl step g = g.setTop m w' ∧ m.tag = g.top.tag ∧ r g.top m ∧
        ready holder (g.setTop m w') := by
    obtain ⟨m, w', hsteps, htag', hr', hlast⟩ := hrest
    rw [top_setTop] at htag' hr'
    rw [setTop_setTop] at hsteps hlast
    exact ⟨m, w', by rw [List.foldl_append, hfront, hsteps], htag'.trans htag, law.trans hr hr',
      hlast⟩
  induction h with
  | nil =>
    intro g _ hready
    exact ⟨g.top, g.waiting, (setTop_top g).symm, rfl, law.refl _, by rwa [setTop_top]⟩
  | @single holder e es hsingle hfits _ ih =>
    intro g hout hready
    obtain ⟨n, w, hstep, hr, hnext⟩ := law.single hready hout hsingle hfits
    have htag : n.tag = g.top.tag := by
      have htop := tag_top_step hout hsingle
      rwa [hstep, top_setTop] at htop
    have hout' := (inVerbatim_setTop htag w).trans hout
    have hone : [e].foldl step g = g.setTop n w := hstep
    exact hcons hone htag hr (ih _ hout' hnext)
  | @verbatim holder e inside es hverbatim hfits _ hend _ ih =>
    intro g hout hready
    obtain ⟨hr, hnext⟩ := law.push hready hout hfits (c := verbatimNode e inside) (law.text _ _)
    obtain ⟨htag, hout'⟩ := outside_push hout (verbatimNode e inside)
    exact hcons (foldl_around_verbatim hout hverbatim hend) htag hr (ih _ hout' hnext)
  | @around holder e inside es hverbatim hfits _ _ ihInside ih =>
    intro g hout hready
    -- the element's node changes on its own, above the text that waited
    have hin : (g.enter e).inVerbatim = false := (Node.isVerbatim_ofElement e).trans hverbatim
    obtain ⟨c, w, hinner, hc, hrc, hinside⟩ := ihInside _ hin (law.enter hready hfits)
    have hwait := law.flush hinside hverbatim
    rw [top_setTop] at hwait
    obtain ⟨hr, hnext⟩ := law.push hready hout hfits (law.trans hrc hwait)
    obtain ⟨htag, hout'⟩ := outside_push hout (c.addText w.toList)
    exact hcons (foldl_around hout hinner hc) htag hr (ih _ hout' hnext)

/-! ### Fresh nodes -/

/-- The innermost node is one that the events inside `holder` are meant for. -/
def Carries (holder : Option Element) (g : Growth) : Prop :=
  match holder with
  | some e => ∃ n nodes, g.nodes = n :: nodes ∧ n.tag = (Node.ofElement e).tag
  | none => g.top.tag.isLeaf = false ∧ g.top.tag.holdsInline = false

theorem Carries.setTop {holder : Option Element} {g : Growth} (h : Carries holder g) {n : Node}
    (hn : n.tag = g.top.tag) (w : String) : Carries holder (g.setTop n w) := by
  cases holder with
  | none =>
    show (g.setTop n w).top.tag.isLeaf = false ∧ (g.setTop n w).top.tag.holdsInline = false
    rw [top_setTop, hn]
    exact h
  | some e =>
    obtain ⟨m, nodes, hnodes, hm⟩ := h
    have htop : g.top = m := by simp [top, hnodes]
    exact ⟨n, nodes, by simp [Growth.setTop, mapTop, hnodes], by rw [hn, htop, hm]⟩

/-- Outside verbatim elements the innermost node is no leaf, and what fits into the holder may be put
into it. -/
theorem Carries.of_fits {holder : Option Element} {g : Growth} (h : Carries holder g)
    (hout : g.inVerbatim = false) {e : Event} (hfits : e.fits holder) :
    g.top.tag.isLeaf = false ∧ (g.top.tag.holdsInline = true → e.isInline = true) := by
  cases holder with
  | none => simp [h.1, h.2]
  | some x =>
    obtain ⟨n, nodes, hnodes, hn⟩ := h
    have htop : g.top = n := by simp [top, hnodes]
    have hverbatim : x.isVerbatim = false := by
      rw [← Node.isVerbatim_ofElement, ← Node.isVerbatim_eq_of_tag hn, ← hout]
      simp [inVerbatim, hnodes]
    rw [htop, hn, Node.holdsInline_ofElement, Node.isLeaf_ofElement]
    exact ⟨hverbatim, (hfits x rfl).1⟩

/-- A complete node is put behind the text that waits. -/
theorem grows_push_addText {g : Growth} {c : Node} (hc : AllOf Fresh [c])
    (hleaf : g.top.tag.isLeaf = false)
    (hinline : g.top.tag.holdsInline = true → c.tag.isInline = true) :
    Grows g.top ((g.top.addText g.waiting.toList).push c) := by
  have htext := Node.grows_addText hleaf g.waiting.toList
  refine htext.trans (Node.grows_push hc ?_ ?_)
  · rw [htext.tag_eq, hleaf]
  · rw [htext.tag_eq]
    exact hinline

/-- A single event that fits lets the innermost node grow. -/
theorem step_grows {holder : Option Element} {g : Growth} (hcarries : Carries holder g)
    (hout : g.inVerbatim = false) {e : Event} (hsingle : e.isSingle = true)
    (hfits : e.fits holder) : ∃ n w, g.step e = g.setTop n w ∧ Grows g.top n := by
  obtain ⟨hleaf, hinline⟩ := hcarries.of_fits hout hfits
  have hadd {n : Node} (hn : AllOf Fresh [n])
      (htag : g.top.tag.holdsInline = true → n.tag.isInline = true) :
      ∃ m w, g.add n = g.setTop m w ∧ Grows g.top m :=
    ⟨_, "", add_eq g n, grows_push_addText hn hleaf htag⟩
  rw [step_of_content hout]
  cases e with
  | enter e => cases hsingle
  | leave e => cases hsingle
  | text s => exact ⟨g.top, _, wait_eq g s, .refl _⟩
  | softBreak => exact ⟨g.top, _, wait_eq g ['\n'], .refl _⟩
  | hardBreak => exact hadd (Node.fresh_ofTag nofun nofun) fun _ => rfl
  | code s => exact hadd ((Node.grows_setText _ _).fresh (Node.fresh_ofTag nofun nofun)) fun _ => rfl
  | math display s =>
    exact hadd ((Node.grows_setText _ _).fresh (Node.fresh_ofTag nofun nofun)) fun _ => rfl
  | html s => exact hadd ((Node.grows_setText _ _).fresh (Node.fresh_ofTag nofun nofun)) fun _ => rfl
  | inlineHtml s =>
    exact hadd ((Node.grows_setText _ _).fresh (Node.fresh_ofTag nofun nofun)) fun _ => rfl
  | rule =>
    refine hadd (Node.fresh_ofTag nofun nofun) fun h => ?_
    exact absurd (hinline h) Bool.false_ne_true

/-- Nested events let the innermost node grow. -/
theorem nestingLaw_grows : NestingLaw Event.fits Carries Grows where
  refl := .refl
  trans := .trans
  text := Node.grows_setText
  single h hout hsingle hfits := by
    obtain ⟨n, w, hstep, hgrows⟩ := step_grows h hout hsingle hfits
    exact ⟨n, w, hstep, hgrows, h.setTop hgrows.tag_eq w⟩
  enter _ _ := ⟨_, _, rfl, rfl⟩
  flush {e g} h hverbatim := by
    obtain ⟨n, nodes, hnodes, hn⟩ := h
    have htop : g.top = n := by simp [top, hnodes]
    refine Node.grows_addText ?_ _
    rw [htop, hn, Node.isLeaf_ofElement, hverbatim]
  push {holder g e c} h hout hfits hc := by
    obtain ⟨hleaf, hinline⟩ := h.of_fits hout hfits
    have hpush := grows_push_addText (g := g) (hc.fresh (Node.fresh_ofElement e)) hleaf fun h => by
      rw [hc.tag_eq]
      exact Node.isInline_ofElement (hinline h)
    exact ⟨hpush, h.setTop hpush.tag_eq ""⟩

end Growth

/-- Reading a text is what its events do to the innermost node, and then the text that still
waits. -/
theorem readInto_eq_of_foldl {s : List Char} {n m : Node} {w : String}
    (h : (Markdown.readEvents s).foldl Growth.step (Growth.start n) =
      (Growth.start n).setTop m w) : readInto s n = m.addText w.toList := by
  rw [readInto, Node.grow, h, Growth.finish, Growth.flush_eq, Growth.top_setTop,
    Growth.setTop_setTop]
  simp [Growth.setTop, Growth.mapTop, Growth.start, Growth.closeAll]

/-- A node whose content is neither running text nor nothing but text. -/
def Node.HoldsFlow (n : Node) : Prop := n.tag.isLeaf = false ∧ n.tag.holdsInline = false

/-- A Markdown text puts fresh nodes at the end of a tree. -/
theorem grows_readInto (s : List Char) {n : Node} (hn : n.HoldsFlow) : Grows n (readInto s n) := by
  obtain ⟨m, w, hfold, -, hgrows, -⟩ := Growth.nestingLaw_grows.foldl_step
    (Markdown.wellNested_readEvents s) (Growth.start n) rfl hn
  rw [readInto_eq_of_foldl hfold]
  replace hgrows : Grows n m := hgrows
  exact hgrows.trans (Node.grows_addText (by rw [hgrows.tag_eq]; exact hn.1) _)

/-! ## Statements -/

/-- A part of the heading of a statement, or a reference in one. -/
def Tag.isHeadingPart : Tag → Bool
  | label => true
  | reference => true
  | span _ => true
  | _ => false

namespace Statement

theorem allOf_toList_map {p : Node → Prop} {α : Type} {o : Option α} {f : α → Node}
    (h : ∀ a, AllOf p [f a]) : AllOf p (o.map f).toList := by
  cases o with
  | none => exact Node.allOf_nil
  | some a => exact h a

/-- What holds for the parts of headings, in which there are only references. -/
theorem allOf_headingParts {p : Node → Prop} (hp : ∀ n : Node, n.tag.isHeadingPart = true →
      (∀ c ∈ n.children, c.tag = .reference) → p n) (s : Statement) :
    AllOf p s.headingParts := by
  have hsingle {n : Node} (htag : n.tag.isHeadingPart = true) (hnil : n.children = []) :
      AllOf p [n] := by
    rw [Node.allOf_cons, hnil]
    exact ⟨hp n htag (by simp [hnil]), Node.allOf_nil, Node.allOf_nil⟩
  have hsubject (subject : Subject) : AllOf p [subject.node] := by
    cases subject with
    | text words => exact hsingle rfl rfl
    | reference key =>
      have hreference : AllOf p [(Node.ofTag .reference).setAttr "key" key] := hsingle rfl rfl
      refine (Node.allOf_cons _ _).2 ⟨hp _ rfl fun c hc => ?_, hreference, Node.allOf_nil⟩
      rw [List.mem_singleton.1 hc]
      rfl
  have hnumber : AllOf p (if s.kind.isProof then [] else [Node.span .blockNumber]) := by
    split
    · exact Node.allOf_nil
    · exact hsingle rfl rfl
  unfold headingParts
  simp only [Node.allOf_append]
  exact ⟨⟨⟨⟨⟨allOf_toList_map fun _ => hsingle rfl rfl, hsingle rfl rfl⟩, hnumber⟩,
    allOf_toList_map hsubject⟩, allOf_toList_map fun _ => hsingle rfl rfl⟩,
    allOf_toList_map fun _ => hsingle rfl rfl⟩

theorem fresh_subject (s : Subject) : AllOf Fresh [s.node] := by
  cases s with
  | reference key =>
    have hreference : AllOf Fresh [(Node.ofTag .reference).setAttr "key" key] :=
      Node.fresh_setAttr (by decide) key (Node.fresh_ofTag (by decide) (by decide))
    have hspan : AllOf Fresh [(Node.span .proofSubject).setText "of "] :=
      (Node.grows_setText _ _).fresh (Node.fresh_ofTag (by decide) (by decide))
    exact (Node.grows_push hreference rfl (by nofun)).fresh hspan
  | text words => exact (Node.grows_setText _ _).fresh (Node.fresh_ofTag (by decide) (by decide))

theorem fresh_headingParts (s : Statement) : AllOf Fresh s.headingParts := by
  unfold headingParts
  simp only [Node.allOf_append]
  refine ⟨⟨⟨⟨⟨?label, ?kind⟩, ?number⟩, ?subject⟩, ?name⟩, ?references⟩
  case label =>
    exact allOf_toList_map fun key =>
      Node.fresh_setAttr (by decide) key (Node.fresh_ofTag (by decide) (by decide))
  case kind => exact Node.fresh_setAttr (by decide) _ (Node.fresh_ofTag (by decide) (by decide))
  case number =>
    split
    · exact Node.allOf_nil
    · exact Node.fresh_ofTag (by decide) (by decide)
  case subject => exact allOf_toList_map fresh_subject
  case name =>
    exact allOf_toList_map fun name =>
      (Node.grows_setText _ name).fresh (Node.fresh_ofTag (by decide) (by decide))
  case references =>
    exact allOf_toList_map fun refs =>
      (Node.grows_setText _ refs).fresh (Node.fresh_ofTag (by decide) (by decide))

theorem fresh_heading (s : Statement) : AllOf Fresh [s.heading] := by
  have hspan : AllOf Fresh [(Node.span .blockHeading).setAttr "type" s.kind.name] :=
    Node.fresh_setAttr (by decide) _ (Node.fresh_ofTag (by decide) (by decide))
  obtain ⟨hn, -⟩ := (Node.allOf_cons _ _).1 hspan
  exact (Node.allOf_cons _ _).2
    ⟨⟨hn.no_id, rfl, rfl, nofun, nofun⟩, s.fresh_headingParts, Node.allOf_nil⟩

theorem holdsFlow_opened (s : Statement) : s.opened.HoldsFlow := ⟨rfl, rfl⟩

theorem fresh_opened (s : Statement) : AllOf Fresh [s.opened] :=
  (Node.grows_push s.fresh_heading rfl (by nofun)).fresh (Node.fresh_ofTag nofun nofun)

theorem fresh_qedMark (proofDepth : Nat) : AllOf Fresh [qedMark proofDepth] :=
  (Node.allOf_cons _ _).2 ⟨.of_children_nil rfl rfl rfl rfl, Node.allOf_nil, Node.allOf_nil⟩

theorem grows_closed (s : Statement) {n : Node} (hn : n.HoldsFlow) : Grows n (s.closed n) := by
  unfold closed
  split
  · exact Node.grows_push (fresh_qedMark _) hn.1 (by simp [hn.2])
  · exact .refl n

end Statement

/-! ## Documents -/

theorem Node.HoldsFlow.of_grows {n m : Node} (h : n.HoldsFlow) (hg : Grows n m) :
    m.HoldsFlow := by
  unfold Node.HoldsFlow
  rw [hg.tag_eq]
  exact h

/-- A relation between a container before and behind parts that are put into it. `holder` says which
nodes may be such containers. -/
structure PartLaw (holder : Node → Prop) (r : Node → Node → Prop) : Prop where
  refl : ∀ n, r n n
  trans : ∀ {n m k}, r n m → r m k → r n k
  stays : ∀ {n m}, holder n → r n m → holder m
  read : ∀ {n} (s), holder n → r n (readInto s n)
  opened : ∀ s : Statement, holder s.opened
  put : ∀ {n m o proofs}, holder n → r (Statement.ofOpening o proofs).opened m →
    r n (n.push ((Statement.ofOpening o proofs).closed m))

section PartLaw

variable {holder : Node → Prop} {r : Node → Node → Prop} (law : PartLaw holder r)

include law

mutual

theorem PartLaw.into (proofs : Nat) :
    ∀ (p : Part) (n : Node), holder n → r n (Part.into readInto proofs p n)
  | .run _, _, hn => law.read _ hn
  | .statement o content, _, hn =>
    law.put hn (PartLaw.allInto _ content _ (law.opened (Statement.ofOpening o proofs)))

/-- Parts that are put into a container change it as the law says. -/
theorem PartLaw.allInto (proofs : Nat) :
    ∀ (parts : List Part) (n : Node), holder n → r n (Part.allInto readInto proofs parts n)
  | [], n, _ => law.refl n
  | p :: parts, n, hn =>
    have hstep := PartLaw.into proofs p n hn
    law.trans hstep (PartLaw.allInto proofs parts _ (law.stays hn hstep))

end

/-- What the law says about the tree of a source. -/
theorem PartLaw.parse (hroot : holder (Node.ofTag .root)) (source : List Char) (fileId : Nat) :
    r (Node.ofTag .root) (Document.parse source fileId).root := by
  show r _ (assemble readInto _ fileId).1
  rw [fst_assemble]
  exact law.allInto 0 _ _ hroot

end PartLaw

theorem partLaw_grows : PartLaw Node.HoldsFlow Grows where
  refl := .refl
  trans := .trans
  stays := .of_grows
  read s hn := grows_readInto s hn
  opened s := s.holdsFlow_opened
  put {n m o proofs} hn hm := by
    generalize Statement.ofOpening o proofs = s at hm ⊢
    have hclosed := hm.trans (s.grows_closed (s.holdsFlow_opened.of_grows hm))
    exact Node.grows_push (hclosed.fresh s.fresh_opened) hn.1 (by simp [hn.2])

theorem grows_parse (source : List Char) (fileId : Nat) :
    Grows (Node.ofTag .root) (Document.parse source fileId).root :=
  partLaw_grows.parse ⟨rfl, rfl⟩ source fileId

/-- The tree of a source is fresh. -/
theorem fresh_parse (source : List Char) (fileId : Nat) :
    AllOf Fresh [(Document.parse source fileId).root] :=
  (grows_parse source fileId).fresh (Node.fresh_ofTag (by decide) (by decide))

/-! ## Sections -/

theorem SectionPart.fresh_ofHeading {level : Nat} {heading : Node} {content : List SectionPart}
    (hheading : AllOf Fresh [heading]) (hcontent : AllOf Fresh (content.map (·.node))) :
    AllOf Fresh [(ofHeading level heading content).node] := by
  have htag : (ofHeading level heading content).node.tag = .section :=
    Node.tag_describeSection _ heading
  refine (Node.allOf_cons _ _).2 ⟨⟨?_, ?_, ?_, ?_, ?_⟩, ?_, Node.allOf_nil⟩
  · exact Node.id_describeSection (Node.ofTag .section) heading
  · simp [Node.hasRole, htag]
  · simp [Node.hasRole, htag]
  · simp [htag, Tag.isLeaf]
  · simp [htag, Tag.holdsInline]
  · exact (Node.allOf_append [heading] _).2 ⟨hheading, hcontent⟩

theorem SectionPart.fresh_cons {n : Node} {parts : List SectionPart} (hn : AllOf Fresh [n])
    (hparts : AllOf Fresh (parts.map (·.node))) :
    AllOf Fresh ((SectionPart.cons n parts).map (·.node)) := by
  unfold SectionPart.cons
  split
  · exact (Node.allOf_append [n] _).2 ⟨hn, hparts⟩
  · next level _ =>
    rw [List.span_eq_takeWhile_dropWhile]
    rw [← List.takeWhile_append_dropWhile (p := fitsUnder level) (l := parts), List.map_append,
      Node.allOf_append] at hparts
    exact (Node.allOf_append [_] _).2 ⟨fresh_ofHeading hn hparts.1, hparts.2⟩

/-- Putting a tree into sections keeps it fresh. -/
theorem fresh_buildSections {root : Node} (hroot : root.HoldsFlow) (h : AllOf Fresh [root]) :
    AllOf Fresh [buildSections root] := by
  rw [buildSections_eq]
  obtain ⟨hn, hbelow, -⟩ := (Node.allOf_cons _ _).1 h
  refine (Node.allOf_cons _ _).2 ⟨⟨hn.no_id, hn.no_sectionNumber, hn.no_referenceNumber, ?_, ?_⟩,
    ?_, Node.allOf_nil⟩
  · intro hleaf
    exact absurd hleaf (by simp [hroot.1])
  · intro hinline
    exact absurd hinline (by simp [hroot.2])
  · show AllOf Fresh ((root.children.foldr SectionPart.cons []).map (·.node))
    revert hbelow
    induction root.children with
    | nil => exact fun _ => Node.allOf_nil
    | cons c children ih =>
      intro hbelow
      have hc := (Node.allOf_append [c] children).1 hbelow
      exact SectionPart.fresh_cons hc.1 (ih hc.2)

section Filter

variable {t : Tag} (ht : t ≠ .section)

include ht

theorem SectionPart.filter_cons (n : Node) (parts : List SectionPart) :
    (Node.descendantsOf ((SectionPart.cons n parts).map (·.node))).filter (·.tag == t) =
      (Node.descendantsOf (n :: parts.map (·.node))).filter (·.tag == t) := by
  unfold SectionPart.cons
  split
  · rw [List.map_cons]
  · next level _ =>
    rw [List.span_eq_takeWhile_dropWhile]
    have htag : (ofHeading level n (parts.takeWhile (fitsUnder level))).node.tag = .section :=
      Node.tag_describeSection _ n
    have hbelow : (ofHeading level n (parts.takeWhile (fitsUnder level))).node.children =
        n :: (parts.takeWhile (fitsUnder level)).map (·.node) := rfl
    conv_rhs => rw [← List.takeWhile_append_dropWhile (p := fitsUnder level) (l := parts)]
    rw [List.map_cons, Node.descendantsOf_cons,
      List.filter_cons_of_neg (by simp [htag, Ne.symm ht]), hbelow, ← Node.descendantsOf_append,
      List.cons_append, List.map_append]

/-- Putting a tree into sections leaves the nodes of any other kind as they are. -/
theorem filter_buildSections (root : Node) :
    (buildSections root).descendants.filter (·.tag == t) =
      root.descendants.filter (·.tag == t) := by
  rw [Node.descendants_eq, Node.descendants_eq, children_buildSections]
  induction root.children with
  | nil => rfl
  | cons n children ih =>
    rw [List.foldr_cons, SectionPart.filter_cons ht, Node.descendantsOf_cons,
      Node.descendantsOf_cons, ← List.cons_append, ← List.cons_append, List.filter_append, ih,
      List.filter_append]

end Filter

/-- A section is new, and the other nodes are the same inside sections as without them. -/
theorem mem_descendantsOf_of_mem_buildSections {root n : Node} (hn : n.tag ≠ .section)
    (h : n ∈ Node.descendantsOf (buildSections root).children) :
    n ∈ Node.descendantsOf root.children := by
  rw [← Node.descendants_eq] at h ⊢
  have hmem : n ∈ (buildSections root).descendants.filter (·.tag == n.tag) :=
    List.mem_filter.2 ⟨h, by simp⟩
  rw [filter_buildSections hn] at hmem
  exact (List.mem_filter.1 hmem).1

/-- The tree of a document as it is numbered: with sections or without. -/
def Document.tree (d : Document) (sections : Bool) : Node :=
  if sections then buildSections d.root else d.root

theorem tag_tree (source : List Char) (fileId : Nat) (sections : Bool) :
    ((Document.parse source fileId).tree sections).tag = .root := by
  have htag := (grows_parse source fileId).tag_eq
  cases sections with
  | false => exact htag
  | true => exact (tag_buildSections _).trans htag

/-- Nothing in the tree of a source is numbered. -/
theorem fresh_tree (source : List Char) (fileId : Nat) (sections : Bool) :
    AllOf Fresh [(Document.parse source fileId).tree sections] := by
  have hgrows := grows_parse source fileId
  unfold Document.tree
  split
  · have hflow := Node.HoldsFlow.of_grows ⟨rfl, rfl⟩ hgrows
    exact fresh_buildSections hflow (fresh_parse source fileId)
  · exact fresh_parse source fileId

end Treatise
