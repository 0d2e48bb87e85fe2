import Mathlib.Data.List.TakeDrop
import Mathlib.Data.List.TakeWhile
import Treatise.Proofs.Numbering.Flattening

/-!
# What a section takes

Putting a document into sections loses nothing and moves nothing: with its sections opened, the
document has the children that it had. Every heading among these has one section, which takes the
children up to the next heading that is not deeper.

A section is found by its place, which is the number of children in front of it when all sections
are open. A section starts where its heading is.

* **`Node.unwrapAll`** — nodes with their sections opened. Unlike `Node.flattenAll` it does not look
  into any other node.
* **`Node.sectionsAllFrom`** — the sections among nodes, and in these, with their places.
* **`SectionsOf`** — sections are those of the headings of a document, one each.
* **`sectionsOf_buildSections`** — what `buildSections` makes, and that it changes nothing if it is
  applied once more.
-/

namespace Treatise

/-! ## Opening sections -/

namespace Node

mutual

/-- What stands in place of a node when sections are opened. -/
def unwrapped : Node → List Node
  | ⟨.section, _, _, _, _, children⟩ => unwrapAll children
  | n => [n]

/-- The nodes with the sections among them opened. -/
def unwrapAll : List Node → List Node
  | [] => []
  | n :: ns => n.unwrapped ++ unwrapAll ns

end

mutual

/-- The sections that a node at a place is or, if it is a section, holds. -/
def sectionsFrom (start : Nat) : Node → List (Nat × Node)
  | ⟨.section, attrs, flags, text, tail, children⟩ =>
    (start, ⟨.section, attrs, flags, text, tail, children⟩) :: sectionsAllFrom start children
  | _ => []

/-- The sections among nodes that start at a place, each with its own place and before the sections
that it holds. -/
def sectionsAllFrom (start : Nat) : List Node → List (Nat × Node)
  | [] => []
  | n :: ns => sectionsFrom start n ++ sectionsAllFrom (start + n.unwrapped.length) ns

end

variable {n : Node}

theorem unwrapped_section (h : n.tag = .section) : n.unwrapped = unwrapAll n.children := by
  obtain ⟨tag, attrs, flags, text, tail, children⟩ := n
  subst h
  rfl

theorem unwrapped_of_ne (h : n.tag ≠ .section) : n.unwrapped = [n] := by
  obtain ⟨tag, attrs, flags, text, tail, children⟩ := n
  cases tag with
  | «section» => exact absurd rfl h
  | _ => rfl

theorem sectionsFrom_section (start : Nat) (h : n.tag = .section) :
    n.sectionsFrom start = (start, n) :: sectionsAllFrom start n.children := by
  obtain ⟨tag, attrs, flags, text, tail, children⟩ := n
  subst h
  rfl

theorem sectionsFrom_of_ne (start : Nat) (h : n.tag ≠ .section) : n.sectionsFrom start = [] := by
  obtain ⟨tag, attrs, flags, text, tail, children⟩ := n
  cases tag with
  | «section» => exact absurd rfl h
  | _ => rfl

theorem unwrapAll_append (ns ms : List Node) :
    unwrapAll (ns ++ ms) = unwrapAll ns ++ unwrapAll ms := by
  induction ns with
  | nil => rfl
  | cons n ns ih => simp only [List.cons_append, unwrapAll, ih, List.append_assoc]

theorem sectionsAllFrom_append (start : Nat) (ns ms : List Node) :
    sectionsAllFrom start (ns ++ ms) =
      sectionsAllFrom start ns ++ sectionsAllFrom (start + (unwrapAll ns).length) ms := by
  induction ns generalizing start with
  | nil => rfl
  | cons n ns ih =>
    simp only [List.cons_append, sectionsAllFrom, unwrapAll, ih, List.length_append,
      List.append_assoc, Nat.add_assoc]

/-- A section with its place, one place further on. -/
def later (p : Nat × Node) : Nat × Node := (p.1 + 1, p.2)

/-- Behind one more node all sections are one place further on. -/
theorem sectionsAllFrom_succ (start : Nat) (ns : List Node) :
    sectionsAllFrom (start + 1) ns = (sectionsAllFrom start ns).map later := by
  induction ns using forest_induction generalizing start with
  | nil => rfl
  | cons n ns below behind =>
    have hn : n.sectionsFrom (start + 1) = (n.sectionsFrom start).map later := by
      by_cases h : n.tag = .section
      · rw [sectionsFrom_section _ h, sectionsFrom_section _ h, below, List.map_cons, later]
      · rw [sectionsFrom_of_ne _ h, sectionsFrom_of_ne _ h, List.map_nil]
    rw [sectionsAllFrom, sectionsAllFrom, List.map_append, hn, ← behind, Nat.add_right_comm]

section FirstSection

variable {s : Node} {content : List Node} (hs : s.tag = .section)
  (hchildren : s.children = n :: content) (hn : n.tag ≠ .section)

include hs hchildren hn

/-- What starts with a section starts, once that is opened, with its first child. -/
theorem unwrapAll_cons_section (ns : List Node) :
    unwrapAll (s :: ns) = n :: unwrapAll (content ++ ns) := by
  rw [unwrapAll, unwrapped_section hs, hchildren, unwrapAll, unwrapped_of_ne hn, unwrapAll_append]
  rfl

theorem sectionsAllFrom_cons_section (start : Nat) (ns : List Node) :
    sectionsAllFrom start (s :: ns) =
      (start, s) :: sectionsAllFrom (start + 1) (content ++ ns) := by
  rw [sectionsAllFrom, sectionsFrom_section start hs, unwrapped_section hs, hchildren,
    sectionsAllFrom, sectionsFrom_of_ne start hn, unwrapAll, unwrapped_of_ne hn,
    sectionsAllFrom_append, List.length_append, Nat.add_assoc]
  rfl

end FirstSection

/-- A node that ends the sections of a level: a heading that is not deeper. -/
def endsSection (level : Nat) (n : Node) : Bool := n.headingLevel?.any (· ≤ level)

theorem endsSection_of_heading {l : Nat} (h : n.headingLevel? = some l) (level : Nat) :
    n.endsSection level = decide (l ≤ level) := by
  rw [endsSection, h]
  rfl

theorem endsSection_of_none (h : n.headingLevel? = none) (level : Nat) :
    n.endsSection level = false := by
  rw [endsSection, h]
  rfl

/-- What ends a section ends the deeper ones. -/
theorem endsSection_of_le {level l : Nat} (hle : level ≤ l) (h : n.endsSection level = true) :
    n.endsSection l = true := by
  cases hlevel : n.headingLevel? with
  | none =>
    rw [endsSection_of_none hlevel] at h
    cases h
  | some k =>
    rw [endsSection_of_heading hlevel, decide_eq_true_eq] at h ⊢
    exact h.trans hle

end Node

open Node (unwrapAll sectionsAllFrom)

/-! ## The sections of a document -/

/-- `s` is the section of the heading at a place: its first child is the heading, and with the
sections in it opened it holds the nodes from there up to the next heading that is not deeper. It
says the level, and has no words of its own. -/
structure IsSectionOf (ns : List Node) (place : Nat) (heading : Node) (l : Nat) (s : Node) :
    Prop where
  first : s.children.head? = some heading
  level : s.attr? "level" = some (Nat.repr l)
  content : unwrapAll s.children =
    heading :: (ns.drop (place + 1)).takeWhile fun n => !n.endsSection l
  text : s.text = ""
  tail : s.tail = ""

/-- Every heading has one section at its place, and every section is that of a heading. -/
structure SectionsOf (ns : List Node) (sections : List (Nat × Node)) : Prop where
  each : ∀ place heading l, ns[place]? = some heading → heading.headingLevel? = some l →
    ∃ s, sections.filter (·.1 == place) = [(place, s)] ∧ IsSectionOf ns place heading l s
  noOthers : ∀ p ∈ sections, ∃ heading l, ns[p.1]? = some heading ∧ heading.headingLevel? = some l

namespace SectionsOf

variable {ns : List Node} {sections : List (Nat × Node)} {n : Node}

/-- The sections at a place behind the first node. -/
theorem filter_succ (sections : List (Nat × Node)) (place : Nat) :
    (sections.map Node.later).filter (·.1 == place + 1) =
      (sections.filter (·.1 == place)).map Node.later := by
  rw [List.filter_map]
  congr 1
  refine List.filter_congr fun p _ => ?_
  simp [Node.later]

/-- None of the sections behind the first node is at its place. -/
theorem filter_zero (sections : List (Nat × Node)) :
    (sections.map Node.later).filter (·.1 == 0) = [] := by
  rw [List.filter_eq_nil_iff]
  intro p hp
  obtain ⟨q, -, rfl⟩ := List.mem_map.1 hp
  simp [Node.later]

theorem each_succ (h : SectionsOf ns sections) {place : Nat} {heading : Node} {l : Nat}
    (hplace : ns[place]? = some heading) (hl : heading.headingLevel? = some l) :
    ∃ s, (sections.map Node.later).filter (·.1 == place + 1) = [(place + 1, s)] ∧
      IsSectionOf (n :: ns) (place + 1) heading l s := by
  obtain ⟨s, hs, hsection⟩ := h.each place heading l hplace hl
  refine ⟨s, ?_, hsection.first, hsection.level, hsection.content, hsection.text, hsection.tail⟩
  rw [filter_succ, hs]
  rfl

theorem noOthers_succ (h : SectionsOf ns sections) {p : Nat × Node}
    (hp : p ∈ sections.map Node.later) :
    ∃ heading l, (n :: ns)[p.1]? = some heading ∧ heading.headingLevel? = some l := by
  obtain ⟨q, hq, rfl⟩ := List.mem_map.1 hp
  exact h.noOthers q hq

/-- In front of a document, a node that is no heading has no section. -/
theorem cons_other (h : SectionsOf ns sections) (hn : n.headingLevel? = none) :
    SectionsOf (n :: ns) (sections.map Node.later) where
  each place heading l hplace hl := by
    cases place with
    | zero =>
      obtain rfl := Option.some.inj hplace
      exact absurd (hn.symm.trans hl) nofun
    | succ place => exact h.each_succ hplace hl
  noOthers _ hp := h.noOthers_succ hp

/-- In front of a document, a heading has the first section. -/
theorem cons_heading (h : SectionsOf ns sections) {l : Nat} {s : Node}
    (hn : n.headingLevel? = some l) (hs : IsSectionOf (n :: ns) 0 n l s) :
    SectionsOf (n :: ns) ((0, s) :: sections.map Node.later) where
  each place heading l' hplace hl := by
    cases place with
    | zero =>
      obtain rfl := Option.some.inj hplace
      obtain rfl := Option.some.inj (hn.symm.trans hl)
      exact ⟨s, by rw [List.filter_cons_of_pos rfl, filter_zero], hs⟩
    | succ place =>
      rw [List.filter_cons_of_neg (by simp)]
      exact h.each_succ hplace hl
  noOthers p hp := by
    rcases List.mem_cons.1 hp with rfl | hp
    · exact ⟨n, l, rfl, hn⟩
    · exact h.noOthers_succ hp

end SectionsOf

/-! ## Parts -/

namespace SectionPart

variable {n : Node} {ns : List Node} {p : SectionPart} {ps : List SectionPart} {level : Nat}

/-- The part is a node that opens no section, or a section in which no heading behind its own is not
deeper. -/
inductive IsWhole : SectionPart → Prop
  | node {k : Node} (level : k.headingLevel? = none) (tag : k.tag ≠ .section) : IsWhole ⟨none, k⟩
  | section {l : Nat} {s heading : Node} {content : List Node} (tag : s.tag = .section)
      (unwrapped : s.unwrapped = heading :: content) (level : heading.headingLevel? = some l)
      (deeper : ∀ m ∈ content, m.endsSection l = false) : IsWhole ⟨some l, s⟩

/-- A part that does not fit into a section begins with the heading that ends it. -/
theorem IsWhole.takeWhile_of_not_fitsUnder (h : p.IsWhole) (hfits : p.fitsUnder level = false)
    (ms : List Node) : (p.node.unwrapped ++ ms).takeWhile (!·.endsSection level) = [] := by
  cases h with
  | node hlevel htag => exact absurd hfits (by simp [fitsUnder])
  | @«section» l s heading content htag hunwrapped hlevel hdeeper =>
    have hle : l ≤ level := by simpa [fitsUnder] using hfits
    have hends : heading.endsSection level = true := by
      rw [Node.endsSection_of_heading hlevel, decide_eq_true hle]
    rw [hunwrapped, List.cons_append, List.takeWhile_cons_of_neg (by simp [hends])]

/-- Nothing in a part that fits into a section ends it. -/
theorem IsWhole.not_endsSection (h : p.IsWhole) (hfits : p.fitsUnder level = true) :
    ∀ m ∈ p.node.unwrapped, (!m.endsSection level) = true := by
  simp only [Bool.not_eq_true']
  cases h with
  | @node k hlevel htag =>
    rw [Node.unwrapped_of_ne htag, List.forall_mem_singleton]
    exact Node.endsSection_of_none hlevel level
  | @«section» l s heading content htag hunwrapped hlevel hdeeper =>
    have hlt : level < l := by simpa [fitsUnder] using hfits
    rw [hunwrapped, List.forall_mem_cons]
    refine ⟨?_, fun m hm => ?_⟩
    · rw [Node.endsSection_of_heading hlevel, decide_eq_false (Nat.not_le.2 hlt)]
    · rw [← Bool.not_eq_true]
      exact fun hends => absurd (Node.endsSection_of_le hlt.le hends) (by simp [hdeeper m hm])

/-- With its sections opened, what a heading takes is what is up to the next heading that is not
deeper. -/
theorem unwrapAll_takeWhile (h : ∀ p ∈ ps, p.IsWhole) :
    unwrapAll ((ps.takeWhile (fitsUnder level)).map (·.node)) =
      (unwrapAll (ps.map (·.node))).takeWhile (!·.endsSection level) := by
  induction ps with
  | nil => rfl
  | cons p ps ih =>
    obtain ⟨hp, hps⟩ := List.forall_mem_cons.1 h
    rw [List.map_cons, unwrapAll]
    cases hfits : p.fitsUnder level with
    | true =>
      rw [List.takeWhile_cons_of_pos hfits, List.takeWhile_append_of_pos (hp.not_endsSection hfits),
        List.map_cons, unwrapAll, ih hps]
    | false =>
      rw [List.takeWhile_cons_of_neg (by simp [hfits]), hp.takeWhile_of_not_fitsUnder hfits]
      rfl

/-- The parts are those of a document. -/
structure PartsOf (ns : List Node) (ps : List SectionPart) : Prop where
  whole : ∀ p ∈ ps, p.IsWhole
  unwrapped : unwrapAll (ps.map (·.node)) = ns
  sections : SectionsOf ns (sectionsAllFrom 0 (ps.map (·.node)))

theorem PartsOf.cons_other (h : PartsOf ns ps) (hn : n.tag ≠ .section)
    (hlevel : n.headingLevel? = none) : PartsOf (n :: ns) (⟨none, n⟩ :: ps) where
  whole := List.forall_mem_cons.2 ⟨.node hlevel hn, h.whole⟩
  unwrapped := by rw [List.map_cons, unwrapAll, Node.unwrapped_of_ne hn, h.unwrapped]; rfl
  sections := by
    rw [List.map_cons, sectionsAllFrom, Node.sectionsFrom_of_ne _ hn, Node.unwrapped_of_ne hn,
      List.nil_append, List.length_singleton, Node.sectionsAllFrom_succ]
    exact h.sections.cons_other hlevel

/-- The section of a heading, in front of the parts that it leaves, holds what it takes. -/
theorem PartsOf.cons_heading (h : PartsOf ns ps) (hn : n.headingLevel? = some level) :
    PartsOf (n :: ns) (ofHeading level n (ps.takeWhile (fitsUnder level)) ::
      ps.dropWhile (fitsUnder level)) := by
  set s := (ofHeading level n (ps.takeWhile (fitsUnder level))).node with hs
  have hne : n.tag ≠ .section := by
    rw [Node.headingLevel?_eq_some_iff.1 hn]
    nofun
  have htag : s.tag = .section := Node.tag_describeSection _ n
  have hchildren : s.children = n :: (ps.takeWhile (fitsUnder level)).map (·.node) := rfl
  have hopened : unwrapAll s.children = n :: ns.takeWhile (!·.endsSection level) := by
    rw [hchildren, unwrapAll, Node.unwrapped_of_ne hne, unwrapAll_takeWhile h.whole, h.unwrapped]
    rfl
  have hparts : (ps.takeWhile (fitsUnder level)).map (·.node) ++
      (ps.dropWhile (fitsUnder level)).map (·.node) = ps.map (·.node) := by
    rw [← List.map_append, List.takeWhile_append_dropWhile]
  refine ⟨List.forall_mem_cons.2 ⟨?_, fun p hp => ?_⟩, ?_, ?_⟩
  · refine .section htag ((Node.unwrapped_section htag).trans hopened) hn fun m hm => ?_
    simpa using List.mem_takeWhile_imp hm
  · exact h.whole p ((List.dropWhile_sublist _).subset hp)
  · rw [List.map_cons, Node.unwrapAll_cons_section htag hchildren hne, hparts, h.unwrapped]
  · rw [List.map_cons, Node.sectionsAllFrom_cons_section htag hchildren hne, hparts,
      Node.sectionsAllFrom_succ]
    exact h.sections.cons_heading hn
      ⟨rfl, Node.level_describeSection _ n hn, hopened, Node.text_describeSection _ n,
        Node.tail_describeSection _ n⟩

theorem partsOf_foldr (h : ∀ n ∈ ns, n.tag ≠ .section) :
    PartsOf ns (ns.foldr SectionPart.cons []) := by
  induction ns with
  | nil => exact ⟨nofun, rfl, ⟨nofun, nofun⟩⟩
  | cons n ns ih =>
    obtain ⟨hn, hns⟩ := List.forall_mem_cons.1 h
    rw [List.foldr_cons, cons]
    split
    · next hlevel => exact (ih hns).cons_other hn hlevel
    · next level hlevel =>
      rw [List.span_eq_takeWhile_dropWhile]
      exact (ih hns).cons_heading hlevel

/-- Nodes among which there is no heading are parts as they are. -/
theorem foldr_cons_of_no_heading (h : ∀ n ∈ ns, n.headingLevel? = none) :
    (ns.foldr SectionPart.cons []).map (·.node) = ns := by
  induction ns with
  | nil => rfl
  | cons n ns ih =>
    obtain ⟨hn, hns⟩ := List.forall_mem_cons.1 h
    rw [List.foldr_cons, cons, hn, List.map_cons, ih hns]

/-- No part is a heading. -/
theorem IsWhole.headingLevel?_eq_none (h : p.IsWhole) : p.node.headingLevel? = none := by
  cases h with
  | node hlevel htag => exact hlevel
  | «section» htag _ _ _ => simp [Node.headingLevel?, htag]

end SectionPart

/-- Putting a document that has no sections into sections loses and moves nothing: opening these
gives its children back, and every heading among them has one section, which takes the children up
to the next heading that is not deeper. Doing it once more changes nothing. -/
theorem sectionsOf_buildSections {root : Node} (h : ∀ n ∈ root.children, n.tag ≠ .section) :
    { buildSections root with children := root.children } = root ∧
      unwrapAll (buildSections root).children = root.children ∧
      SectionsOf root.children (sectionsAllFrom 0 (buildSections root).children) ∧
      buildSections (buildSections root) = buildSections root := by
  have hparts := SectionPart.partsOf_foldr h
  have hunwrapped := hparts.unwrapped
  have hsections := hparts.sections
  rw [← children_buildSections] at hunwrapped hsections
  refine ⟨(buildSections_with_children root root.children).trans root.eta, hunwrapped, hsections, ?_⟩
  have hnone : ∀ n ∈ (buildSections root).children, n.headingLevel? = none := by
    intro n hn
    rw [children_buildSections] at hn
    obtain ⟨p, hp, rfl⟩ := List.mem_map.1 hn
    exact (hparts.whole p hp).headingLevel?_eq_none
  rw [buildSections_eq (buildSections root), SectionPart.foldr_cons_of_no_heading hnone, Node.eta]

/-- Two headings of which the first is deeper than the second are both in the section of the heading
before them, which the next heading of its level ends. -/
theorem sectionsOf_buildSections_of_jumping_levels :
    let root : Node := { Node.ofTag .root with
      children := [.ofTag (.heading 1), .ofTag (.heading 3), .ofTag (.heading 2),
        .ofTag (.heading 1), .ofTag .paragraph] }
    (∀ n ∈ root.children, n.tag ≠ .section) ∧
      ∃ s, (sectionsAllFrom 0 (buildSections root).children).filter (·.1 == 0) = [(0, s)] ∧
        unwrapAll s.children = root.children.take 3 := by
  intro root
  have hroot : ∀ n ∈ root.children, n.tag ≠ .section := by decide
  obtain ⟨-, -, hsections, -⟩ := sectionsOf_buildSections hroot
  obtain ⟨s, hs, hsection⟩ := hsections.each 0 (.ofTag (.heading 1)) 1 rfl rfl
  exact ⟨hroot, s, hs, hsection.content⟩

end Treatise
