import Mathlib.Data.List.Chain
import Mathlib.Data.List.TakeDrop
import Mathlib.Data.List.TakeWhile
import Treatise.Proofs.SectionParts

/-!
# Sections of an outline

Seen from the end of a document, a heading takes the parts behind it up to the first section that is
not deeper. Where the levels of headings start at one and rise by one at most, every section takes
sections of the next level and no others.

* **`Outlined`** — nodes that are an outline: sections of one level, which hold outlines of the next
  level, and nodes between them.
* **`outlined_buildSections`** — putting an outline into sections makes one. The parts behind a
  heading have levels that do not rise (`SectionPart.Descends`), so what a heading takes has one
  level.
-/

namespace Treatise

/-! ## Outlines -/

/-- The nodes, at a depth, are made of others: of these as they are, and of sections of the next
level that each hold a heading and behind it nodes of the next depth. -/
inductive Outlined (items : List Node) : Nat → List Node → Prop
  | nil {depth} : Outlined items depth []
  | other {depth n ns} (item : n ∈ items) (level : n.headingLevel? = none)
      (behind : Outlined items depth ns) : Outlined items depth (n :: ns)
  | section {depth n heading content ns} (item : heading ∈ items)
      (level : heading.tag = .heading (depth + 1)) (tag : n.tag = .section)
      (children : n.children = heading :: content)
      (title : n.attr? "title" = some heading.headingTitle)
      (inside : Outlined items (depth + 1) content) (behind : Outlined items depth ns) :
      Outlined items depth (n :: ns)

theorem Outlined.append {items : List Node} {depth : Nat} {ns ms : List Node}
    (h : Outlined items depth ns) (h' : Outlined items depth ms) :
    Outlined items depth (ns ++ ms) := by
  induction h with
  | nil => exact h'
  | other item level _ behind => exact .other item level (behind h')
  | «section» item level tag children title inside _ _ behind =>
    exact .section item level tag children title inside (behind h')

/-- The headings of a document are among its children. Their levels start at one and never rise by
more than one. -/
structure Node.IsOutline (root : Node) : Prop where
  top : ∀ n ∈ root.children, AllOf (·.headingLevel? = none) n.children
  positive : ∀ level ∈ root.children.filterMap (·.headingLevel?), 1 ≤ level
  chain : (0 :: root.children.filterMap (·.headingLevel?)).IsChain fun l l' => l' ≤ l + 1

/-! ## Parts -/

namespace SectionPart

/-- The levels of the sections among parts. -/
def levels (ps : List SectionPart) : List Nat := ps.filterMap (·.level)

/-- The part is a node as it was, or a section that is an outline. -/
def IsOutlined (items : List Node) (p : SectionPart) : Prop :=
  match p.level with
  | some level => ∃ depth, level = depth + 1 ∧ Outlined items depth [p.node]
  | none => ∀ depth, Outlined items depth [p.node]

/-- Parts that sections of one level are among are an outline. -/
theorem outlined_map_node {items : List Node} {ps : List SectionPart} {depth : Nat}
    (h : ∀ p ∈ ps, p.IsOutlined items) (hlevels : ∀ level ∈ levels ps, level = depth + 1) :
    Outlined items depth (ps.map (·.node)) := by
  induction ps with
  | nil => exact .nil
  | cons p ps ih =>
    have hp := h p List.mem_cons_self
    have hbehind : Outlined items depth (ps.map (·.node)) := by
      refine ih (fun q hq => h q (List.mem_cons_of_mem p hq)) fun level hlevel => hlevels level ?_
      obtain ⟨q, hq, hlevel⟩ := List.mem_filterMap.1 hlevel
      exact List.mem_filterMap.2 ⟨q, List.mem_cons_of_mem p hq, hlevel⟩
    show Outlined items depth ([p.node] ++ ps.map (·.node))
    refine Outlined.append ?_ hbehind
    unfold IsOutlined at hp
    split at hp
    · next level hlevel =>
      obtain ⟨depth', rfl, hp⟩ := hp
      have heq : depth' + 1 = depth + 1 :=
        hlevels _ (List.mem_filterMap.2 ⟨p, List.mem_cons_self, hlevel⟩)
      rwa [Nat.succ.inj heq] at hp
    · exact hp depth

/-- The parts behind a heading: outlines with levels that do not rise, of which the first is that of
the first heading. -/
structure Descends (items ns : List Node) (ps : List SectionPart) : Prop where
  outlined : ∀ p ∈ ps, p.IsOutlined items
  descends : (levels ps).Pairwise (· ≥ ·)
  first : (levels ps).head? = (ns.filterMap (·.headingLevel?)).head?

/-- No level behind the first is greater. -/
theorem le_of_descends {ls : List Nat} (h : ls.Pairwise (· ≥ ·)) {first : Nat}
    (hfirst : ls.head? = some first) : ∀ level ∈ ls, level ≤ first := by
  cases ls with
  | nil => nofun
  | cons l ls =>
    cases hfirst
    intro level hlevel
    rcases List.mem_cons.1 hlevel with rfl | hlevel
    · exact Nat.le_refl level
    · exact (List.pairwise_cons.1 h).1 level hlevel

theorem pairwise_levels_of_sublist {ps qs : List SectionPart} (h : (levels ps).Pairwise (· ≥ ·))
    (hsub : qs.Sublist ps) : (levels qs).Pairwise (· ≥ ·) :=
  h.sublist (hsub.filterMap _)

/-- Behind what a heading takes there are no deeper sections. -/
theorem le_of_mem_dropWhile {level : Nat} {ps : List SectionPart}
    (h : (levels ps).Pairwise (· ≥ ·)) :
    ∀ l ∈ levels (ps.dropWhile (fitsUnder level)), l ≤ level := by
  have hdrop := pairwise_levels_of_sublist h (List.dropWhile_sublist (fitsUnder level))
  cases hrest : ps.dropWhile (fitsUnder level) with
  | nil => nofun
  | cons p rest =>
    rw [hrest] at hdrop
    have hp : p.fitsUnder level = false := by
      have := List.head?_dropWhile_not (fitsUnder level) ps
      rwa [hrest] at this
    unfold fitsUnder at hp
    split at hp
    · next l hl =>
      have hfirst : (levels (p :: rest)).head? = some l := by
        rw [levels, List.filterMap_cons_some hl]
        rfl
      intro l' hl'
      have hle := le_of_descends hdrop hfirst l' hl'
      simp at hp
      omega
    · exact absurd hp (by simp)

/-- What a heading takes is deeper, but by no more than one level. -/
theorem Descends.outlined_takeWhile {items ns : List Node} {ps : List SectionPart}
    (h : Descends items ns ps) {depth : Nat}
    (hchain : ∀ next, (ns.filterMap (·.headingLevel?)).head? = some next → next ≤ depth + 2) :
    Outlined items (depth + 1) ((ps.takeWhile (fitsUnder (depth + 1))).map (·.node)) := by
  have htaken : (ps.takeWhile (fitsUnder (depth + 1))).Sublist ps := List.takeWhile_sublist _
  refine outlined_map_node (fun p hp => h.outlined p (htaken.subset hp)) fun l hl => ?_
  obtain ⟨p, hp, hpl⟩ := List.mem_filterMap.1 hl
  have hfits : p.fitsUnder (depth + 1) = true := List.mem_takeWhile_imp hp
  have hdeeper : depth + 1 < l := by simpa [fitsUnder, hpl] using hfits
  have hmem : l ∈ levels ps := List.mem_filterMap.2 ⟨p, htaken.subset hp, hpl⟩
  obtain ⟨first, hhead⟩ :=
    Option.ne_none_iff_exists'.1 (mt List.head?_eq_none_iff.1 (List.ne_nil_of_mem hmem))
  have hle := le_of_descends h.descends hhead l hmem
  have hrise := hchain first (h.first ▸ hhead)
  omega

theorem Descends.cons_other {items ns : List Node} {ps : List SectionPart}
    (h : Descends items ns ps) {n : Node} (hn : n ∈ items) (hlevel : n.headingLevel? = none) :
    Descends items (n :: ns) (SectionPart.cons n ps) := by
  rw [SectionPart.cons, hlevel]
  refine ⟨fun p hp => ?_, h.descends, by simpa [levels, hlevel] using h.first⟩
  rcases List.mem_cons.1 hp with rfl | hp
  · exact fun depth => .other hn hlevel .nil
  · exact h.outlined p hp

theorem Descends.cons_heading {items ns : List Node} {ps : List SectionPart}
    (h : Descends items ns ps) {n : Node} (hn : n ∈ items) {depth : Nat}
    (hlevel : n.headingLevel? = some (depth + 1))
    (hchain : ∀ next, (ns.filterMap (·.headingLevel?)).head? = some next → next ≤ depth + 2) :
    Descends items (n :: ns) (SectionPart.cons n ps) := by
  simp only [SectionPart.cons, hlevel, List.span_eq_takeWhile_dropWhile]
  have hsection : Outlined items depth
      [(ofHeading (depth + 1) n (ps.takeWhile (fitsUnder (depth + 1)))).node] :=
    .section hn (Node.headingLevel?_eq_some_iff.1 hlevel) (Node.tag_describeSection _ n) rfl
      (Node.title_describeSection _ n) (h.outlined_takeWhile hchain) .nil
  have hlevels : levels (ofHeading (depth + 1) n (ps.takeWhile (fitsUnder (depth + 1))) ::
      ps.dropWhile (fitsUnder (depth + 1))) =
        (depth + 1) :: levels (ps.dropWhile (fitsUnder (depth + 1))) := rfl
  refine ⟨fun p hp => ?_, ?_, ?_⟩
  · rcases List.mem_cons.1 hp with rfl | hp
    · exact ⟨depth, rfl, hsection⟩
    · exact h.outlined p ((List.dropWhile_sublist _).subset hp)
  · rw [hlevels]
    exact .cons (le_of_mem_dropWhile h.descends)
      (pairwise_levels_of_sublist h.descends (List.dropWhile_sublist _))
  · rw [hlevels, List.filterMap_cons_some hlevel]
    rfl

/-- The parts that the end of an outline is put into. -/
theorem descends_foldr {items ns : List Node} (hns : ∀ n ∈ ns, n ∈ items)
    (hpos : ∀ level ∈ ns.filterMap (·.headingLevel?), 1 ≤ level)
    (hchain : (ns.filterMap (·.headingLevel?)).IsChain fun l l' => l' ≤ l + 1) :
    Descends items ns (ns.foldr SectionPart.cons []) := by
  induction ns with
  | nil => exact ⟨nofun, .nil, rfl⟩
  | cons n ns ih =>
    have htail : ∀ m ∈ ns, m ∈ items := fun m hm => hns m (List.mem_cons_of_mem n hm)
    cases hlevel : n.headingLevel? with
    | none =>
      rw [List.filterMap_cons_none hlevel] at hpos hchain
      exact (ih htail hpos hchain).cons_other (hns n List.mem_cons_self) hlevel
    | some level =>
      rw [List.filterMap_cons_some hlevel] at hpos hchain
      obtain ⟨hrise, hchain'⟩ := List.isChain_cons.1 hchain
      obtain ⟨hlevelpos, hpos'⟩ := List.forall_mem_cons.1 hpos
      obtain ⟨depth, rfl⟩ := Nat.exists_eq_add_of_le' hlevelpos
      exact (ih htail hpos' hchain').cons_heading (hns n List.mem_cons_self) hlevel hrise

end SectionPart

/-- Putting an outline into sections makes one. -/
theorem outlined_buildSections {root : Node} (h : root.IsOutline) :
    Outlined root.children 0 (buildSections root).children := by
  rw [children_buildSections]
  obtain ⟨hfirst, hchain⟩ := List.isChain_cons.1 h.chain
  have hparts := SectionPart.descends_foldr (fun _ hn => hn) h.positive hchain
  refine SectionPart.outlined_map_node hparts.outlined fun level hlevel => ?_
  -- the levels of the sections do not rise, and the first is one
  obtain ⟨first, hhead⟩ :=
    Option.ne_none_iff_exists'.1 (mt List.head?_eq_none_iff.1 (List.ne_nil_of_mem hlevel))
  have hle := SectionPart.le_of_descends hparts.descends hhead level hlevel
  have hone := hfirst first (hparts.first ▸ hhead)
  obtain ⟨p, hp, hpl⟩ := List.mem_filterMap.1 hlevel
  have hp := hparts.outlined p hp
  rw [SectionPart.IsOutlined, hpl] at hp
  obtain ⟨depth, rfl, -⟩ := hp
  omega

end Treatise
