import Treatise.Proofs.Numbering.Keeps
import Treatise.Proofs.Tree.Layout

/-!
# Documents with and without sections

Sections are only put around nodes. So it makes no difference to numbers and references whether a
document is first put into sections and then resolved, or the other way round.

* **`Node.flatten`** — the document with every section replaced by its children.
* **`Sectioned`** — nodes of which some are inside sections, and the same nodes without these; both
  walks keep it, and end in the same state (`sectioned_numberNodes`, `sectioned_resolveNodes`).
* **`resolve_buildSections`** — a document with sections has the labels, the contents and the issues
  that it has without them, and the same tree inside its sections.
-/

namespace Treatise

open Node (AllOf)

/-! ## Taking sections away -/

namespace Node

mutual

/-- What stands in place of the node when sections are taken away. -/
def flattened : Node → List Node
  | ⟨.section, _, _, _, _, children⟩ => flattenAll children
  | ⟨tag, attrs, flags, text, tail, children⟩ =>
    [⟨tag, attrs, flags, text, tail, flattenAll children⟩]

/-- The nodes with every section replaced by its children. -/
def flattenAll : List Node → List Node
  | [] => []
  | n :: ns => n.flattened ++ flattenAll ns

end

/-- The node with every section below replaced by its children. -/
def flatten (n : Node) : Node := { n with children := flattenAll n.children }

theorem flattened_section {n : Node} (h : n.tag = .section) :
    n.flattened = flattenAll n.children := by
  obtain ⟨tag, attrs, flags, text, tail, children⟩ := n
  subst h
  rfl

theorem flattened_of_ne {n : Node} (h : n.tag ≠ .section) : n.flattened = [n.flatten] := by
  obtain ⟨tag, attrs, flags, text, tail, children⟩ := n
  cases tag with
  | «section» => exact absurd rfl h
  | _ => rfl

/-- Without sections there is nothing to take away. -/
theorem flattenAll_of_noSection {ns : List Node} (h : AllOf (·.tag ≠ .section) ns) :
    flattenAll ns = ns := by
  induction ns using forest_induction with
  | nil => rfl
  | cons n ns below behind =>
    obtain ⟨hn, hbelow, hns⟩ := (allOf_cons n ns).1 h
    rw [flattenAll, flattened_of_ne hn, flatten, below hbelow, behind hns, eta]
    rfl

end Node

/-- The first nodes are the others, some of them inside sections. Sections have no words of their
own, and stand only at the top or inside sections. -/
inductive Sectioned : List Node → List Node → Prop
  | nil : Sectioned [] []
  | node {n ns ms} (noSection : AllOf (·.tag ≠ .section) [n]) (behind : Sectioned ns ms) :
      Sectioned (n :: ns) (n :: ms)
  | section {n ns cs ms} (tag : n.tag = .section) (text : n.text = "") (tail : n.tail = "")
      (inside : Sectioned n.children cs) (behind : Sectioned ns ms) :
      Sectioned (n :: ns) (cs ++ ms)

namespace Sectioned

variable {ns ns' ms ms' : List Node}

theorem append (h : Sectioned ns ms) (h' : Sectioned ns' ms') :
    Sectioned (ns ++ ns') (ms ++ ms') := by
  induction h with
  | nil => exact h'
  | node noSection _ ih => exact .node noSection ih
  | «section» tag text tail inside _ _ ih =>
    rw [List.append_assoc]
    exact .section tag text tail inside ih

/-- Whatever the first nodes are made of is made of first nodes. -/
theorem exists_of_append (h : Sectioned (ns ++ ns') ms) :
    ∃ as bs, ms = as ++ bs ∧ Sectioned ns as ∧ Sectioned ns' bs := by
  induction ns generalizing ms with
  | nil => exact ⟨[], ms, rfl, .nil, h⟩
  | cons n ns ih =>
    cases h with
    | node noSection behind =>
      obtain ⟨as, bs, rfl, has, hbs⟩ := ih behind
      exact ⟨n :: as, bs, rfl, .node noSection has, hbs⟩
    | @«section» _ _ cs _ tag text tail inside behind =>
      obtain ⟨as, bs, rfl, has, hbs⟩ := ih behind
      exact ⟨cs ++ as, bs, by rw [List.append_assoc], .section tag text tail inside has, hbs⟩

theorem flattenAll_eq (h : Sectioned ns ms) : Node.flattenAll ns = ms := by
  induction h with
  | nil => rfl
  | @node n _ _ noSection _ ih =>
    obtain ⟨hn, hbelow, -⟩ := (Node.allOf_cons n []).1 noSection
    rw [Node.flattenAll, Node.flattened_of_ne hn, Node.flatten,
      Node.flattenAll_of_noSection hbelow, ih, Node.eta]
    rfl
  | «section» tag _ _ _ _ ihInside ih =>
    rw [Node.flattenAll, Node.flattened_section tag, ihInside, ih]

end Sectioned

/-! ## Putting nodes into sections -/

theorem Node.text_describeSection (n heading : Node) : (n.describeSection heading).text = n.text := by
  unfold describeSection
  cases heading.headingLevel? <;> cases heading.headingNumber? <;> rfl

theorem Node.tail_describeSection (n heading : Node) : (n.describeSection heading).tail = n.tail := by
  unfold describeSection
  cases heading.headingLevel? <;> cases heading.headingNumber? <;> rfl

theorem SectionPart.sectioned_cons {n : Node} {ps : List SectionPart} {ns : List Node}
    (hn : AllOf (·.tag ≠ .section) [n]) (h : Sectioned (ps.map (·.node)) ns) :
    Sectioned ((SectionPart.cons n ps).map (·.node)) (n :: ns) := by
  unfold SectionPart.cons
  split
  · exact .node hn h
  · next level _ =>
    rw [List.span_eq_takeWhile_dropWhile]
    rw [← List.takeWhile_append_dropWhile (p := fitsUnder level) (l := ps), List.map_append] at h
    -- what the heading takes is a first piece of the parts
    obtain ⟨taken, rest, rfl, htaken, hrest⟩ := h.exists_of_append
    have hinside : Sectioned (ofHeading level n (ps.takeWhile (fitsUnder level))).node.children
        (n :: taken) := .node hn htaken
    exact .section (Node.tag_describeSection _ n) (Node.text_describeSection _ n)
      (Node.tail_describeSection _ n) hinside hrest

/-- Putting a document into sections takes nothing out of it. -/
theorem sectioned_buildSections {root : Node} (h : AllOf (·.tag ≠ .section) root.children) :
    Sectioned (buildSections root).children root.children := by
  rw [children_buildSections]
  revert h
  induction root.children with
  | nil => exact fun _ => .nil
  | cons n ns ih =>
    intro h
    obtain ⟨hn, hns⟩ := (Node.allOf_append [n] ns).1 h
    exact SectionPart.sectioned_cons hn (ih hns)

/-! ## Both walks -/

section Walks

variable {ns ms : List Node}

theorem numberNodes_append (o : NumberingOptions) (enclosing : List (Option Target))
    (ns ms : List Node) (s : Numbering) :
    numberNodes o enclosing (ns ++ ms) s =
      ((numberNodes o enclosing ns s).1 ++
          (numberNodes o enclosing ms (numberNodes o enclosing ns s).2).1,
        (numberNodes o enclosing ms (numberNodes o enclosing ns s).2).2) := by
  induction ns generalizing s with
  | nil => rfl
  | cons n ns ih => rw [List.cons_append, numberNodes_cons, ih, numberNodes_cons, List.cons_append]

theorem resolveNodes_append (labels : Dict Target) (fileId : Nat) (ns ms : List Node) :
    resolveNodes labels fileId (ns ++ ms) =
      ((resolveNodes labels fileId ns).1 ++ (resolveNodes labels fileId ms).1,
        (resolveNodes labels fileId ns).2 ++ (resolveNodes labels fileId ms).2) := by
  induction ns with
  | nil => rfl
  | cons n ns ih =>
    rw [List.cons_append, resolveNodes_cons, ih, resolveNodes_cons, List.cons_append,
      List.append_assoc]

/-- Numbering meets the same headings, statements and labels with sections and without, in the same
order and in the same states. -/
theorem sectioned_numberNodes (h : Sectioned ns ms) (o : NumberingOptions)
    (enclosing : List (Option Target)) (s : Numbering) :
    Sectioned (numberNodes o enclosing ns s).1 (numberNodes o enclosing ms s).1 ∧
      (numberNodes o enclosing ns s).2 = (numberNodes o enclosing ms s).2 := by
  induction h generalizing s with
  | nil => exact ⟨.nil, rfl⟩
  | @node n ns ms noSection _ ih =>
    obtain ⟨hnodes, hstate⟩ := ih (numberNode o enclosing n s).2
    have hn : Numbers o enclosing s [n] [(numberNode o enclosing n s).1]
        (numberNode o enclosing n s).2 := numbers_numberNodes o enclosing [n] s
    rw [numberNodes_cons, numberNodes_cons]
    exact ⟨.node (noSection_of_numbers hn noSection) hnodes, hstate⟩
  | @«section» n ns cs ms tag text tail _ _ ihInside ih =>
    obtain ⟨hinside, hbelow⟩ := ihInside s
    obtain ⟨hnodes, hstate⟩ := ih (numberNodes o enclosing cs s).2
    rw [numberNodes_cons, numberNode_section tag, numberNodes_append, hbelow]
    refine ⟨?_, hstate⟩
    dsimp only
    rw [Node.refreshSection_eq]
    exact .section tag text tail hinside hnodes

theorem sectioned_resolveNodes (h : Sectioned ns ms) (labels : Dict Target) (fileId : Nat) :
    Sectioned (resolveNodes labels fileId ns).1 (resolveNodes labels fileId ms).1 ∧
      (resolveNodes labels fileId ns).2 = (resolveNodes labels fileId ms).2 := by
  induction h with
  | nil => exact ⟨.nil, rfl⟩
  | @node n ns ms noSection _ ih =>
    have hn : AllOf (·.tag ≠ .section) [(resolveNode labels fileId n).1] :=
      allOf_tag_resolveNodes (p := (· ≠ .section)) nofun noSection
    rw [resolveNodes_cons, resolveNodes_cons, ih.2]
    exact ⟨.node hn ih.1, rfl⟩
  | @«section» n ns cs ms tag text tail _ _ ihInside ih =>
    rw [resolveNodes_cons, resolveNode_of_ne (by simp [tag]), resolveNodes_append, ihInside.2, ih.2]
    exact ⟨.section tag text tail ihInside.1 ih.1, rfl⟩

end Walks

/-! ## Documents -/

/-- Resolving a document that was put into sections. -/
theorem sectioned_resolve (o : NumberingOptions) (fileId : Nat) {root : Node}
    (h : AllOf (·.tag ≠ .section) root.children) :
    (resolve o fileId (buildSections root)).labels = (resolve o fileId root).labels ∧
    (resolve o fileId (buildSections root)).contents = (resolve o fileId root).contents ∧
    (resolve o fileId (buildSections root)).issues = (resolve o fileId root).issues ∧
    Sectioned (resolve o fileId (buildSections root)).root.children
      (resolve o fileId root).root.children := by
  obtain ⟨hnodes, hstate⟩ :=
    sectioned_numberNodes (sectioned_buildSections h) o [] (.initial o)
  have hlabels : (resolve o fileId (buildSections root)).labels = (resolve o fileId root).labels :=
    congrArg Numbering.labels hstate
  obtain ⟨hresolved, hissues⟩ :=
    sectioned_resolveNodes hnodes (resolve o fileId root).labels fileId
  refine ⟨hlabels, congrArg Numbering.contents hstate, ?_, ?_⟩
  · show (resolveNodes (resolve o fileId (buildSections root)).labels fileId _).2 = _
    rw [hlabels]
    exact hissues
  · show Sectioned (resolveNodes (resolve o fileId (buildSections root)).labels fileId _).1 _
    rw [hlabels]
    exact hresolved

/-- A document that is put into sections and then resolved has the labels, the contents and the
issues of the document without sections, and is the same document when its sections are taken
away. -/
theorem resolve_buildSections (source : List Char) (fileId resolverId : Nat)
    (o : NumberingOptions) :
    let root := (Document.parse source fileId).root
    let sectioned := resolve o resolverId (buildSections root)
    let flat := resolve o resolverId root
    sectioned.labels = flat.labels ∧ sectioned.contents = flat.contents ∧
      sectioned.issues = flat.issues ∧ sectioned.root.flatten = flat.root := by
  intro root sectioned flat
  obtain ⟨hlabels, hcontents, hissues, hnodes⟩ :=
    sectioned_resolve o resolverId (noSection_parse source fileId)
  refine ⟨hlabels, hcontents, hissues, ?_⟩
  have hroot : sectioned.root.flatten =
      { flat.root with children := Node.flattenAll sectioned.root.children } :=
    buildSections_with_children root _
  rw [hroot, hnodes.flattenAll_eq, Node.eta]

end Treatise
