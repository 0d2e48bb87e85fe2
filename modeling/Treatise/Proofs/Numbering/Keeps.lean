import Treatise.Proofs.Numbering.Settled

/-!
# What numbering keeps

The steps of numbering and resolving on any tree, whether it has numbers already or not.

* **`section_of_numbers`** — where there is no heading the section stays the same.
* **`allOf_tag_of_numbers`**, **`allOf_tag_resolveNodes`** — nodes keep their tags, and all nodes
  that are made are numbers.
* **`words_of_numbers`**, **`headingTitle_setSectionNumber`** — a number is no part of a title, and
  other words change only in the places of the numbers of statements.
* **`filterMap_of_settles`** — labels, references and the like keep their attributes.
-/

namespace Treatise

open Node (AllOf textContentOf titleWords)

/-! ## A heading with its number -/

section SetSectionNumber

variable (number : String)

theorem tag_setSectionNumber (n : Node) : (n.setSectionNumber number).tag = n.tag := by
  unfold Node.setSectionNumber
  split <;> rfl

/-- The first number of a heading is the one that it gets. -/
theorem headingNumber?_setSectionNumber (n : Node) :
    (n.setSectionNumber number).headingNumber? = some number := by
  unfold Node.setSectionNumber
  split
  · next h =>
    revert h
    show n.children.any _ = true → ((Node.modifyFirst _ _ n.children).find? _).map _ = _
    induction n.children with
    | nil => nofun
    | cons c cs ih =>
      intro h
      by_cases hc : c.hasRole .sectionNumber = true
      · have hmark : (Node.markSection number c).hasRole .sectionNumber = true := hc
        rw [Node.modifyFirst, if_pos hc]
        simp only [List.find?_cons, hmark]
        rfl
      · rw [Node.modifyFirst, if_neg hc]
        simp only [List.find?_cons, hc]
        exact ih (by simpa [hc] using h)
  · rfl

/-- A number in a heading is no part of its title. -/
theorem headingTitle_setSectionNumber (n : Node) :
    (n.setSectionNumber number).headingTitle = n.headingTitle := by
  unfold Node.setSectionNumber
  split
  · have hwords (cs : List Node) : titleWords (Node.modifyFirst (·.hasRole .sectionNumber)
        (Node.markSection number) cs) = titleWords cs := by
      induction cs with
      | nil => rfl
      | cons c cs ih =>
        by_cases hc : c.hasRole .sectionNumber = true
        · have hmark : (Node.markSection number c).hasRole .sectionNumber = true := hc
          rw [Node.modifyFirst, if_pos hc, titleWords, titleWords, if_pos hc, if_pos hmark]
          rfl
        · rw [Node.modifyFirst, if_neg hc, titleWords, titleWords, ih]
    exact congrArg (fun words => Text.trimString (n.text ++ words)) (hwords n.children)
  · exact Node.headingTitle_numberedHeading n number n.children

theorem tail_setSectionNumber (n : Node) : (n.setSectionNumber number).tail = n.tail := by
  unfold Node.setSectionNumber
  split <;> rfl

/-- A heading gets no nodes but a number, which may have any tail. -/
theorem allOf_tag_tail_setSectionNumber {p : Tag → String → Prop}
    (hspan : ∀ tail, p (.span .sectionNumber) tail) {n : Node}
    (h : AllOf (fun c => p c.tag c.tail) n.children) :
    AllOf (fun c => p c.tag c.tail) (n.setSectionNumber number).children := by
  unfold Node.setSectionNumber
  split
  · revert h
    show AllOf _ n.children → AllOf _ (Node.modifyFirst _ _ n.children)
    induction n.children with
    | nil => exact fun h => h
    | cons c cs ih =>
      intro h
      obtain ⟨hc, hbelow, hcs⟩ := (Node.allOf_cons _ _).1 h
      unfold Node.modifyFirst
      split
      · exact (Node.allOf_cons _ _).2 ⟨hc, hbelow, hcs⟩
      · exact (Node.allOf_cons _ _).2 ⟨hc, hbelow, ih hcs⟩
  · exact (Node.allOf_cons _ _).2 ⟨hspan _, Node.allOf_nil, h⟩

/-- A heading gets no nodes but a number. -/
theorem allOf_tag_setSectionNumber {p : Tag → Prop} (hspan : p (.span .sectionNumber)) {n : Node}
    (h : AllOf (p ·.tag) n.children) : AllOf (p ·.tag) (n.setSectionNumber number).children :=
  allOf_tag_tail_setSectionNumber (p := fun tag _ => p tag) number (fun _ => hspan) h

end SetSectionNumber

/-! ## Numbered nodes -/

theorem Numbering.contents_recordLabel (s : Numbering) (enclosing : List (Option Target))
    (n : Node) : (s.recordLabel enclosing n).contents = s.contents := by
  unfold recordLabel
  split <;> rfl

section Numbers

variable {o : NumberingOptions} {enclosing : List (Option Target)} {s s' : Numbering}
  {ns ms : List Node}

/-- Without headings the section stays the same, and nothing is listed. -/
theorem section_of_numbers (h : Numbers o enclosing s ns ms s')
    (hns : AllOf (·.headingLevel? = none) ns) :
    s'.components = s.components ∧ s'.contents = s.contents := by
  induction h with
  | nil => exact ⟨rfl, rfl⟩
  | heading tag =>
    rw [Node.allOf_cons, Node.headingLevel?_eq_some_iff.2 tag] at hns
    exact absurd hns.1 (by simp)
  | place _ _ behind => exact behind ((Node.allOf_cons _ _).1 hns).2.2
  | @label enclosing s _ n _ _ _ _ behind =>
    rw [← s.components_recordLabel enclosing n, ← s.contents_recordLabel enclosing n]
    exact behind ((Node.allOf_cons _ _).1 hns).2.2
  | numbered _ _ _ _ _ below behind | unnumbered _ _ _ _ _ below behind
  | «section» _ _ _ below behind | plain _ _ _ below behind =>
    obtain ⟨-, hchildren, hns⟩ := (Node.allOf_cons _ _).1 hns
    exact ⟨(behind hns).1.trans (below hchildren).1, (behind hns).2.trans (below hchildren).2⟩

/-- Numbering changes the tag of a statement only and keeps tails, and it makes no nodes but numbers
of headings. -/
theorem allOf_tag_tail_of_numbers {p : Tag → String → Prop}
    (hstatement : ∀ st st' tail, p (.block st) tail → p (.block st') tail)
    (hheading : ∀ level tail, p (.heading level) tail → ∀ t, p (.span .sectionNumber) t)
    (h : Numbers o enclosing s ns ms s') (hns : AllOf (fun n => p n.tag n.tail) ns) :
    AllOf (fun n => p n.tag n.tail) ms := by
  induction h with
  | nil => exact hns
  | heading tag _ _ below behind =>
    obtain ⟨hn, hchildren, hns⟩ := (Node.allOf_cons _ _).1 hns
    refine (Node.allOf_cons _ _).2 ⟨?_, ?_, behind hns⟩
    · rw [tag_setSectionNumber, tail_setSectionNumber]
      exact hn
    · exact allOf_tag_tail_setSectionNumber _ (hheading _ _ (tag ▸ hn)) (below hchildren)
  | place _ _ behind | label _ _ behind =>
    obtain ⟨hn, hchildren, hns⟩ := (Node.allOf_cons _ _).1 hns
    exact (Node.allOf_cons _ _).2 ⟨hn, hchildren, behind hns⟩
  | numbered tag _ _ _ _ below behind | unnumbered tag _ _ _ _ below behind =>
    obtain ⟨hn, hchildren, hns⟩ := (Node.allOf_cons _ _).1 hns
    rw [tag] at hn
    exact (Node.allOf_cons _ _).2 ⟨hstatement _ _ _ hn, below hchildren, behind hns⟩
  | «section» tag _ _ below behind =>
    obtain ⟨hn, hchildren, hns⟩ := (Node.allOf_cons _ _).1 hns
    rw [Node.refreshSection_eq]
    exact (Node.allOf_cons _ _).2 ⟨hn, below hchildren, behind hns⟩
  | plain _ _ _ below behind =>
    obtain ⟨hn, hchildren, hns⟩ := (Node.allOf_cons _ _).1 hns
    exact (Node.allOf_cons _ _).2 ⟨hn, below hchildren, behind hns⟩

/-- Numbering changes the tag of a statement only, and makes no nodes but numbers of headings. -/
theorem allOf_tag_of_numbers {p : Tag → Prop}
    (hstatement : ∀ st st', p (.block st) → p (.block st'))
    (hheading : ∀ level, p (.heading level) → p (.span .sectionNumber))
    (h : Numbers o enclosing s ns ms s') (hns : AllOf (p ·.tag) ns) : AllOf (p ·.tag) ms :=
  allOf_tag_tail_of_numbers (p := fun tag _ => p tag) (fun st st' _ => hstatement st st')
    (fun level _ hlevel _ => hheading level hlevel) h hns

theorem noHeading_of_numbers (h : Numbers o enclosing s ns ms s')
    (hns : AllOf (·.headingLevel? = none) ns) : AllOf (·.headingLevel? = none) ms :=
  allOf_tag_of_numbers (p := fun tag => (Node.ofTag tag).headingLevel? = none) (fun _ _ _ => rfl)
    (fun _ => nofun) h hns

theorem noSection_of_numbers (h : Numbers o enclosing s ns ms s')
    (hns : AllOf (·.tag ≠ .section) ns) : AllOf (·.tag ≠ .section) ms :=
  allOf_tag_of_numbers (p := (· ≠ .section)) (fun _ _ _ => nofun) (fun _ _ => nofun) h hns

/-- Two nodes that say the same, in front of nodes that do. -/
theorem words_cons {n m : Node} (htext : m.text = n.text) (htail : m.tail = n.tail)
    (hrole : m.hasRole .sectionNumber = n.hasRole .sectionNumber)
    (hbelow : textContentOf m.children = textContentOf n.children)
    (hbehind : textContentOf ms = textContentOf ns ∧ titleWords ms = titleWords ns) :
    textContentOf (m :: ms) = textContentOf (n :: ns) ∧
      titleWords (m :: ms) = titleWords (n :: ns) := by
  simp only [textContentOf, titleWords, Node.textContent_eq, htext, htail, hrole, hbelow, hbehind,
    and_self]

/-- Without headings and places of numbers, numbering changes no words. -/
theorem words_of_numbers (h : Numbers o enclosing s ns ms s')
    (hns : AllOf (·.headingLevel? = none) ns) (hplace : AllOf (·.tag ≠ .span .blockNumber) ns) :
    textContentOf ms = textContentOf ns ∧ titleWords ms = titleWords ns := by
  induction h with
  | nil => exact ⟨rfl, rfl⟩
  | heading tag =>
    rw [Node.allOf_cons, Node.headingLevel?_eq_some_iff.2 tag] at hns
    exact absurd hns.1 (by simp)
  | place tag => exact absurd tag ((Node.allOf_cons _ _).1 hplace).1
  | label _ _ behind =>
    exact words_cons rfl rfl rfl rfl
      (behind ((Node.allOf_cons _ _).1 hns).2.2 ((Node.allOf_cons _ _).1 hplace).2.2)
  | numbered tag _ _ _ _ below behind | unnumbered tag _ _ _ _ below behind =>
    obtain ⟨-, hchildren, hns⟩ := (Node.allOf_cons _ _).1 hns
    obtain ⟨-, hchildren', hplace⟩ := (Node.allOf_cons _ _).1 hplace
    refine words_cons rfl rfl ?_ (below hchildren hchildren').1 (behind hns hplace)
    rw [Node.hasRole, Node.hasRole, tag]
    rfl
  | @«section» _ _ _ _ n cs _ _ _ _ _ below behind =>
    obtain ⟨-, hchildren, hns⟩ := (Node.allOf_cons _ _).1 hns
    obtain ⟨-, hchildren', hplace⟩ := (Node.allOf_cons _ _).1 hplace
    rw [Node.refreshSection_eq]
    exact words_cons rfl rfl rfl (below hchildren hchildren').1 (behind hns hplace)
  | plain _ _ _ below behind =>
    obtain ⟨-, hchildren, hns⟩ := (Node.allOf_cons _ _).1 hns
    obtain ⟨-, hchildren', hplace⟩ := (Node.allOf_cons _ _).1 hplace
    exact words_cons rfl rfl rfl (below hchildren hchildren').1 (behind hns hplace)

end Numbers

/-! ## Resolved references -/

section Resolve

variable {labels : Dict Target} {fileId : Nat}

theorem allOf_tag_children_resolveNode {p : Tag → Prop} (hspan : p (.span .referenceNumber))
    {n : Node} (h : AllOf (p ·.tag) n.children)
    (hresolved : AllOf (p ·.tag) (resolveNodes labels fileId n.children).1) :
    AllOf (p ·.tag) (resolveNode labels fileId n).1.children := by
  by_cases href : n.tag = .reference
  · rw [resolveNode_reference href]
    refine (Node.allOf_append _ _).2 ⟨h.filter _, (Node.allOf_cons _ _).2 ⟨?_, ?_, Node.allOf_nil⟩⟩
    · rwa [tag_numberSpan]
    · rw [children_numberSpan]
      exact Node.allOf_nil
  · rwa [children_resolveNode_of_ne href]

/-- Resolving makes no nodes but numbers of references. -/
theorem allOf_tag_resolveNodes {p : Tag → Prop} (hspan : p (.span .referenceNumber))
    {ns : List Node} (h : AllOf (p ·.tag) ns) :
    AllOf (p ·.tag) (resolveNodes labels fileId ns).1 := by
  induction ns using Node.forest_induction with
  | nil => exact h
  | cons n ns below behind =>
    obtain ⟨hn, hchildren, hns⟩ := (Node.allOf_cons _ _).1 h
    rw [resolveNodes_cons]
    refine (Node.allOf_cons _ _).2 ⟨by rwa [tag_resolveNode], ?_, behind hns⟩
    exact allOf_tag_children_resolveNode hspan hchildren (below hchildren)

theorem attr?_resolveNode (n : Node) (key : String) :
    (resolveNode labels fileId n).1.attr? key = n.attr? key := by
  rw [resolveNode_eq]
  rfl

end Resolve

/-! ## Both walks -/

/-- What nodes of kinds that have no content say by their attributes, they also say in the resolved
tree, and in the same order. -/
theorem filterMap_of_settles {o : NumberingOptions} {labels : Dict Target} {fileId : Nat}
    {enclosing : List (Option Target)} {s s' : Numbering} {ns ms : List Node} {α : Type}
    {f : Node → Option α} (h : Settles o labels fileId enclosing s ns ms s')
    (hkeep : ∀ n m : Node, m.tag = n.tag → m.attrs = n.attrs → f m = f n)
    (hnone : ∀ n : Node, n.tag.isLeaf = false → f n = none) :
    (Node.descendantsOf ms).filterMap f = (Node.descendantsOf ns).filterMap f := by
  have hcons {n m : Node} {ns ms : List Node} (heq : f m = f n)
      (hbelow : (Node.descendantsOf m.children).filterMap f =
        (Node.descendantsOf n.children).filterMap f)
      (hbehind : (Node.descendantsOf ms).filterMap f = (Node.descendantsOf ns).filterMap f) :
      (Node.descendantsOf (m :: ms)).filterMap f = (Node.descendantsOf (n :: ns)).filterMap f := by
    rw [Node.descendantsOf_cons, Node.descendantsOf_cons, List.filterMap_cons, List.filterMap_cons,
      List.filterMap_append, List.filterMap_append, heq, hbelow, hbehind]
  induction h with
  | nil => rfl
  | @heading _ s _ _ n _ _ level _ tag _ _ below behind =>
    refine hcons (hkeep _ _ rfl rfl) ?_ behind
    -- the number in front is new, but it has content
    rw [Node.descendantsOf_numberedHeading, List.filterMap_cons_none (hnone _ rfl), below]
  | numbered _ tag _ _ _ _ below behind =>
    refine hcons ?_ below behind
    rw [hnone _ rfl, hnone _ (by rw [tag]; rfl)]
  | unnumbered _ tag _ _ _ _ below behind =>
    refine hcons ?_ below behind
    rw [hnone _ rfl, hnone _ (by rw [tag]; rfl)]
  | place _ _ _ behind => exact hcons (hkeep _ _ rfl rfl) rfl behind
  | label _ _ _ behind => exact hcons rfl rfl behind
  | @reference _ _ _ n _ _ fresh tag _ behind =>
    refine hcons (hkeep _ _ rfl rfl) ?_ behind
    have hspan : f (numberSpan (labels.get? n.key)) = none := hnone _ (by rw [tag_numberSpan]; rfl)
    rw [fresh.leaf (by rw [tag]; rfl), Node.descendantsOf_cons, children_numberSpan,
      List.filterMap_cons_none hspan]
    rfl
  | «section» _ tag _ _ _ below behind =>
    refine hcons ?_ below behind
    rw [hnone _ (by rw [Node.tag_settledSection, tag]; rfl), hnone _ (by rw [tag]; rfl)]
  | plain _ _ _ _ _ below behind => exact hcons (hkeep _ _ rfl rfl) below behind

end Treatise
