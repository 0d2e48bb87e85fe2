import Treatise.Proofs.Numbering.Walk
import Treatise.Proofs.Tree.Fresh

/-!
# Numbered and resolved trees

What a fresh tree looks like when it is numbered and its references are resolved.

* **`eq_of_numbers_inline`** — numbering leaves running text as it is.
* **`Settles`** — both walks over a fresh tree as one relation, with a rule for each kind of node;
  `settles_of_numbers` says that the walks follow them.
-/

namespace Treatise

open Node (Fresh AllOf descendantsOf holdLabel)

/-! ## Running text -/

/-- Everything below running text is running text. -/
theorem allOf_isInline {ns : List Node} (hfresh : AllOf Fresh ns)
    (h : ∀ n ∈ ns, n.tag.isInline = true) : AllOf (·.tag.isInline = true) ns := by
  induction ns using Node.forest_induction with
  | nil => exact Node.allOf_nil
  | cons n ns below behind =>
    rw [Node.allOf_cons] at hfresh ⊢
    obtain ⟨hn, hbelow, hbehind⟩ := hfresh
    have htag : n.tag.isInline = true := h n List.mem_cons_self
    refine ⟨htag, ?_, behind hbehind fun m hm => h m (List.mem_cons_of_mem n hm)⟩
    have hcontent : n.tag.holdsInline = true ∨ n.tag.isLeaf = true := by
      cases hn : n.tag with
      | span role => simp [hn, Tag.isInline] at htag
      | _ => first | exact .inl rfl | exact .inr rfl | simp [hn, Tag.isInline] at htag
    rcases hcontent with hholds | hleaf
    · exact below hbelow (hn.inline hholds)
    · rw [hn.leaf hleaf]
      exact Node.allOf_nil

/-- Numbering leaves running text as it is. -/
theorem eq_of_numbers_inline {o : NumberingOptions} {enclosing : List (Option Target)}
    {s s' : Numbering} {ns ms : List Node} (h : Numbers o enclosing s ns ms s')
    (hinline : AllOf (·.tag.isInline = true) ns) : ms = ns := by
  induction h with
  | nil => rfl
  | label _ _ behind =>
    rw [Node.allOf_cons] at hinline
    rw [behind hinline.2.2]
  | plain _ _ _ below behind =>
    rw [Node.allOf_cons] at hinline
    rw [below hinline.2.1, behind hinline.2.2, Node.eta]
  | _ => simp_all [Tag.isInline]

/-- Labels and the places of numbers are empty. -/
theorem Node.Fresh.children_eq_nil {n : Node} (h : Fresh n)
    (htag : n.tag = .label ∨ n.tag = .span .blockNumber) : n.children = [] := by
  rcases htag with htag | htag
  · exact h.leaf (by rw [htag]; rfl)
  · exact h.leaf (by rw [htag]; rfl)

/-! ## Headings -/

/-- The span in front of the words of a heading. -/
def Node.sectionSpan (number tail : String) : Node :=
  { markSection number (span .sectionNumber) with tail := tail }

/-- The heading with a number in front of its words, and with these children behind it. -/
def Node.numberedHeading (n : Node) (number : String) (cs : List Node) : Node :=
  { n with text := "", children := sectionSpan number n.text :: cs }

/-- A heading without a number gets one in front of its words. -/
theorem Node.setSectionNumber_of_fresh {n : Node} (h : n.tag.holdsInline = true) (hn : Fresh n)
    (number : String) : n.setSectionNumber number = n.numberedHeading number n.children := by
  have hnone : n.children.any (·.hasRole .sectionNumber) = false := by
    rw [List.any_eq_false]
    intro c hc hrole
    have htag : c.tag = .span .sectionNumber := by simpa [hasRole] using hrole
    have hinline := hn.inline h c hc
    rw [htag] at hinline
    exact absurd hinline Bool.false_ne_true
  rw [setSectionNumber, hnone]
  rfl

theorem Node.descendantsOf_numberedHeading (n : Node) (number : String) (cs : List Node) :
    descendantsOf (n.numberedHeading number cs).children =
      sectionSpan number n.text :: descendantsOf cs := by
  show descendantsOf (sectionSpan number n.text :: cs) = _
  rw [descendantsOf_cons]
  rfl

theorem resolveNode_numberedHeading {labels : Dict Target} {fileId : Nat} {n : Node}
    (h : n.tag ≠ .reference) (number : String) (cs : List Node) :
    (resolveNode labels fileId (n.numberedHeading number cs)).1 =
      n.numberedHeading number (resolveNodes labels fileId cs).1 := by
  rw [resolveNode_of_ne (n := n.numberedHeading number cs) h]
  rfl

/-- What numbering a heading does to a fresh tree. -/
theorem Node.Fresh.heading_of_numbers {o : NumberingOptions} {enclosing : List (Option Target)}
    {s s' : Numbering} {n : Node} {cs : List Node} (hn : Fresh n) (hbelow : AllOf Fresh n.children)
    (h : n.tag.holdsInline = true) (hcs : Numbers o enclosing s n.children cs s')
    (number : String) :
    Node.setSectionNumber number { n with children := cs } =
      n.numberedHeading number n.children := by
  have heq : cs = n.children := eq_of_numbers_inline hcs (allOf_isInline hbelow (hn.inline h))
  rw [heq, Node.eta, Node.setSectionNumber_of_fresh h hn]

/-! ## Statements -/

theorem id_setStatementNumber (n : Node) (number : String) :
    (n.setStatementNumber number).attr? "id" = some number := by
  simp [Node.setStatementNumber, Node.setAttr, Node.attr?]

/-! ## Both walks -/

/-- Every heading among the first nodes has the title of a heading among the others, both before
references are resolved and afterwards. -/
def TitlesFrom (labels : Dict Target) (fileId : Nat) (ms ns : List Node) : Prop :=
  ∀ h ∈ ms, h.headingLevel?.isSome = true → ∃ k ∈ ns, k.headingLevel?.isSome = true ∧
    h.headingTitle = k.headingTitle ∧
    (resolveNode labels fileId h).1.headingTitle = (resolveNode labels fileId k).1.headingTitle

/-- The section as it is numbered with some children, and then with others in their place. -/
def Node.settledSection (n : Node) (before after : List Node) : Node :=
  { Node.refreshSection { n with children := before } with children := after }

section SettledSection

variable (n : Node) (before after : List Node)

@[simp] theorem Node.tag_settledSection : (n.settledSection before after).tag = n.tag :=
  Node.tag_refreshSection _

@[simp] theorem Node.id_settledSection :
    (n.settledSection before after).attr? "id" = n.attr? "id" :=
  Node.id_refreshSection _

@[simp] theorem Node.children_settledSection : (n.settledSection before after).children = after :=
  rfl

end SettledSection

/-- Numbering and then resolving references takes fresh nodes in a state to nodes and the state
behind them. There is one rule for each kind of node. A section takes the title of its heading
before references are resolved, when its children are those in `before`. -/
inductive Settles (o : NumberingOptions) (labels : Dict Target) (fileId : Nat) :
    List (Option Target) → Numbering → List Node → List Node → Numbering → Prop
  | nil {enclosing s} : Settles o labels fileId enclosing s [] [] s
  | heading {enclosing s s₁ s₂ n ns ms level} (fresh : Fresh n) (tag : n.tag = .heading level)
      (below : Settles o labels fileId enclosing (s.pass o (.heading level n.headingTitle))
        n.children (resolveNodes labels fileId n.children).1 s₁)
      (behind : Settles o labels fileId enclosing s₁ ns ms s₂) :
      Settles o labels fileId enclosing s (n :: ns)
        (n.numberedHeading (dotted (Numbering.nextComponents s.components level))
          (resolveNodes labels fileId n.children).1 :: ms) s₂
  | numbered {enclosing s s₁ s₂ n cs ns ms st st'} (fresh : Fresh n) (tag : n.tag = .block st)
      (restrict : st.restrict o (holdLabel n.children) = st') (isNumbered : st'.numbered = true)
      (below : Settles o labels fileId (some (s.statementTarget o st'.kind) :: enclosing)
        (s.pass o (.statement st'.kind)) n.children cs s₁)
      (behind : Settles o labels fileId enclosing s₁ ns ms s₂) :
      Settles o labels fileId enclosing s (n :: ns)
        (Node.setStatementNumber (dotted (s.statementComponents o st'.kind))
          { n with tag := .block st', children := cs } :: ms) s₂
  | unnumbered {enclosing s s₁ s₂ n cs ns ms st st'} (fresh : Fresh n) (tag : n.tag = .block st)
      (restrict : st.restrict o (holdLabel n.children) = st') (notNumbered : st'.numbered = false)
      (below : Settles o labels fileId (none :: enclosing) s n.children cs s₁)
      (behind : Settles o labels fileId enclosing s₁ ns ms s₂) :
      Settles o labels fileId enclosing s (n :: ns)
        (Node.clearAnchor { n with tag := .block st', children := cs } :: ms) s₂
  | place {enclosing s s₁ n ns ms} (fresh : Fresh n) (tag : n.tag = .span .blockNumber)
      (behind : Settles o labels fileId enclosing s ns ms s₁) :
      Settles o labels fileId enclosing s (n :: ns) (n.setText (shownNumber enclosing) :: ms) s₁
  | label {enclosing s s₁ n ns ms} (fresh : Fresh n) (tag : n.tag = .label)
      (behind : Settles o labels fileId enclosing (s.recordLabel enclosing n) ns ms s₁) :
      Settles o labels fileId enclosing s (n :: ns) (n :: ms) s₁
  | reference {enclosing s s₁ n ns ms} (fresh : Fresh n) (tag : n.tag = .reference)
      (behind : Settles o labels fileId enclosing s ns ms s₁) :
      Settles o labels fileId enclosing s (n :: ns)
        ({ n with children := [numberSpan (labels.get? n.key)] } :: ms) s₁
  | section {enclosing s s₁ s₂ n before ns ms} (fresh : Fresh n) (tag : n.tag = .section)
      (titles : TitlesFrom labels fileId before n.children)
      (below : Settles o labels fileId enclosing s n.children
        (resolveNodes labels fileId before).1 s₁)
      (behind : Settles o labels fileId enclosing s₁ ns ms s₂) :
      Settles o labels fileId enclosing s (n :: ns)
        (n.settledSection before (resolveNodes labels fileId before).1 :: ms) s₂
  | plain {enclosing s s₁ s₂ n cs ns ms} (fresh : Fresh n) (tag : n.tag.isPlain = true)
      (notReference : n.tag ≠ .reference)
      (below : Settles o labels fileId enclosing s n.children cs s₁)
      (behind : Settles o labels fileId enclosing s₁ ns ms s₂) :
      Settles o labels fileId enclosing s (n :: ns) ({ n with children := cs } :: ms) s₂

theorem Node.headingTitle_numberedHeading (n : Node) (number : String) (cs : List Node) :
    (n.numberedHeading number cs).headingTitle = ({ n with children := cs } : Node).headingTitle := by
  show Text.trimString ("" ++ ("" ++ n.text ++ titleWords cs)) =
    Text.trimString (n.text ++ titleWords cs)
  rw [String.empty_append, String.empty_append]

theorem Node.isSome_headingLevel? {n : Node} :
    n.headingLevel?.isSome = true ↔ ∃ level, n.tag = .heading level := by
  simp only [Option.isSome_iff_exists, headingLevel?_eq_some_iff]

section Settled

variable {labels : Dict Target} {fileId : Nat} {o : NumberingOptions}
  {enclosing : List (Option Target)} {s s' : Numbering} {ns ms : List Node}

theorem TitlesFrom.cons {n m : Node} (h : TitlesFrom labels fileId ms ns)
    (hm : m.headingLevel?.isSome = true → n.headingLevel?.isSome = true ∧
      m.headingTitle = n.headingTitle ∧
      (resolveNode labels fileId m).1.headingTitle = (resolveNode labels fileId n).1.headingTitle) :
    TitlesFrom labels fileId (m :: ms) (n :: ns) := by
  intro k hk hlevel
  rcases List.mem_cons.1 hk with rfl | hk
  · exact ⟨n, List.mem_cons_self, hm hlevel⟩
  · obtain ⟨k', hk', htitles⟩ := h k hk hlevel
    exact ⟨k', List.mem_cons_of_mem n hk', htitles⟩

/-- A node that is no heading is passed over. -/
theorem TitlesFrom.cons_of_ne {m : Node} (h : TitlesFrom labels fileId ms ns)
    (hm : ∀ level, m.tag ≠ .heading level) (n : Node) :
    TitlesFrom labels fileId (m :: ms) (n :: ns) := by
  refine h.cons fun hlevel => ?_
  obtain ⟨level, htag⟩ := Node.isSome_headingLevel?.1 hlevel
  exact absurd htag (hm level)

/-- Numbered headings keep their titles. -/
theorem titlesFrom_of_numbers (h : Numbers o enclosing s ns ms s') (hfresh : AllOf Fresh ns) :
    TitlesFrom labels fileId ms ns := by
  induction h with
  | nil => nofun
  | @heading _ s _ _ n cs _ _ level tag hbelow _ _ behind =>
    rw [Node.allOf_cons] at hfresh
    obtain ⟨hn, hchildren, hns⟩ := hfresh
    rw [hn.heading_of_numbers hchildren (by rw [tag]; rfl) hbelow]
    refine (behind hns).cons fun _ => ⟨Node.isSome_headingLevel?.2 ⟨level, tag⟩, ?_, ?_⟩
    · rw [Node.headingTitle_numberedHeading, Node.eta]
    · rw [resolveNode_numberedHeading (by simp [tag]), Node.headingTitle_numberedHeading,
        resolveNode_of_ne (by simp [tag])]
  | «section» tag _ _ _ behind =>
    rw [Node.allOf_cons] at hfresh
    exact (behind hfresh.2.2).cons_of_ne (by simp [tag]) _
  | plain tag _ _ _ behind =>
    rw [Node.allOf_cons] at hfresh
    refine (behind hfresh.2.2).cons_of_ne ?_ _
    exact (Tag.ne_of_isPlain tag).1
  | place tag _ behind | label tag _ behind =>
    rw [Node.allOf_cons] at hfresh
    exact (behind hfresh.2.2).cons_of_ne (by simp [Node.setText, tag]) _
  | numbered _ _ _ _ _ _ behind | unnumbered _ _ _ _ _ _ behind =>
    rw [Node.allOf_cons] at hfresh
    exact (behind hfresh.2.2).cons_of_ne
      (by simp [Node.setStatementNumber, Node.setAttr, Node.clearAnchor]) _

/-- Both walks over a fresh tree follow the rules. -/
theorem settles_of_numbers (h : Numbers o enclosing s ns ms s') (hfresh : AllOf Fresh ns) :
    Settles o labels fileId enclosing s ns (resolveNodes labels fileId ms).1 s' := by
  induction h with
  | nil => exact .nil
  | @heading _ _ _ _ n cs _ _ level tag hbelow _ below behind =>
    rw [Node.allOf_cons] at hfresh
    obtain ⟨hn, hchildren, hns⟩ := hfresh
    have hinline : n.tag.holdsInline = true := by rw [tag]; rfl
    -- a heading holds running text, which the first walk leaves alone
    have hcs : cs = n.children :=
      eq_of_numbers_inline hbelow (allOf_isInline hchildren (hn.inline hinline))
    rw [hn.heading_of_numbers hchildren hinline hbelow, resolveNodes_cons,
      resolveNode_numberedHeading (by simp [tag])]
    exact .heading hn tag (hcs ▸ below hchildren) (behind hns)
  | numbered tag restrict isNumbered _ _ below behind =>
    rw [Node.allOf_cons] at hfresh
    rw [resolveNodes_cons, resolveNode_of_ne (by simp [Node.setStatementNumber, Node.setAttr])]
    exact .numbered hfresh.1 tag restrict isNumbered (below hfresh.2.1) (behind hfresh.2.2)
  | unnumbered tag restrict notNumbered _ _ below behind =>
    rw [Node.allOf_cons] at hfresh
    rw [resolveNodes_cons, resolveNode_of_ne (by simp [Node.clearAnchor])]
    exact .unnumbered hfresh.1 tag restrict notNumbered (below hfresh.2.1) (behind hfresh.2.2)
  | @place enclosing _ _ n _ _ tag _ behind =>
    rw [Node.allOf_cons] at hfresh
    -- below a place there is no reference that could be resolved
    have hnil : n.children = [] := hfresh.1.children_eq_nil (.inr tag)
    rw [resolveNodes_cons, resolveNode_of_children_nil (n := n.setText (shownNumber enclosing))
      (by simp [Node.setText, tag]) hnil]
    exact .place hfresh.1 tag (behind hfresh.2.2)
  | @label _ _ _ n _ _ tag _ behind =>
    rw [Node.allOf_cons] at hfresh
    have hnil : n.children = [] := hfresh.1.children_eq_nil (.inl tag)
    rw [resolveNodes_cons, resolveNode_of_children_nil (by simp [tag]) hnil]
    exact .label hfresh.1 tag (behind hfresh.2.2)
  | «section» tag hbelow _ below behind =>
    rw [Node.allOf_cons] at hfresh
    rw [resolveNodes_cons, resolveNode_of_ne (by simp [tag]), Node.children_refreshSection]
    exact .section hfresh.1 tag (titlesFrom_of_numbers hbelow hfresh.2.1) (below hfresh.2.1)
      (behind hfresh.2.2)
  | @plain _ _ _ _ n cs _ _ tag hbelow _ below behind =>
    rw [Node.allOf_cons] at hfresh
    obtain ⟨hn, hchildren, hns⟩ := hfresh
    -- among the plain nodes references are the ones that the second walk changes
    by_cases href : n.tag = .reference
    · have hnil : n.children = [] := hn.leaf (by rw [href]; rfl)
      rw [hnil] at hbelow
      cases hbelow
      rw [resolveNodes_cons, resolveNode_reference (by simp [href])]
      exact .reference hn href (behind hns)
    · rw [resolveNodes_cons, resolveNode_of_ne (n := { n with children := cs }) href]
      exact .plain hn tag href (below hchildren) (behind hns)

/-- Numbering counts the landmarks and nothing else. -/
theorem counters_of_settles (h : Settles o labels fileId enclosing s ns ms s') :
    s'.counters = (landmarks o Node.headingTitle ns).foldl (Numbering.pass o) s.counters := by
  induction h with
  | nil => rfl
  | heading _ tag _ _ below behind =>
    rw [landmarks_cons_of_some (landmark?_heading tag), List.foldl_cons, List.foldl_append,
      ← Numbering.counters_pass, ← below, ← behind]
  | numbered _ tag restrict isNumbered _ _ below behind =>
    rw [landmarks_cons_of_some (landmark?_numbered tag restrict isNumbered), List.foldl_cons,
      List.foldl_append, ← Numbering.counters_pass, ← below, ← behind]
  | unnumbered _ tag restrict notNumbered _ _ below behind =>
    rw [landmarks_cons_of_none (landmark?_unnumbered tag restrict notNumbered),
      List.foldl_append, ← below, ← behind]
  | place fresh tag _ behind =>
    rw [landmarks_cons_of_leaf (fresh.children_eq_nil (.inr tag)) (by simp [tag]) (by simp [tag]),
      behind]
  | label fresh tag _ behind =>
    rw [landmarks_cons_of_leaf (fresh.children_eq_nil (.inl tag)) (by simp [tag]) (by simp [tag]),
      behind, Numbering.counters_recordLabel]
  | reference fresh tag _ behind =>
    rw [landmarks_cons_of_leaf (fresh.leaf (by rw [tag]; rfl)) (by simp [tag]) (by simp [tag]),
      behind]
  | «section» _ tag _ _ _ below behind =>
    rw [landmarks_cons_of_none (landmark?_of_ne (by simp [tag]) (by simp [tag])),
      List.foldl_append, ← below, ← behind]
  | plain _ tag _ _ _ below behind =>
    rw [landmarks_cons_of_none (landmark?_plain tag), List.foldl_append, ← below, ← behind]

/-- The numbers of landmarks behind nodes are given in the state behind these. -/
theorem given_of_settles (h : Settles o labels fileId enclosing s ns ms s')
    (ls : List Landmark) :
    Numbering.given o s (landmarks o Node.headingTitle ns ++ ls) =
      Numbering.given o s (landmarks o Node.headingTitle ns) ++ Numbering.given o s' ls := by
  rw [← Numbering.given_counters o s, ← Numbering.given_counters o s, Numbering.given_append,
    ← counters_of_settles h, Numbering.given_counters o s']

end Settled

/-! ## Documents -/

section Document

variable (o : NumberingOptions) (fileId : Nat) {root : Node} (hfresh : AllOf Fresh [root])

/-- The numbers given to the headings and statements of a document. -/
def givenNumbers (o : NumberingOptions) (root : Node) : List GivenNumber :=
  Numbering.given o (.initial o) (landmarks o Node.headingTitle root.children)

include hfresh

/-- Both walks over a fresh document. -/
theorem settles_resolve :
    Settles o (resolve o fileId root).labels fileId [] (.initial o) root.children
      (resolve o fileId root).root.children (numberDocument o root).2 :=
  settles_of_numbers (numbers_numberNodes o [] root.children (.initial o))
    ((Node.allOf_cons _ _).1 hfresh).2.1

/-- The table of contents is that of the headings. -/
theorem contents_resolve :
    (resolve o fileId root).contents =
      ((landmarks o Node.headingTitle root.children).foldl (Numbering.pass o)
        (.initial o)).contents := by
  have hcounters := counters_of_settles (settles_resolve o fileId hfresh)
  show (numberDocument o root).2.counters.contents = _
  rw [hcounters]
  rfl

end Document

end Treatise
