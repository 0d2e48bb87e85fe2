import Treatise.Proofs.Numbering.Keeps

/-!
# The words of a document without its numbers

Numbers are shown in spans that numbering makes and fills. Whoever leaves these out reads the same
words and finds the same nodes before and after a document is numbered and its references are
resolved, whether it had numbers before or not.

* **`Node.ownText`**, **`Node.ownTags`** — the words of a tree, and the tags in it, without the spans
  that show numbers; the words behind such a span are not left out. Where there are no such spans
  these are all words (`Node.ownTextOf_of_no_number`).
* **`SameOwn`** — two forests that say and hold the same but for numbers. Each step of the two walks
  keeps it (`sameOwn_of_numbers`, `sameOwn_resolveNodes`).
* **`ownText_ownTags_resolve`** — and so does the whole of `resolve`.
-/

namespace Treatise

open Node (AllOf)

/-! ## What is left without numbers -/

/-- The tag of a span that shows a number. -/
def Tag.isNumber : Tag → Bool
  | span .sectionNumber | span .blockNumber | span .referenceNumber => true
  | _ => false

/-- The tag, if it does not matter whether a statement is numbered. -/
def Tag.unnumbered : Tag → Tag
  | block st => block { st with numbered := false }
  | tag => tag

@[simp] theorem Tag.isNumber_unnumbered (tag : Tag) : tag.unnumbered.isNumber = tag.isNumber := by
  cases tag <;> rfl

/-- The options decide about nothing but whether a statement is numbered. -/
theorem Tag.unnumbered_restrict (o : NumberingOptions) (labeled : Bool) (st : Statement) :
    (block (st.restrict o labeled)).unnumbered = (block st).unnumbered := by
  unfold Statement.restrict
  split <;> rfl

namespace Node

mutual

/-- The words of a node's content without its numbers, and without its own tail. -/
def ownText : Node → String
  | ⟨_, _, _, text, _, children⟩ => text ++ ownTextOf children

/-- The words of nodes that follow each other without the numbers, but with all tails. -/
def ownTextOf : List Node → String
  | [] => ""
  | n :: ns => (if n.tag.isNumber then "" else n.ownText) ++ n.tail ++ ownTextOf ns

end

mutual

/-- The tags of a node and of what is in it without its numbers, in document order. -/
def ownTags : Node → List Tag
  | ⟨tag, _, _, _, _, children⟩ => tag.unnumbered :: ownTagsOf children

/-- The tags of nodes that follow each other, and of what is in them, without the numbers. -/
def ownTagsOf : List Node → List Tag
  | [] => []
  | n :: ns => (if n.tag.isNumber then [] else n.ownTags) ++ ownTagsOf ns

end

theorem ownText_eq (n : Node) : n.ownText = n.text ++ ownTextOf n.children := by
  cases n
  rfl

theorem ownTags_eq (n : Node) : n.ownTags = n.tag.unnumbered :: ownTagsOf n.children := by
  cases n
  rfl

theorem ownTextOf_singleton (n : Node) :
    ownTextOf [n] = (if n.tag.isNumber then "" else n.ownText) ++ n.tail := by
  rw [ownTextOf, ownTextOf, String.append_empty]

theorem ownTagsOf_singleton (n : Node) :
    ownTagsOf [n] = if n.tag.isNumber then [] else n.ownTags := by
  rw [ownTagsOf, ownTagsOf, List.append_nil]

theorem ownTextOf_append (ns ms : List Node) :
    ownTextOf (ns ++ ms) = ownTextOf ns ++ ownTextOf ms := by
  induction ns with
  | nil => exact String.empty_append.symm
  | cons n ns ih => simp only [List.cons_append, ownTextOf, ih, String.append_assoc]

theorem ownTagsOf_append (ns ms : List Node) :
    ownTagsOf (ns ++ ms) = ownTagsOf ns ++ ownTagsOf ms := by
  induction ns with
  | nil => rfl
  | cons n ns ih => rw [List.cons_append, ownTagsOf, ownTagsOf, ih, List.append_assoc]

/-- Where there are no numbers, all words are left. -/
theorem ownTextOf_of_no_number {ns : List Node} (h : AllOf (·.tag.isNumber = false) ns) :
    ownTextOf ns = textContentOf ns := by
  induction ns using forest_induction with
  | nil => rfl
  | cons n ns below behind =>
    obtain ⟨hn, hbelow, hns⟩ := (allOf_cons n ns).1 h
    rw [ownTextOf, textContentOf, if_neg (by simp [hn]), ownText_eq, textContent_eq, below hbelow,
      behind hns]

end Node

open Node (ownTextOf ownTagsOf)

/-- The nodes of both forests are the same and say the same, if numbers do not count. -/
structure SameOwn (ns ms : List Node) : Prop where
  text : ownTextOf ms = ownTextOf ns
  tags : ownTagsOf ms = ownTagsOf ns

namespace SameOwn

variable {n m : Node} {ns ms ns' ms' ks : List Node}

theorem refl (ns : List Node) : SameOwn ns ns := ⟨rfl, rfl⟩

theorem symm (h : SameOwn ns ms) : SameOwn ms ns := ⟨h.text.symm, h.tags.symm⟩

theorem trans (h : SameOwn ns ms) (h' : SameOwn ms ks) : SameOwn ns ks :=
  ⟨h'.text.trans h.text, h'.tags.trans h.tags⟩

theorem append (h : SameOwn ns ms) (h' : SameOwn ns' ms') : SameOwn (ns ++ ns') (ms ++ ms') where
  text := by rw [Node.ownTextOf_append, Node.ownTextOf_append, h.text, h'.text]
  tags := by rw [Node.ownTagsOf_append, Node.ownTagsOf_append, h.tags, h'.tags]

theorem cons (h : SameOwn [n] [m]) (h' : SameOwn ns ms) : SameOwn (n :: ns) (m :: ms) := h.append h'

/-- What a number shows does not count. -/
theorem number (hn : n.tag.isNumber = true) (htag : m.tag = n.tag) (htail : m.tail = n.tail) :
    SameOwn [n] [m] := by
  have hm : m.tag.isNumber = true := by rw [htag, hn]
  constructor
  · rw [Node.ownTextOf_singleton, Node.ownTextOf_singleton, if_pos hn, if_pos hm, htail]
  · rw [Node.ownTagsOf_singleton, Node.ownTagsOf_singleton, if_pos hn, if_pos hm]

/-- Nor does the number itself, if there are no words behind it. -/
theorem number_nil (hn : n.tag.isNumber = true) (htail : n.tail = "") : SameOwn [n] [] := by
  constructor
  · rw [Node.ownTextOf_singleton, if_pos hn, htail]
    rfl
  · rw [Node.ownTagsOf_singleton, if_pos hn]
    rfl

/-- Nodes that say the same in front of the same tail. -/
theorem node (htag : m.tag.unnumbered = n.tag.unnumbered) (htail : m.tail = n.tail)
    (htext : m.ownText = n.ownText) (htags : ownTagsOf m.children = ownTagsOf n.children) :
    SameOwn [n] [m] := by
  have hnumber : m.tag.isNumber = n.tag.isNumber := by
    rw [← m.tag.isNumber_unnumbered, htag, n.tag.isNumber_unnumbered]
  have htags' : m.ownTags = n.ownTags := by rw [Node.ownTags_eq, Node.ownTags_eq, htag, htags]
  constructor
  · rw [Node.ownTextOf_singleton, Node.ownTextOf_singleton, hnumber, htail, htext]
  · rw [Node.ownTagsOf_singleton, Node.ownTagsOf_singleton, hnumber, htags']

/-- A node changes no words of its own if its children do not. -/
theorem children (htag : m.tag.unnumbered = n.tag.unnumbered) (htail : m.tail = n.tail)
    (htext : m.text = n.text) (h : SameOwn n.children m.children) : SameOwn [n] [m] :=
  node htag htail (by rw [Node.ownText_eq, Node.ownText_eq, htext, h.text]) h.tags

end SameOwn

/-! ## Numbering -/

/-- The number of a heading takes the words of the heading away and has them behind it. -/
theorem sameOwn_setSectionNumber (number : String) (n : Node) :
    SameOwn [n] [n.setSectionNumber number] := by
  unfold Node.setSectionNumber
  split
  · refine .children rfl rfl rfl ?_
    show SameOwn n.children (Node.modifyFirst _ _ n.children)
    induction n.children with
    | nil => exact .refl []
    | cons c cs ih =>
      unfold Node.modifyFirst
      split
      · next hc =>
        have htag : c.tag.isNumber = true := by rw [of_decide_eq_true hc]; rfl
        exact .cons (.number htag rfl rfl) (.refl cs)
      · exact .cons (.refl [c]) ih
  · refine .node rfl rfl ?_ rfl
    rw [Node.ownText_eq, Node.ownText_eq]
    show "" ++ ("" ++ n.text ++ ownTextOf n.children) = _
    rw [String.empty_append, String.empty_append]

/-- Numbering makes no words but numbers, and moves none to another place. -/
theorem sameOwn_of_numbers {o : NumberingOptions} {enclosing : List (Option Target)}
    {s s' : Numbering} {ns ms : List Node} (h : Numbers o enclosing s ns ms s') :
    SameOwn ns ms := by
  induction h with
  | nil => exact .refl []
  | @heading _ _ _ _ n cs _ _ _ _ _ _ below behind =>
    have hn : SameOwn [n] [{ n with children := cs }] := .children rfl rfl rfl below
    exact .cons (hn.trans (sameOwn_setSectionNumber _ _)) behind
  | numbered tag restrict _ _ _ below behind | unnumbered tag restrict _ _ _ below behind =>
    refine .cons (.children ?_ rfl rfl below) behind
    rw [tag, ← Tag.unnumbered_restrict, restrict]
    rfl
  | place tag _ behind => exact .cons (.number (by rw [tag]; rfl) rfl rfl) behind
  | label _ _ behind => exact .cons (.refl _) behind
  | «section» _ _ _ below behind =>
    rw [Node.refreshSection_eq]
    exact .cons (.children rfl rfl rfl below) behind
  | plain _ _ _ below behind => exact .cons (.children rfl rfl rfl below) behind

/-! ## Resolving -/

/-- No words stand behind the numbers of references. -/
def ReferencesBare (ns : List Node) : Prop :=
  AllOf (fun n => n.tag = .span .referenceNumber → n.tail = "") ns

theorem referencesBare_of_numbers {o : NumberingOptions} {enclosing : List (Option Target)}
    {s s' : Numbering} {ns ms : List Node} (h : Numbers o enclosing s ns ms s')
    (hns : ReferencesBare ns) : ReferencesBare ms :=
  allOf_tag_tail_of_numbers (p := fun tag tail => tag = .span .referenceNumber → tail = "")
    (fun _ _ _ _ => nofun) (fun _ _ _ _ => nofun) h hns

/-- Of the children of a reference only numbers go. -/
theorem sameOwn_filter {cs : List Node} (h : ReferencesBare cs) :
    SameOwn cs (cs.filter (!·.hasRole .referenceNumber)) := by
  induction cs with
  | nil => exact .refl []
  | cons c cs ih =>
    obtain ⟨hc, -, hcs⟩ := (Node.allOf_cons _ _).1 h
    rw [List.filter_cons]
    split
    · exact .cons (.refl [c]) (ih hcs)
    · next hrole =>
      have htag : c.tag = .span .referenceNumber := by simpa [Node.hasRole] using hrole
      exact .append (.number_nil (by rw [htag]; rfl) (hc htag)) (ih hcs)

theorem sameOwn_resolveReference (labels : Dict Target) (fileId : Nat) {n : Node}
    (h : ReferencesBare n.children) : SameOwn [n] [(resolveReference labels fileId n).1] := by
  refine .children rfl rfl rfl ?_
  have hnew : SameOwn [] [numberSpan (labels.get? n.key)] :=
    (SameOwn.number_nil (by rw [tag_numberSpan]; rfl) (tail_numberSpan _)).symm
  rw [← List.append_nil n.children]
  exact (sameOwn_filter h).append hnew

/-- Resolving makes no words but numbers, and takes none but numbers away. -/
theorem sameOwn_resolveNodes (labels : Dict Target) (fileId : Nat) {ns : List Node}
    (h : ReferencesBare ns) : SameOwn ns (resolveNodes labels fileId ns).1 := by
  induction ns using Node.forest_induction with
  | nil => exact .refl []
  | cons n ns below behind =>
    obtain ⟨-, hchildren, hns⟩ := (Node.allOf_cons _ _).1 h
    rw [resolveNodes_cons]
    refine .cons ?_ (behind hns)
    by_cases href : n.tag = .reference
    · rw [resolveNode_reference href]
      exact sameOwn_resolveReference labels fileId hchildren
    · rw [resolveNode_of_ne href]
      exact .children rfl rfl rfl (below hchildren)

/-- Numbering a document and resolving its references changes nothing but numbers: what is left
without these says the same, and has the same nodes, in the same order. -/
theorem ownText_ownTags_resolve (o : NumberingOptions) (fileId : Nat) {root : Node}
    (h : AllOf (fun n => n.tag = .span .referenceNumber → n.tail = "") root.children) :
    (resolve o fileId root).root.ownText = root.ownText ∧
      (resolve o fileId root).root.ownTags = root.ownTags := by
  have hnumbers := numbers_numberNodes o [] root.children (.initial o)
  have hsame : SameOwn root.children (resolve o fileId root).root.children :=
    (sameOwn_of_numbers hnumbers).trans
      (sameOwn_resolveNodes _ fileId (referencesBare_of_numbers hnumbers h))
  rw [Node.ownText_eq, Node.ownText_eq, Node.ownTags_eq, Node.ownTags_eq, hsame.text, hsame.tags]
  exact ⟨rfl, rfl⟩

/-- A heading that has a reference in it is numbered for the first time, and the reference, which had
a number, for the second time. -/
theorem ownText_ownTags_resolve_of_heading :
    let reference : Node := { Node.ofTag .reference with
      tail := "again", children := [numberSpan none] }
    let root : Node := { Node.ofTag .root with
      children := [{ Node.ofTag (.heading 1) with text := "See ", children := [reference] }] }
    AllOf (fun n => n.tag = .span .referenceNumber → n.tail = "") root.children ∧
      (resolve {} 0 root).root.ownText = "See again" ∧
        (resolve {} 0 root).root.ownTags = [.root, .heading 1, .reference] := by
  intro reference root
  have hroot : AllOf (fun n => n.tag = .span .referenceNumber → n.tail = "") root.children := by
    unfold AllOf
    decide
  obtain ⟨htext, htags⟩ := ownText_ownTags_resolve {} 0 hroot
  exact ⟨hroot, htext, htags⟩

end Treatise
