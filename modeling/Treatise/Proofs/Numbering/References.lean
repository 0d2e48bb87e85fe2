import Treatise.Proofs.Numbering.Keeps
import Treatise.Proofs.Numbering.Targets
import Treatise.Proofs.Tree.Reading

/-!
# What references show

All labels are known before the first reference is resolved, so that it does not matter whether a
label stands before the reference to it or behind.

* **`Node.ShowsTarget`** — a reference that shows what its key points to.
* **`snd_resolveNodes`** — resolving issues a warning for each reference to an unknown label, in
  document order.
* **`references_show_targets`** — both for every document.
-/

namespace Treatise

open Node (Fresh AllOf descendantsOf)

/-! ## References of a resolved tree -/

namespace Node

/-- The key of a reference. -/
def referenceKey? (n : Node) : Option String := if n.tag = .reference then some n.key else none

/-- The node has one number of a reference, which says and links to what the target is, or is a mark
without a link. -/
def ShowsTarget (n : Node) (target : Option Target) : Prop :=
  ∃ c, n.children.filter (·.hasRole .referenceNumber) = [c] ∧
    match target with
    | some t => c.textContent = t.number ∧ c.attr? "href" = some ("#" ++ t.anchor)
    | none => c.textContent = "??" ∧ c.attr? "href" = none

/-- The node is a reference to a label that is not known. -/
def isUnresolved (labels : Dict Target) (n : Node) : Bool :=
  n.tag == .reference && (labels.get? n.key).isNone

/-- The warning for a reference to an unknown label. -/
def unresolvedIssue (fileId : Nat) (n : Node) : Issue :=
  ⟨.unresolvedReference n.key, none, fileId, []⟩

end Node

/-- The warnings for the references to unknown labels among the nodes, in their order. -/
def unresolvedIssues (labels : Dict Target) (fileId : Nat) (ns : List Node) : List Issue :=
  (ns.filter (·.isUnresolved labels)).map (·.unresolvedIssue fileId)

section Resolve

variable {labels : Dict Target} {fileId : Nat} {n : Node} {ns : List Node}

theorem showsTarget_of_children {target : Option Target} (h : n.children = [numberSpan target]) :
    n.ShowsTarget target := by
  have hrole : (numberSpan target).hasRole .referenceNumber = true := by simp [Node.hasRole]
  have htext : (numberSpan target).textContent = (numberSpan target).text := by
    rw [Node.textContent_eq, children_numberSpan]
    exact String.append_empty
  refine ⟨numberSpan target, ?_, ?_⟩
  · rw [h, List.filter_cons_of_pos (by exact hrole), List.filter_nil]
  · cases target with
    | none => exact ⟨htext, rfl⟩
    | some t =>
      refine ⟨htext, ?_⟩
      show ((Node.span .referenceNumber).attrs.insert "href" ("#" ++ t.anchor)).get? "href" = _
      rw [Dict.get?_insert, if_pos rfl]

theorem unresolvedIssues_append (ns ms : List Node) :
    unresolvedIssues labels fileId (ns ++ ms) =
      unresolvedIssues labels fileId ns ++ unresolvedIssues labels fileId ms := by
  rw [unresolvedIssues, List.filter_append, List.map_append]
  rfl

theorem unresolvedIssues_cons (n : Node) (ns : List Node) :
    unresolvedIssues labels fileId (n :: ns) =
      unresolvedIssues labels fileId [n] ++ unresolvedIssues labels fileId ns :=
  unresolvedIssues_append [n] ns

theorem unresolvedIssues_cons_of_ne (h : n.tag ≠ .reference) :
    unresolvedIssues labels fileId (n :: ns) = unresolvedIssues labels fileId ns := by
  rw [unresolvedIssues, List.filter_cons_of_neg (by simp [Node.isUnresolved, h])]
  rfl

theorem snd_resolveNode_of_reference (h : n.tag = .reference) :
    (resolveNode labels fileId n).2 =
      unresolvedIssues labels fileId [(resolveNode labels fileId n).1] := by
  have htag : (resolveReference labels fileId n).1.tag = .reference := h
  have hkey : (resolveReference labels fileId n).1.key = n.key := rfl
  rw [resolveNode_reference h]
  show (if (labels.get? n.key).isSome then [] else [n.unresolvedIssue fileId]) = _
  cases hlabel : labels.get? n.key <;>
    simp [unresolvedIssues, Node.isUnresolved, Node.unresolvedIssue, htag, hkey, hlabel]

/-- Resolving issues the warnings for the references of the tree that it makes. -/
theorem snd_resolveNodes (h : AllOf (Node.Resolved labels) (resolveNodes labels fileId ns).1) :
    (resolveNodes labels fileId ns).2 =
      unresolvedIssues labels fileId (descendantsOf (resolveNodes labels fileId ns).1) := by
  induction ns using Node.forest_induction with
  | nil => rfl
  | cons n ns below behind =>
    rw [resolveNodes_cons] at h ⊢
    obtain ⟨hn, hbelow, hbehind⟩ := (Node.allOf_cons _ _).1 h
    have hbehind := behind hbehind
    by_cases htag : n.tag = .reference
    · have hchildren := hn.reference (by rw [tag_resolveNode, htag])
      -- what a reference shows is no reference
      have hspan (target : Option Target) :
          unresolvedIssues labels fileId (descendantsOf [numberSpan target]) = [] := by
        rw [Node.descendantsOf_cons, children_numberSpan, unresolvedIssues_cons_of_ne (by simp)]
        rfl
      rw [Node.descendantsOf_cons, unresolvedIssues_cons, unresolvedIssues_append, hchildren, hspan,
        List.nil_append, ← snd_resolveNode_of_reference htag, ← hbehind]
    · rw [children_resolveNode_of_ne htag] at hbelow
      rw [Node.descendantsOf_cons, children_resolveNode_of_ne htag,
        unresolvedIssues_cons_of_ne (by rwa [tag_resolveNode]), unresolvedIssues_append,
        ← below hbelow, ← hbehind, snd_resolveNode_of_ne htag]

end Resolve

/-! ## Documents -/

/-- The references of the resolved tree are those of the tree that was read. -/
theorem referenceKeys_resolve (o : NumberingOptions) (fileId : Nat) {root : Node}
    (hfresh : AllOf Fresh [root]) :
    (resolve o fileId root).root.descendants.filterMap (·.referenceKey?) =
      root.descendants.filterMap (·.referenceKey?) := by
  rw [Node.descendants_eq, Node.descendants_eq]
  refine filterMap_of_settles (settles_resolve o fileId hfresh) (fun n m htag hattrs => ?_)
    fun n hleaf => ?_
  · rw [Node.referenceKey?, Node.referenceKey?, htag, Node.key, Node.key, Node.attr?, Node.attr?,
      hattrs]
  · rw [Node.referenceKey?, if_neg]
    intro htag
    rw [htag] at hleaf
    cases hleaf

/-- Every reference of a document has one number, that of what the last label with its key points
to, or a mark if there is no such label. For each of the latter there is one warning, in document
order, and there are no others. -/
theorem references_show_targets (source : List Char) (fileId resolverId : Nat) (sections : Bool)
    (o : NumberingOptions) :
    let tree := (Document.parse source fileId).tree sections
    let r := resolve o resolverId tree
    r.root.descendants.filterMap (·.referenceKey?) = tree.descendants.filterMap (·.referenceKey?) ∧
      (∀ n ∈ r.root.descendants, n.tag = .reference → n.ShowsTarget (r.labels.get? n.key)) ∧
      r.issues = (r.root.descendants.filter fun n =>
          n.tag == .reference && (r.labels.get? n.key).isNone).map fun n =>
        ⟨.unresolvedReference n.key, none, resolverId, []⟩ := by
  intro tree r
  have hfresh : AllOf Fresh [tree] := fresh_tree source fileId sections
  have hresolved : AllOf (Node.Resolved r.labels) r.root.children :=
    resolved_resolve o resolverId hfresh
  refine ⟨referenceKeys_resolve o resolverId hfresh, fun n hn htag => ?_, ?_⟩
  · rw [Node.descendants_eq] at hn
    exact showsTarget_of_children ((hresolved n hn).reference htag)
  · rw [Node.descendants_eq]
    exact snd_resolveNodes hresolved

/-- The first reference shows the number of the lemma that comes later. The second one has no label,
so that it shows a mark, and there is a warning for it. -/
theorem references_show_targets_of_later_label :
    let r := resolve {} 0
      ((Document.parse "See {ref: #a} and {ref: #b}.\n\n{#a} Lemma: L. {}".toList 0).tree true)
    r.root.descendants.filterMap (·.referenceKey?) = ["a", "b"] ∧
      (∀ n ∈ r.root.descendants, n.tag = .reference →
        (n.key = "a" → n.ShowsTarget (some ⟨"0.1", "0.1"⟩)) ∧ (n.key = "b" → n.ShowsTarget none)) ∧
      r.issues = [⟨.unresolvedReference "b", none, 0, []⟩] := by
  intro r
  obtain ⟨hkeys, hshows, -⟩ := references_show_targets
    "See {ref: #a} and {ref: #b}.\n\n{#a} Lemma: L. {}".toList 0 0 true {}
  have hknown : r.labels.get? "a" = some ⟨"0.1", "0.1"⟩ := by decide +kernel
  have hunknown : r.labels.get? "b" = none := by decide +kernel
  refine ⟨hkeys.trans (by decide +kernel), fun n hn htag => ⟨fun hkey => ?_, fun hkey => ?_⟩,
    by decide +kernel⟩
  · have hn := hshows n hn htag
    rwa [hkey, hknown] at hn
  · have hn := hshows n hn htag
    rwa [hkey, hunknown] at hn

end Treatise
