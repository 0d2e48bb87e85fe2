import Treatise.Proofs.Tree.Forest
import Treatise.Render.Html
import Treatise.Resolution

/-!
# Elements of a rendered document

Which elements a document has once it is rendered, and which of them can be linked to.

* **`Html.startsOf`**, **`Html.carriers`** — the start tags in a fragment, and those that carry an
  `id`.
* **`exists_of_mem_startsOf`** — every element is one that some node opens.
* **`carriers_nodesToHtml`** — the elements that carry an `id` are those of the nodes with that
  anchor, in document order, as long as no such node is where the renderer does not go.
-/

namespace Treatise

open Node (descendantsOf AllOf)

/-! ## Start tags -/

namespace Html

/-- A start tag: the name and the attributes of an element. -/
abbrev Start := String × List (String × String)

mutual

/-- The start tags in a piece of HTML, in document order. -/
def starts : Html → List Start
  | text _ => []
  | raw _ => []
  | element name attrs content => (name, attrs) :: startsOf content
  | void name attrs => [(name, attrs)]

/-- The start tags in pieces of HTML that follow each other. -/
def startsOf : List Html → List Start
  | [] => []
  | h :: hs => starts h ++ startsOf hs

end

mutual

/-- No piece of the markup is passed through unseen. -/
def isRawFree : Html → Bool
  | raw _ => false
  | element _ _ content => areRawFree content
  | _ => true

def areRawFree : List Html → Bool
  | [] => true
  | h :: hs => isRawFree h && areRawFree hs

end

/-- The element carries the `id`. -/
def Carries (id : String) (e : Start) : Prop := ("id", id) ∈ e.2

instance (id : String) (e : Start) : Decidable (Carries id e) :=
  inferInstanceAs (Decidable (_ ∈ _))

/-- The start tags that carry an `id`. -/
def carriers (id : String) (es : List Start) : List Start := es.filter (Carries id ·)

/-- The element is a link into the document. -/
def LinksTo (id : String) (e : Start) : Prop := e.1 = "a" ∧ ("href", "#" ++ id) ∈ e.2

instance (id : String) (e : Start) : Decidable (LinksTo id e) :=
  inferInstanceAs (Decidable (_ ∧ _))

/-- The element has the class. -/
def HasClass (name : String) (e : Start) : Prop := ("class", name) ∈ e.2

instance (name : String) (e : Start) : Decidable (HasClass name e) :=
  inferInstanceAs (Decidable (_ ∈ _))

@[simp] theorem startsOf_append (hs ks : List Html) :
    startsOf (hs ++ ks) = startsOf hs ++ startsOf ks := by
  induction hs with
  | nil => rfl
  | cons h hs ih => rw [List.cons_append, startsOf, startsOf, ih, List.append_assoc]

@[simp] theorem areRawFree_append (hs ks : List Html) :
    areRawFree (hs ++ ks) = (areRawFree hs && areRawFree ks) := by
  induction hs with
  | nil => rfl
  | cons h hs ih => rw [List.cons_append, areRawFree, areRawFree, ih, Bool.and_assoc]

@[simp] theorem carriers_append (id : String) (es fs : List Start) :
    carriers id (es ++ fs) = carriers id es ++ carriers id fs := List.filter_append es fs

end Html

/-! ## What a node opens -/

namespace HtmlRenderer

open Html (startsOf areRawFree)

/-- The start tags of a node, without those of its content. -/
def starts (b : Bibliography) (fileId : Nat) (inHead : Bool) (n : Node) : List Html.Start :=
  match leaf? b fileId n with
  | some (html, _) => startsOf html
  | none => startsOf (wrap inHead n [])

section Wrap

variable (inHead : Bool) (n : Node) (content : List Html)

theorem startsOf_wrap :
    startsOf (wrap inHead n content) = startsOf (wrap inHead n []) ++ startsOf content := by
  cases htag : n.tag with
  | span role =>
    by_cases hlink : role = .referenceNumber ∧ (n.attr? "href").isSome = true
    · simp [wrap, htag, hlink, startsOf, Html.starts]
    · simp only [wrap, htag, if_neg hlink, startsOf, Html.starts, List.append_nil]
      rfl
  | list ordered start =>
    cases ordered <;> simp [wrap, htag, blockElement, startsOf, Html.starts]
  | _ => simp [wrap, htag, blockElement, lineElement, startsOf, Html.starts]

theorem areRawFree_wrap : areRawFree (wrap inHead n content) = areRawFree content := by
  cases htag : n.tag with
  | span role =>
    by_cases hlink : role = .referenceNumber ∧ (n.attr? "href").isSome = true
    · simp [wrap, htag, hlink, areRawFree, Html.isRawFree]
    · simp only [wrap, htag, if_neg hlink, areRawFree, Html.isRawFree, Bool.and_true]
  | list ordered start =>
    cases ordered <;> simp [wrap, htag, blockElement, areRawFree, Html.isRawFree]
  | _ => simp [wrap, htag, blockElement, lineElement, areRawFree, Html.isRawFree]

end Wrap

/-! ## Anchors -/

/-- The `id` of the element of a node. -/
def anchor? (n : Node) : Option String :=
  match n.tag with
  | .block _ => n.attr? "id"
  | .span role =>
    if role = .referenceNumber ∧ (n.attr? "href").isSome then none else n.attr? "id"
  | .bibEntry => some ("bib-" ++ n.key)
  | _ => none

theorem mem_attrIf {key name value : String} {v : Option String} :
    (name, value) ∈ attrIf key v ↔ name = key ∧ v = some value := by
  cases v with
  | none => simp [attrIf]
  | some v => simp [attrIf, eq_comm]

theorem mem_attrOf {n : Node} {key name value : String} :
    (name, value) ∈ attrOf n key ↔ name = key ∧ n.attr? key = some value :=
  mem_attrIf

variable {b : Bibliography} {fileId : Nat}

/-- A node opens an element that carries an `id` only if the `id` is its anchor, and then it opens
no other element. -/
theorem starts_of_anchor? (inHead : Bool) (n : Node) :
    (∀ e ∈ starts b fileId inHead n, ∀ id, Html.Carries id e ↔ anchor? n = some id) ∧
      ((anchor? n).isSome = true →
        ∃ e, starts b fileId inHead n = [e] ∧ starts b fileId false n = [e]) := by
  cases htag : n.tag with
  | block st =>
    simp [starts, leaf?, wrap, blockElement, htag, startsOf, Html.starts, Html.Carries,
      mem_attrOf, mem_attrIf, anchor?]
  | span role =>
    by_cases hlink : role = .referenceNumber ∧ (n.attr? "href").isSome = true
    · simp [starts, leaf?, wrap, htag, hlink, startsOf, Html.starts, Html.Carries, mem_attrOf,
        anchor?]
    · simp only [starts, leaf?, wrap, htag, if_neg hlink, startsOf, Html.starts, Html.Carries,
        anchor?]
      simp [mem_attrOf]
  | bibEntry =>
    simp [starts, leaf?, bibEntry, htag, startsOf, Html.starts, Html.Carries, anchor?, Node.key,
      eq_comm]
  | citation =>
    cases hnumber : b.number? ((n.attr? "key").getD "") <;>
      simp [starts, leaf?, citation, htag, hnumber, startsOf, Html.starts, Html.Carries, anchor?]
  | math display =>
    cases display <;> simp [starts, leaf?, htag, startsOf, Html.starts, anchor?]
  | list ordered start =>
    cases ordered with
    | false => simp [starts, leaf?, wrap, blockElement, htag, startsOf, Html.starts, Html.Carries,
        anchor?]
    | true =>
      by_cases hstart : start = 1 <;>
        simp [starts, leaf?, wrap, blockElement, htag, startsOf, Html.starts, Html.Carries,
          anchor?, hstart]
  | _ =>
    simp [starts, leaf?, wrap, blockElement, lineElement, htag, startsOf, Html.starts,
      Html.Carries, mem_attrOf, mem_attrIf, anchor?]

/-- What carries an `id` of what a node opens. -/
theorem carriers_starts (inHead : Bool) (n : Node) (id : String) :
    Html.carriers id (starts b fileId inHead n) =
      if anchor? n = some id then starts b fileId false n else [] := by
  obtain ⟨hcarries, hstarts⟩ := @starts_of_anchor? b fileId inHead n
  split
  · next h =>
    obtain ⟨e, he, he'⟩ := hstarts (by rw [h]; rfl)
    have hcarrier : Html.Carries id e := (hcarries e (by simp [he]) id).2 h
    rw [he', he, Html.carriers, List.filter_cons_of_pos (by simpa using hcarrier), List.filter_nil]
  · next h =>
    rw [Html.carriers, List.filter_eq_nil_iff]
    intro e he
    simpa [hcarries e he id] using h

theorem areRawFree_leaf? {n : Node} (hn : n.tag ≠ .html) {r : List Html × List Issue}
    (h : leaf? b fileId n = some r) : areRawFree r.1 = true := by
  unfold leaf? at h
  split at h
  · cases h; rfl
  · cases h; rfl
  · cases h; rfl
  · cases h; rfl
  · -- raw markup is the one case that is not free of it
    next htag => exact absurd htag hn
  · cases h; rfl
  · cases h; rfl
  · cases h; rfl
  · cases h; rfl
  · obtain rfl := Option.some.inj h
    cases hnumber : b.number? ((n.attr? "key").getD "") <;> simp only [citation, hnumber] <;> rfl
  · cases h; rfl
  · cases h

end HtmlRenderer

/-! ## The walk of the renderer -/

section Walk

variable {b : Bibliography} {fileId : Nat} {n : Node} {s : HtmlState}

theorem toHtml_of_leaf {html : List Html} {issues : List Issue}
    (h : HtmlRenderer.leaf? b fileId n = some (html, issues)) :
    n.toHtml b fileId s = (html, { s with issues := s.issues ++ issues }) := by
  obtain ⟨tag, attrs, flags, text, tail, children⟩ := n
  rw [Node.toHtml]
  simp only [h]

theorem toHtml_of_none (h : HtmlRenderer.leaf? b fileId n = none) :
    n.toHtml b fileId s =
      let r := nodesToHtml b fileId n.children (s.enter n.tag)
      (HtmlRenderer.wrap r.2.inHead n (.text n.text :: r.1), r.2.leave n.tag) := by
  obtain ⟨tag, attrs, flags, text, tail, children⟩ := n
  rw [Node.toHtml]
  simp only [h]

theorem fst_nodesToHtml_cons (ns : List Node) :
    (nodesToHtml b fileId (n :: ns) s).1 =
      (n.toHtml b fileId s).1 ++
        .text n.tail :: (nodesToHtml b fileId ns (n.toHtml b fileId s).2).1 := rfl

/-- Every element is one that some node opens. -/
theorem exists_of_mem_startsOf {ns : List Node} {e : Html.Start}
    (h : e ∈ Html.startsOf (nodesToHtml b fileId ns s).1) :
    ∃ n ∈ descendantsOf ns, ∃ inHead, e ∈ HtmlRenderer.starts b fileId inHead n := by
  induction ns using Node.forest_induction generalizing s with
  | nil => exact absurd h List.not_mem_nil
  | cons n ns below behind =>
    rw [fst_nodesToHtml_cons, Html.startsOf_append, List.mem_append] at h
    rw [Node.descendantsOf_cons]
    rcases h with h | h
    · -- the node's own element, or one of its content, if the content is rendered
      cases hleaf : HtmlRenderer.leaf? b fileId n with
      | some r =>
        rw [toHtml_of_leaf hleaf] at h
        exact ⟨n, List.mem_cons_self, false, by rwa [HtmlRenderer.starts, hleaf]⟩
      | none =>
        rw [toHtml_of_none hleaf, HtmlRenderer.startsOf_wrap, List.mem_append] at h
        rcases h with h | h
        · exact ⟨n, List.mem_cons_self, _, by rwa [HtmlRenderer.starts, hleaf]⟩
        · obtain ⟨m, hm, hstart⟩ := below h
          exact ⟨m, List.mem_cons_of_mem n (List.mem_append_left _ hm), hstart⟩
    · obtain ⟨m, hm, hstart⟩ := behind h
      exact ⟨m, List.mem_cons_of_mem n (List.mem_append_right _ hm), hstart⟩

theorem areRawFree_nodesToHtml {ns : List Node} (h : AllOf (·.tag ≠ .html) ns) :
    Html.areRawFree (nodesToHtml b fileId ns s).1 = true := by
  induction ns using Node.forest_induction generalizing s with
  | nil => rfl
  | cons n ns below behind =>
    rw [Node.allOf_cons] at h
    rw [fst_nodesToHtml_cons, Html.areRawFree_append, Html.areRawFree, behind h.2.2]
    cases hleaf : HtmlRenderer.leaf? b fileId n with
    | some r =>
      rw [toHtml_of_leaf hleaf, HtmlRenderer.areRawFree_leaf? h.1 hleaf]
      rfl
    | none =>
      rw [toHtml_of_none hleaf, HtmlRenderer.areRawFree_wrap, Html.areRawFree, below h.2.1]
      rfl

/-- The elements that carry an `id` are those of the nodes with that anchor, if no such node is
below one that is rendered without a walk over its content. -/
theorem carriers_nodesToHtml {id : String} {ns : List Node}
    (h : AllOf (fun n => (HtmlRenderer.leaf? b fileId n).isSome = true →
      ∀ m ∈ n.descendants, HtmlRenderer.anchor? m ≠ some id) ns) :
    Html.carriers id (Html.startsOf (nodesToHtml b fileId ns s).1) =
      ((descendantsOf ns).filter (HtmlRenderer.anchor? · = some id)).flatMap
        (HtmlRenderer.starts b fileId false) := by
  induction ns using Node.forest_induction generalizing s with
  | nil => rfl
  | cons n ns below behind =>
    rw [Node.allOf_cons] at h
    obtain ⟨hn, hchildren, hns⟩ := h
    have hnode : Html.carriers id (Html.startsOf (n.toHtml b fileId s).1) =
        (if HtmlRenderer.anchor? n = some id then HtmlRenderer.starts b fileId false n else []) ++
          ((descendantsOf n.children).filter (HtmlRenderer.anchor? · = some id)).flatMap
            (HtmlRenderer.starts b fileId false) := by
      cases hleaf : HtmlRenderer.leaf? b fileId n with
      | some r =>
        -- the content is not rendered, and holds no such anchor
        have hnone : (descendantsOf n.children).filter (HtmlRenderer.anchor? · = some id) = [] := by
          rw [List.filter_eq_nil_iff, ← Node.descendants_eq]
          intro m hm
          simpa using hn (by rw [hleaf]; rfl) m hm
        have hstarts : HtmlRenderer.starts b fileId false n = Html.startsOf r.1 := by
          rw [HtmlRenderer.starts, hleaf]
        rw [toHtml_of_leaf hleaf, hnone, ← hstarts, HtmlRenderer.carriers_starts]
        simp
      | none =>
        have hstarts (inHead : Bool) : HtmlRenderer.starts b fileId inHead n =
            Html.startsOf (HtmlRenderer.wrap inHead n []) := by
          rw [HtmlRenderer.starts, hleaf]
        rw [toHtml_of_none hleaf, HtmlRenderer.startsOf_wrap, Html.carriers_append, ← hstarts,
          HtmlRenderer.carriers_starts]
        exact congrArg _ (below hchildren)
    rw [fst_nodesToHtml_cons, Html.startsOf_append, Html.carriers_append, hnode]
    -- the text between two nodes opens nothing
    rw [show Html.startsOf (.text n.tail :: (nodesToHtml b fileId ns (n.toHtml b fileId s).2).1) =
      Html.startsOf (nodesToHtml b fileId ns (n.toHtml b fileId s).2).1 from rfl, behind hns]
    rw [Node.descendantsOf_cons]
    by_cases hanchor : HtmlRenderer.anchor? n = some id <;> simp [hanchor]

end Walk

end Treatise
