import Treatise.Proofs.Render.Fragments

/-!
# Rendered documents are well-formed

Every tree without raw markup is rendered as a well-formed fragment of HTML, whatever the words in it
are.

* **`areNamed_nodesToHtml`** — the renderer makes only elements and attributes with proper names.
* **`SameShape`** — two forests that may differ in all their words. `bracketsOf_nodesToHtml` says that
  they are rendered with the same tags.
* **`renderHtml_isFragment`** — what is rendered is a fragment, and its tags depend on the shape of
  the tree only, so that no text and no attribute can open or close an element.
-/

namespace Treatise

open Node (AllOf descendantsOf)
open Html (Bracket Fragment areNamed bracketsOf haveNames isName readBrackets)

/-! ## Names -/

namespace HtmlRenderer

theorem haveNames_attrOf (n : Node) {key : String} (h : isName key = true) :
    haveNames (attrOf n key) = true := by
  unfold attrOf
  cases n.attr? key <;> simp [h]

theorem haveNames_attrIf {key : String} (h : isName key = true) (value : Option String) :
    haveNames (attrIf key value) = true := by
  cases value <;> simp [attrIf, h]

/-- The name of the element of a heading. -/
theorem isName_heading (level : Nat) :
    isName ("h" ++ Nat.repr level) = true ∧ "h" ++ Nat.repr level ∉ Html.voidNames := by
  have hlist : ("h" ++ Nat.repr level).toList = 'h' :: (Nat.repr level).toList := by simp
  constructor
  · have hdigits : ∀ c ∈ (Nat.repr level).toList, Html.isNameChar c = true := by
      intro c hc
      rw [Nat.toList_repr] at hc
      simp [Html.isNameChar, Nat.isDigit_of_mem_toDigits (by decide) (by decide) hc]
    simp only [isName, hlist, List.head?_cons, Option.any_some, List.all_cons, Bool.and_eq_true,
      List.all_eq_true]
    exact ⟨by decide, by decide, hdigits⟩
  · intro hvoid
    simp only [Html.voidNames, List.mem_cons, List.not_mem_nil, or_false] at hvoid
    rcases hvoid with h | h | h
    -- of the void elements one begins with the letter, and goes on with another
    · have hr := congrArg String.toList h
      rw [hlist] at hr
      have hmem : 'r' ∈ (Nat.repr level).toList := by
        rw [(List.cons.inj hr).2]
        exact List.mem_cons_self
      rw [Nat.toList_repr] at hmem
      exact absurd (Nat.isDigit_of_mem_toDigits (by decide) (by decide) hmem) (by decide)
    · have hb := congrArg String.toList h
      rw [hlist] at hb
      exact absurd (List.cons.inj hb).1 (by decide)
    · have hi := congrArg String.toList h
      rw [hlist] at hi
      exact absurd (List.cons.inj hi).1 (by decide)

variable {b : Bibliography} {fileId : Nat}

/-- Wrapping adds elements and attributes with proper names. -/
theorem areNamed_wrap (inHead : Bool) (n : Node) (content : List Html) :
    areNamed (wrap inHead n content) = areNamed content := by
  cases htag : n.tag with
  | heading level =>
    obtain ⟨hname, hvoid⟩ := isName_heading level
    simp [wrap, htag, lineElement, areNamed, Html.isNamed, hname, hvoid]
  | span role =>
    by_cases hlink : role = .referenceNumber ∧ (n.attr? "href").isSome = true
    · simp +decide [wrap, htag, hlink, areNamed, Html.isNamed, haveNames_attrOf]
    · simp only [wrap, htag, if_neg hlink, areNamed, Html.isNamed]
      simp +decide [haveNames_attrOf]
  | list ordered start =>
    cases ordered with
    | false => simp +decide [wrap, htag, blockElement, areNamed, Html.isNamed]
    | true =>
      have hstart : haveNames (if start = 1 then [] else [("start", Nat.repr start)]) = true := by
        split
        · rfl
        · simp +decide
      simp +decide [wrap, htag, blockElement, areNamed, Html.isNamed, hstart]
  | tableCell => cases inHead <;> simp +decide [wrap, htag, areNamed, Html.isNamed]
  | tableHead =>
    have hnames : isName "thead" = true ∧ isName "tr" = true := by decide
    simp +decide [wrap, htag, blockElement, areNamed, Html.isNamed, hnames]
  | _ =>
    simp +decide [wrap, htag, blockElement, lineElement, areNamed, Html.isNamed, haveNames_attrOf,
      haveNames_attrIf]

theorem areNamed_leaf? {n : Node} {r : List Html × List Issue} (h : leaf? b fileId n = some r) :
    areNamed r.1 = true := by
  cases htag : n.tag with
  | citation =>
    -- a citation is a link only if its key is known
    simp only [leaf?, htag, Option.some.injEq] at h
    subst h
    cases hnumber : b.number? ((n.attr? "key").getD "") <;>
      simp +decide [citation, hnumber, areNamed, Html.isNamed]
  | math display =>
    cases display <;>
      · simp only [leaf?, htag, Option.some.injEq] at h
        subst h
        rfl
  | codeBlock | code | html | rule | hardBreak | image | label | bibEntry =>
    simp only [leaf?, htag, Option.some.injEq] at h
    subst h
    simp +decide [areNamed, Html.isNamed, haveNames_attrOf, haveNames_attrIf, bibEntry]
  | _ =>
    simp only [leaf?, htag] at h
    cases h

end HtmlRenderer

/-- The renderer makes only elements and attributes with proper names. -/
theorem areNamed_nodesToHtml (b : Bibliography) (fileId : Nat) (ns : List Node) (s : HtmlState) :
    areNamed (nodesToHtml b fileId ns s).1 = true := by
  induction ns using Node.forest_induction generalizing s with
  | nil => rfl
  | cons n ns below behind =>
    rw [fst_nodesToHtml_cons, Html.areNamed_append, Html.areNamed_text, behind]
    cases hleaf : HtmlRenderer.leaf? b fileId n with
    | some r =>
      rw [toHtml_of_leaf hleaf, HtmlRenderer.areNamed_leaf? hleaf]
      rfl
    | none =>
      rw [toHtml_of_none hleaf, HtmlRenderer.areNamed_wrap, Html.areNamed_text, below]
      rfl

/-! ## Trees of the same shape -/

/-- The kind of a node without the words that it may hold: the language of code, and all that a
statement says besides its kind. -/
def Tag.bare : Tag → Tag
  | codeBlock _ => .codeBlock none
  | block st => .block (.ofKind st.kind)
  | tag => tag

/-- Two forests have the same shape: there are the same kinds of nodes at the same places, the same
references are resolved and the same citations are known to the bibliographies. All texts, tails,
flags and attributes may differ, and so may the words in kinds. -/
inductive SameShape (b b' : Bibliography) : List Node → List Node → Prop
  | nil : SameShape b b' [] []
  | cons {n m ns ms} (tag : n.tag.bare = m.tag.bare)
      (resolved : n.tag = .span .referenceNumber →
        (n.attr? "href").isSome = (m.attr? "href").isSome)
      (known : n.tag = .citation → (b.number? n.key).isSome = (b'.number? m.key).isSome)
      (below : SameShape b b' n.children m.children) (behind : SameShape b b' ns ms) :
      SameShape b b' (n :: ns) (m :: ms)

/-- A node of the shape of a node, without any words. -/
def Node.bare (n : Node) : Node :=
  let bare := Node.ofTag n.tag.bare
  if n.tag = .span .referenceNumber ∧ (n.attr? "href").isSome then bare.setAttr "href" "" else bare

/-- Tags without words are told apart by what they are without their words. -/
theorem Tag.eq_iff_of_bare_eq {t u v : Tag} (h : t.bare = u.bare)
    (hcode : ∀ language, v ≠ .codeBlock language) (hblock : ∀ st, v ≠ .block st) :
    t = v ↔ u = v := by
  have hbare (w : Tag) : w.bare = v ↔ w = v := by
    cases w with
    | codeBlock language =>
      exact ⟨fun h => absurd h.symm (hcode _), fun h => absurd h.symm (hcode _)⟩
    | block st => exact ⟨fun h => absurd h.symm (hblock _), fun h => absurd h.symm (hblock _)⟩
    | _ => exact Iff.rfl
  rw [← hbare t, h, hbare u]

section Bare

variable {b b' : Bibliography} {fileId fileId' : Nat} {n m : Node}

@[simp] theorem Node.tag_bare (n : Node) : n.bare.tag = n.tag.bare := by
  unfold bare
  split <;> rfl

theorem Node.href_bare (h : n.tag = .span .referenceNumber) :
    (n.bare.attr? "href").isSome = (n.attr? "href").isSome := by
  by_cases hhref : (n.attr? "href").isSome = true
  · rw [bare, if_pos ⟨h, hhref⟩, hhref, setAttr, attr?, Dict.get?_insert, if_pos rfl]
    rfl
  · rw [bare, if_neg (fun hlink => hhref hlink.2), Bool.eq_false_iff.2 hhref]
    rfl

/-- Nodes of the same shape are the same without their words. -/
theorem Node.bare_eq (tag : n.tag.bare = m.tag.bare)
    (resolved : n.tag = .span .referenceNumber →
      (n.attr? "href").isSome = (m.attr? "href").isSome) : n.bare = m.bare := by
  have hspan : n.tag = .span .referenceNumber ↔ m.tag = .span .referenceNumber :=
    Tag.eq_iff_of_bare_eq tag (by simp) (by simp)
  unfold bare
  by_cases h : n.tag = .span .referenceNumber
  · simp only [h, hspan.1 h, resolved h]
  · simp only [h, mt hspan.2 h, tag, false_and, if_false]

namespace HtmlRenderer

/-- The tags that a node puts around its content are those of its shape. -/
theorem bracketsOf_wrap_bare (inHead : Bool) (n : Node) {content content' : List Html}
    (h : bracketsOf content = bracketsOf content') :
    bracketsOf (wrap inHead n content) = bracketsOf (wrap inHead n.bare content') := by
  cases htag : n.tag with
  | span role =>
    have hbare : n.bare.tag = .span role := by
      rw [Node.tag_bare, htag]
      rfl
    have hhref : role = .referenceNumber ∧ (n.bare.attr? "href").isSome = true ↔
        role = .referenceNumber ∧ (n.attr? "href").isSome = true := by
      refine and_congr_right fun hrole => ?_
      rw [Node.href_bare (by rw [htag, hrole])]
    by_cases hlink : role = .referenceNumber ∧ (n.attr? "href").isSome = true
    · simp only [wrap, htag, hbare, if_pos hlink, if_pos (hhref.2 hlink), bracketsOf,
        Html.brackets, h]
    · simp only [wrap, htag, hbare, if_neg hlink, if_neg (mt hhref.1 hlink), bracketsOf,
        Html.brackets, h]
  | list ordered start =>
    cases ordered <;>
      simp [wrap, htag, Tag.bare, blockElement, bracketsOf, Html.brackets, h]
  | _ =>
    simp [wrap, htag, Tag.bare, blockElement, lineElement, bracketsOf, Html.brackets, h]

/-- Nodes of the same shape put the same tags around their content. -/
theorem bracketsOf_wrap_congr (inHead : Bool) (h : n.bare = m.bare) {content content' : List Html}
    (hcontent : bracketsOf content = bracketsOf content') :
    bracketsOf (wrap inHead n content) = bracketsOf (wrap inHead m content') := by
  rw [bracketsOf_wrap_bare inHead n hcontent, h]
  exact (bracketsOf_wrap_bare inHead m rfl).symm

/-- The tags of a node that is rendered without a walk over its content are those of its shape. -/
theorem bracketsOf_leaf?_bare (h : n.tag ≠ .citation) :
    (leaf? b fileId n).map (bracketsOf ·.1) = (leaf? b' fileId' n.bare).map (bracketsOf ·.1) := by
  cases htag : n.tag with
  | citation => exact absurd htag h
  | math display =>
    cases display <;> simp [leaf?, htag, Tag.bare, bracketsOf, Html.brackets]
  | _ => simp [leaf?, htag, Tag.bare, bracketsOf, Html.brackets, bibEntry]

theorem bracketsOf_citation (n : Node) :
    bracketsOf (citation b fileId n).1 =
      if (b.number? n.key).isSome then [.opening "a", .closing "a"]
      else [.opening "span", .closing "span"] := by
  cases hnumber : b.number? n.key <;>
    · rw [Node.key] at hnumber
      simp [citation, hnumber, bracketsOf, Html.brackets]

/-- The tags of nodes of the same shape that are rendered without a walk over their content. -/
theorem bracketsOf_leaf?_congr (tag : n.tag.bare = m.tag.bare)
    (resolved : n.tag = .span .referenceNumber →
      (n.attr? "href").isSome = (m.attr? "href").isSome)
    (known : n.tag = .citation → (b.number? n.key).isSome = (b'.number? m.key).isSome) :
    (leaf? b fileId n).map (bracketsOf ·.1) = (leaf? b' fileId' m).map (bracketsOf ·.1) := by
  have hcitation : n.tag = .citation ↔ m.tag = .citation :=
    Tag.eq_iff_of_bare_eq tag (by simp) (by simp)
  by_cases h : n.tag = .citation
  · simp only [leaf?, h, hcitation.1 h, Option.map_some, bracketsOf_citation, known h]
  · have hn : (leaf? b fileId n).map (bracketsOf ·.1) =
        (leaf? b fileId n.bare).map (bracketsOf ·.1) := bracketsOf_leaf?_bare h
    have hm : (leaf? b' fileId' m).map (bracketsOf ·.1) =
        (leaf? b fileId m.bare).map (bracketsOf ·.1) :=
      bracketsOf_leaf?_bare (mt hcitation.2 h)
    rw [hn, hm, Node.bare_eq tag resolved]

end HtmlRenderer

theorem HtmlState.inHead_enter_congr {s s' : HtmlState} (h : s.inHead = s'.inHead) {t u : Tag}
    (htag : t = .tableHead ↔ u = .tableHead) : (s.enter t).inHead = (s'.enter u).inHead := by
  by_cases ht : t = .tableHead
  · rw [enter, enter, if_pos ht, if_pos (htag.1 ht)]
  · rw [enter, enter, if_neg ht, if_neg (mt htag.2 ht), h]

theorem HtmlState.inHead_leave_congr {s s' : HtmlState} (h : s.inHead = s'.inHead) {t u : Tag}
    (htag : t = .tableHead ↔ u = .tableHead) : (s.leave t).inHead = (s'.leave u).inHead := by
  by_cases ht : t = .tableHead
  · rw [leave, leave, if_pos ht, if_pos (htag.1 ht)]
  · rw [leave, leave, if_neg ht, if_neg (mt htag.2 ht), h]

/-- Forests of the same shape are rendered with the same tags, and leave the walk in the same
place. -/
theorem bracketsOf_nodesToHtml {ns ms : List Node} (h : SameShape b b' ns ms) {s s' : HtmlState}
    (hs : s.inHead = s'.inHead) :
    bracketsOf (nodesToHtml b fileId ns s).1 = bracketsOf (nodesToHtml b' fileId' ms s').1 ∧
      (nodesToHtml b fileId ns s).2.inHead = (nodesToHtml b' fileId' ms s').2.inHead := by
  induction h generalizing s s' with
  | nil => exact ⟨rfl, hs⟩
  | @cons n m ns ms tag resolved known _ _ below behind =>
    have hhead : n.tag = .tableHead ↔ m.tag = .tableHead :=
      Tag.eq_iff_of_bare_eq tag (by simp) (by simp)
    have hnode : bracketsOf (n.toHtml b fileId s).1 = bracketsOf (m.toHtml b' fileId' s').1 ∧
        (n.toHtml b fileId s).2.inHead = (m.toHtml b' fileId' s').2.inHead := by
      have hleaf : (HtmlRenderer.leaf? b fileId n).map (bracketsOf ·.1) =
          (HtmlRenderer.leaf? b' fileId' m).map (bracketsOf ·.1) :=
        HtmlRenderer.bracketsOf_leaf?_congr tag resolved known
      -- of two such nodes both are walked into, or none is
      cases hn : HtmlRenderer.leaf? b fileId n with
      | some r =>
        rw [hn, Option.map_some] at hleaf
        obtain ⟨r', hm, hr⟩ := Option.map_eq_some_iff.1 hleaf.symm
        rw [toHtml_of_leaf hn, toHtml_of_leaf hm]
        exact ⟨hr.symm, hs⟩
      | none =>
        rw [hn, Option.map_none] at hleaf
        have hm := Option.map_eq_none_iff.1 hleaf.symm
        obtain ⟨hcontent, hbehind⟩ := below (HtmlState.inHead_enter_congr hs hhead)
        rw [toHtml_of_none hn, toHtml_of_none hm]
        refine ⟨?_, HtmlState.inHead_leave_congr hbehind hhead⟩
        dsimp only
        rw [hbehind]
        exact HtmlRenderer.bracketsOf_wrap_congr _ (Node.bare_eq tag resolved) hcontent
    obtain ⟨hrest, hend⟩ := behind hnode.2
    rw [fst_nodesToHtml_cons, fst_nodesToHtml_cons, Html.bracketsOf_append,
      Html.bracketsOf_append, hnode.1, Html.bracketsOf_text, Html.bracketsOf_text, hrest]
    exact ⟨rfl, hend⟩

end Bare

/-! ## Rendered trees -/

/-- A tree without raw markup is printed as a fragment with the tags of its elements. -/
theorem fragment_renderHtml (b : Bibliography) (fileId : Nat) (s : HtmlState) {n : Node}
    (h : AllOf (·.tag ≠ .html) [n]) :
    Fragment (bracketsOf (n.toHtml b fileId s).1) (n.renderHtml b fileId s).1.toList := by
  have hraw : Html.areRawFree (nodesToHtml b fileId [n] s).1 = true := areRawFree_nodesToHtml h
  have hnamed := areNamed_nodesToHtml b fileId [n] s
  rw [fst_nodesToHtml_cons, Html.areRawFree_append, Bool.and_eq_true] at hraw
  rw [fst_nodesToHtml_cons, Html.areNamed_append, Bool.and_eq_true] at hnamed
  exact Html.fragment_printAll hraw.1 hnamed.1

/-- Trees of the same shape have the same raw markup, if any. -/
theorem SameShape.allOf_ne_html {b b' : Bibliography} {ns ms : List Node}
    (h : SameShape b b' ns ms) (hns : AllOf (·.tag ≠ .html) ns) : AllOf (·.tag ≠ .html) ms := by
  induction h with
  | nil => exact Node.allOf_nil
  | cons tag _ _ _ _ below behind =>
    rw [Node.allOf_cons] at hns ⊢
    have hhtml := Tag.eq_iff_of_bare_eq tag (v := .html) (by simp) (by simp)
    exact ⟨mt hhtml.2 hns.1, below hns.2.1, behind hns.2.2⟩

/-- A tree without raw markup is rendered as a well-formed fragment, in which text and attribute
values are escaped. Its tags are given by the shape of the tree: whatever words stand in the tree,
no text and no attribute opens or closes an element. -/
theorem renderHtml_isFragment (b : Bibliography) (fileId : Nat) (s : HtmlState) (n : Node)
    (h : AllOf (·.tag ≠ .html) [n]) :
    let html := (n.renderHtml b fileId s).1.toList
    Fragment (readBrackets html) html ∧
      ∀ (b' : Bibliography) (fileId' : Nat) (s' : HtmlState) (m : Node),
        s.inHead = s'.inHead → SameShape b b' [n] [m] →
          readBrackets (m.renderHtml b' fileId' s').1.toList = readBrackets html := by
  have hn := fragment_renderHtml b fileId s h
  refine ⟨by rwa [hn.readBrackets_eq], fun b' fileId' s' m hs hshape => ?_⟩
  have hm := fragment_renderHtml b' fileId' s' (hshape.allOf_ne_html h)
  rw [hn.readBrackets_eq, hm.readBrackets_eq]
  -- a tree is rendered as the forest that it is alone in, but for the text behind it
  have hbrackets : bracketsOf (nodesToHtml b fileId [n] s).1 =
      bracketsOf (nodesToHtml b' fileId' [m] s').1 := (bracketsOf_nodesToHtml hshape hs).1
  rw [fst_nodesToHtml_cons, fst_nodesToHtml_cons, Html.bracketsOf_append, Html.bracketsOf_append,
    Html.bracketsOf_text, Html.bracketsOf_text] at hbrackets
  simpa [nodesToHtml, bracketsOf] using hbrackets.symm

/-- Markup in the words of a document, which shows as text. -/
theorem renderHtml_isFragment_of_markup :
    let image := ((Node.ofTag .image).setAttr "src" "\"><b>").setAttr "title" "<i>&\""
    let n : Node := { Node.ofTag .paragraph with text := "</p><b>", children := [image] }
    let m : Node := { Node.ofTag .paragraph with children := [Node.ofTag .image] }
    let html := (n.renderHtml [] 0 {}).1
    AllOf (·.tag ≠ .html) [n] ∧ SameShape [] [] [n] [m] ∧
      html = "<p>&lt;/p&gt;&lt;b&gt;<img src=\"&quot;&gt;&lt;b&gt;\" alt=\"\" " ++
        "title=\"&lt;i&gt;&amp;&quot;\" /></p>\n" ∧
      Fragment (readBrackets html.toList) html.toList ∧
      readBrackets html.toList = [.opening "p", .void "img", .closing "p"] ∧
      readBrackets (m.renderHtml [] 0 {}).1.toList = readBrackets html.toList := by
  intro image n m html
  have hraw : AllOf (·.tag ≠ .html) [n] := by
    unfold AllOf
    decide
  have hshape : SameShape [] [] [n] [m] :=
    .cons rfl nofun nofun (.cons rfl nofun nofun .nil .nil) .nil
  obtain ⟨hfragment, hbrackets⟩ := renderHtml_isFragment [] 0 {} n hraw
  exact ⟨hraw, hshape, by decide +kernel, hfragment, by decide +kernel,
    hbrackets [] 0 {} m rfl hshape⟩

end Treatise
