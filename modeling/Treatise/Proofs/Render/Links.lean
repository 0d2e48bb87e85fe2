import Treatise.Conversion
import Treatise.Proofs.Contents
import Treatise.Proofs.Numbering.Sites
import Treatise.Proofs.Numbering.Targets
import Treatise.Proofs.Render.Elements

/-!
# Links in a rendered document

Where the links of a document go, once it is rendered as HTML.

* **`eq_link_of_mem_starts`** — links are made for links of the text, citations and references.
* **`carriers_content`** — the elements with an `id` are those of the nodes with that anchor, unless
  the anchor is that of a bibliography entry in an image.
* **`links_have_targets`** — the links to sections, to resolved labels and to bibliography entries.
-/

namespace Treatise

open Node (Fresh AllOf descendantsOf)
open Html (Carries LinksTo HasClass carriers startsOf)

/-! ## Links of nodes -/

namespace HtmlRenderer

variable {b : Bibliography} {fileId : Nat}

theorem heading_ne_link (level : Nat) : "h" ++ Nat.repr level ≠ "a" := by
  intro h
  have hlist := congrArg String.toList h
  rw [String.toList_append] at hlist
  exact absurd (List.cons.inj hlist).1 (by decide)

/-- What a link is made for. -/
theorem eq_link_of_mem_starts {inHead : Bool} {n : Node} {e : Html.Start}
    (h : e ∈ starts b fileId inHead n) (hname : e.1 = "a") :
    (n.tag = .link ∧ e.2 = attrOf n "href" ++ attrOf n "title") ∨
    (n.tag = .citation ∧ (b.number? n.key).isSome = true ∧
      e.2 = [("class", "citation"), ("href", "#bib-" ++ n.key)]) ∨
    (n.tag = .span .referenceNumber ∧
      e.2 = ("class", "reference_number") :: attrOf n "href") := by
  obtain ⟨name, attrs⟩ := e
  obtain rfl : name = "a" := hname
  cases htag : n.tag with
  | span role =>
    by_cases hlink : role = .referenceNumber ∧ (n.attr? "href").isSome = true
    · have hstarts : starts b fileId inHead n =
          [("a", ("class", "reference_number") :: attrOf n "href")] := by
        simp [starts, leaf?, wrap, htag, hlink, startsOf, Html.starts]
      rw [hstarts, List.mem_singleton] at h
      exact .inr (.inr ⟨by rw [hlink.1], congrArg Prod.snd h⟩)
    · simp only [starts, leaf?, wrap, htag, if_neg hlink, startsOf, Html.starts] at h
      simp at h
  | citation =>
    cases hnumber : b.number? n.key with
    | none =>
      have hstarts : starts b fileId inHead n = [("span", [("class", "citation unknown")])] := by
        rw [Node.key] at hnumber
        simp [starts, leaf?, citation, htag, hnumber, startsOf, Html.starts]
      rw [hstarts, List.mem_singleton] at h
      exact absurd (Prod.mk.inj h).1 (by decide)
    | some number =>
      have hstarts : starts b fileId inHead n =
          [("a", [("class", "citation"), ("href", "#bib-" ++ n.key)])] := by
        rw [Node.key] at hnumber ⊢
        simp [starts, leaf?, citation, htag, hnumber, startsOf, Html.starts]
      rw [hstarts, List.mem_singleton] at h
      exact .inr (.inl ⟨rfl, rfl, congrArg Prod.snd h⟩)
  | link =>
    have hstarts : starts b fileId inHead n = [("a", attrOf n "href" ++ attrOf n "title")] := by
      simp [starts, leaf?, wrap, htag, startsOf, Html.starts]
    rw [hstarts, List.mem_singleton] at h
    exact .inl ⟨rfl, congrArg Prod.snd h⟩
  | heading level =>
    -- the name depends on the level, so that it is not compared by evaluation
    have hstarts : starts b fileId inHead n = [("h" ++ Nat.repr level, [])] := by
      simp [starts, leaf?, wrap, lineElement, htag, startsOf, Html.starts]
    rw [hstarts, List.mem_singleton] at h
    exact absurd (congrArg Prod.fst h).symm (heading_ne_link level)
  | list ordered start =>
    cases ordered <;>
      simp [starts, leaf?, wrap, blockElement, htag, startsOf, Html.starts] at h
  | math display =>
    cases display <;> simp [starts, leaf?, htag, startsOf, Html.starts] at h
  | tableCell =>
    cases inHead <;> simp [starts, leaf?, wrap, htag, startsOf, Html.starts] at h
  | _ =>
    -- every other node opens an element with a fixed name, which is none of a link
    simp [starts, leaf?, wrap, blockElement, lineElement, bibEntry, htag, startsOf,
      Html.starts] at h

/-- A link that an author wrote has no class. -/
theorem not_hasClass_of_link {n : Node} {e : Html.Start} (name : String)
    (h : e.2 = attrOf n "href" ++ attrOf n "title") : ¬ HasClass name e := by
  intro hclass
  rw [HasClass, h, List.mem_append, mem_attrOf, mem_attrOf] at hclass
  rcases hclass with ⟨hname, -⟩ | ⟨hname, -⟩
  · exact absurd hname (by decide)
  · exact absurd hname (by decide)

/-- Which nodes are rendered without a walk over their content. -/
theorem tag_of_isSome_leaf? {n : Node} (h : (leaf? b fileId n).isSome = true) :
    n.tag = .image ∨ n.tag.isLeaf = true ∧ n.tag ≠ .reference := by
  unfold leaf? at h
  split at h
  all_goals first
    | next htag => rw [htag]; simp [Tag.isLeaf]
    | simp at h

theorem anchor?_of_targetKind {n : Node} (h : n.tag.targetKind?.isSome = true) :
    anchor? n = n.attr? "id" := by
  cases htag : n.tag with
  | block st => simp [anchor?, htag]
  | span role => cases role <;> simp_all [anchor?, Tag.targetKind?]
  | _ => simp [htag, Tag.targetKind?] at h

theorem anchor?_eq_some {n : Node} {id : String} (h : anchor? n = some id) :
    n.attr? "id" = some id ∨ n.tag = .bibEntry ∧ "bib-" ++ n.key = id := by
  unfold anchor? at h
  split at h
  · exact .inl h
  · split at h
    · cases h
    · exact .inl h
  · next htag => exact .inr ⟨htag, Option.some.inj h⟩
  · cases h

end HtmlRenderer

/-! ## Bibliographies -/

theorem Bibliography.mem_add {b : Bibliography} {key key' : String} :
    key' ∈ b.add key ↔ key' ∈ b ∨ key' = key := by
  unfold add
  split
  · next h =>
    rw [List.contains_iff_mem] at h
    exact ⟨.inl, fun hmem => hmem.elim id fun heq => heq ▸ h⟩
  · rw [List.mem_append, List.mem_singleton]

theorem Bibliography.mem_foldl_add {b : Bibliography} {keys : List String} {key : String} :
    key ∈ keys.foldl add b ↔ key ∈ b ∨ key ∈ keys := by
  induction keys generalizing b with
  | nil => simp
  | cons k keys ih => rw [List.foldl_cons, ih, mem_add, List.mem_cons, or_assoc]

/-- A key with a number is that of an entry of the document. -/
theorem Bibliography.exists_entry {root : Node} {key : String}
    (h : ((ofDocument root).number? key).isSome = true) :
    ∃ n ∈ root.descendants, n.tag = .bibEntry ∧ n.key = key := by
  have hmem : key ∈ ofDocument root := by
    rw [number?, Option.isSome_map, List.isSome_idxOf?] at h
    exact h
  rcases mem_foldl_add.1 hmem with h | h
  · cases h
  · obtain ⟨n, hn, hkey⟩ := List.mem_filterMap.1 h
    obtain ⟨hn, htag⟩ := List.mem_filter.1 hn
    exact ⟨n, hn, by simpa using htag, by rw [Node.key, hkey]; rfl⟩

/-! ## Anchors of a resolved tree -/

/-- The `id` of a bibliography entry is no number and no anchor of a section. -/
theorem GivenNumber.anchor_ne_bib (g : GivenNumber) (key : String) : g.anchor ≠ "bib-" ++ key := by
  intro h
  cases g with
  | «section» cs title =>
    have hlist := congrArg String.toList h
    rw [anchor, sectionAnchor, String.toList_append, String.toList_append] at hlist
    exact absurd (List.cons.inj hlist).1 (by decide)
  | statement kind number =>
    have hb : 'b' ∈ (dotted number).toList := by
      rw [show dotted number = "bib-" ++ key from h, String.toList_append]
      exact List.mem_append_left _ (by decide)
    rcases isDigit_or_dot_of_mem_dotted hb with hb | hb
    · exact absurd hb (by decide)
    · exact absurd hb (by decide)

/-- An entry of a bibliography with this key is in an image, which does not show it. -/
def Node.HidesEntry (root : Node) (key : String) : Prop :=
  ∃ m ∈ root.descendants, m.tag = .image ∧
    ∃ n ∈ m.descendants, n.tag = .bibEntry ∧ n.key = key

/-- The root opens no element. -/
theorem startsOf_toHtml_root {b : Bibliography} {fileId : Nat} {root : Node} {s : HtmlState}
    (h : root.tag = .root) :
    startsOf (root.toHtml b fileId s).1 = startsOf (nodesToHtml b fileId root.children s).1 := by
  have hnone : HtmlRenderer.leaf? b fileId root = none := by rw [HtmlRenderer.leaf?, h]
  have hwrap (inHead : Bool) : HtmlRenderer.wrap inHead root [] = [] := by
    rw [HtmlRenderer.wrap, h]
  rw [toHtml_of_none hnone, HtmlRenderer.startsOf_wrap, hwrap, h]
  rfl

section Document

variable (o : NumberingOptions) (fileId : Nat) {root : Node} (hfresh : AllOf Fresh [root])

include hfresh

/-- The nodes with an `id` that is no entry's are those with the attribute. -/
theorem filter_anchor?_of_ne {id : String} (hid : ∀ key, id ≠ "bib-" ++ key) :
    (resolve o fileId root).root.descendants.filter (HtmlRenderer.anchor? · = some id) =
      (resolve o fileId root).root.descendants.filter (·.attr? "id" = some id) := by
  refine List.filter_congr fun n hn => ?_
  rw [decide_eq_decide]
  constructor
  · intro h
    -- the only other anchors are those of entries
    rcases HtmlRenderer.anchor?_eq_some h with h | ⟨-, h⟩
    · exact h
    · exact absurd h.symm (hid n.key)
  · intro h
    obtain ⟨g, -, -, hkind⟩ := exists_given_of_id o fileId hfresh hn h
    rw [HtmlRenderer.anchor?_of_targetKind (by rw [hkind]; rfl), h]

/-- Where no two entries have the same key, the `id` of an entry is on one node only. -/
theorem filter_anchor?_of_entry
    (hkeys : (((resolve o fileId root).root.findAll (·.tag == .bibEntry)).map Node.key).Nodup)
    {n : Node} (hn : n ∈ (resolve o fileId root).root.descendants) (htag : n.tag = .bibEntry) :
    (resolve o fileId root).root.descendants.filter
      (HtmlRenderer.anchor? · = some ("bib-" ++ n.key)) = [n] := by
  have hentries : (resolve o fileId root).root.descendants.filter
      (HtmlRenderer.anchor? · = some ("bib-" ++ n.key)) =
        ((resolve o fileId root).root.findAll (·.tag == .bibEntry)).filter
          (some ·.key = some n.key) := by
    -- no other node has an `id` that begins like that of an entry
    rw [Node.findAll, List.filter_filter]
    refine List.filter_congr fun m hm => ?_
    rw [Bool.eq_iff_iff, decide_eq_true_iff, Bool.and_eq_true, decide_eq_true_iff, beq_iff_eq,
      Option.some_inj]
    constructor
    · intro h
      rcases HtmlRenderer.anchor?_eq_some h with h | ⟨htag, h⟩
      · obtain ⟨g, -, hg, -⟩ := exists_given_of_id o fileId hfresh hm h
        exact absurd hg (g.anchor_ne_bib n.key)
      · exact ⟨(String.append_right_inj _).1 h, htag⟩
    · rintro ⟨hkey, htag⟩
      simp [HtmlRenderer.anchor?, htag, hkey]
  have hmem : n ∈ (resolve o fileId root).root.findAll (·.tag == .bibEntry) :=
    List.mem_filter.2 ⟨hn, by simp [htag]⟩
  rw [hentries]
  refine filter_eq_singleton (f := fun m => some m.key) ?_ hmem rfl
  rwa [List.filterMap_eq_map']

/-- The elements with an `id` are those of the nodes with that anchor. -/
theorem carriers_content (hroot : root.tag = .root) {b : Bibliography} {id : String}
    (hid : ∀ key, (resolve o fileId root).root.HidesEntry key → id ≠ "bib-" ++ key)
    (s : HtmlState) :
    carriers id (startsOf ((resolve o fileId root).root.toHtml b fileId s).1) =
      ((resolve o fileId root).root.descendants.filter
        (HtmlRenderer.anchor? · = some id)).flatMap (HtmlRenderer.starts b fileId false) := by
  -- what the renderer does not walk into is empty or an image, and an image holds no `id`
  -- other than those of entries
  have hbelow : AllOf (fun n => (HtmlRenderer.leaf? b fileId n).isSome = true →
      ∀ m ∈ n.descendants, HtmlRenderer.anchor? m ≠ some id)
      (resolve o fileId root).root.children := by
    intro n hn hleaf m hm hanchor
    have hresolved := resolved_resolve o fileId hfresh n hn
    rw [Node.descendants_eq] at hm
    rcases HtmlRenderer.tag_of_isSome_leaf? hleaf with himage | ⟨hleaf, hne⟩
    · rcases HtmlRenderer.anchor?_eq_some hanchor with h | ⟨hentry, h⟩
      · exact absurd h (by rw [hresolved.image himage m hm]; nofun)
      · refine hid m.key ⟨n, ?_, himage, m, ?_, hentry, rfl⟩ h.symm
        · rwa [Node.descendants_eq]
        · rwa [Node.descendants_eq]
    · rw [hresolved.leaf hleaf hne] at hm
      exact absurd hm List.not_mem_nil
  have htag : (resolve o fileId root).root.tag = .root := hroot
  rw [startsOf_toHtml_root htag, Node.descendants_eq]
  exact carriers_nodesToHtml hbelow

end Document

/-! ## Tables of contents -/

/-- Every link of a table of contents goes to an entry with a title. -/
theorem exists_titled_of_mem_toc {c : Contents} {b : Bibliography} {fileId : Nat} {s : HtmlState}
    {e : Html.Start} (he : e ∈ startsOf (c.toNode.toHtml b fileId s).1) {id : String}
    (hlink : LinksTo id e) :
    ∃ path, Contents.Titled path c ∧ id = "sec" ++ path.foldl Contents.joinNumber "" := by
  have hmem : e ∈ startsOf (nodesToHtml b fileId [c.toNode] s).1 := by
    rw [fst_nodesToHtml_cons, Html.startsOf_append]
    exact List.mem_append_left _ he
  obtain ⟨n, hn, inHead, hstart⟩ := exists_of_mem_startsOf hmem
  obtain ⟨hname, hhref⟩ := hlink
  have hcases := HtmlRenderer.eq_link_of_mem_starts hstart hname
  have htag : n.tag.isLink = true := by
    rcases hcases with ⟨h, -⟩ | ⟨h, -⟩ | ⟨h, -⟩
    · rw [h]; rfl
    · rw [h]; rfl
    · rw [h]; rfl
  have hitem : n ∈ descendantsOf (Contents.itemNodes "" c) := by
    rw [Node.descendantsOf_cons, Node.descendantsOf_nil, List.append_nil] at hn
    rcases List.mem_cons.1 hn with rfl | hn
    · exact absurd htag Bool.false_ne_true
    · exact Contents.mem_of_mem_listNodes hn htag
  -- of the three kinds of links, a table of contents holds only those to its sections
  obtain ⟨hlink, path, hpath, hattr⟩ := Contents.exists_titled_of_link hitem htag
  refine ⟨path, hpath, ?_⟩
  rcases hcases with ⟨-, h⟩ | ⟨h, -⟩ | ⟨h, -⟩
  · rw [h, List.mem_append, HtmlRenderer.mem_attrOf, HtmlRenderer.mem_attrOf, hattr] at hhref
    rcases hhref with ⟨-, hhref⟩ | ⟨hname, -⟩
    · have hsec : "#" ++ ("sec" ++ path.foldl Contents.joinNumber "") = "#" ++ id := by
        rw [← String.append_assoc]
        exact Option.some.inj hhref
      exact ((String.append_right_inj _).1 hsec).symm
    · exact absurd hname (by decide)
  · exact absurd (hlink.symm.trans h) (by decide)
  · exact absurd (hlink.symm.trans h) (by decide)

/-! ## References -/

/-- The node is a reference that is a link to an `id`. -/
def Node.RefersTo (n : Node) (id : String) : Prop :=
  n.tag = .reference ∧ ∃ number, n.children = [numberSpan (some ⟨number, id⟩)]

theorem href_numberSpan (target : Option Target) :
    (numberSpan target).attr? "href" = target.map ("#" ++ ·.anchor) := by
  cases target with
  | none => rfl
  | some target => simp [numberSpan, Node.setText, Node.setAttr, Node.attr?]

section Document

variable (o : NumberingOptions) (fileId : Nat) {root : Node} (hfresh : AllOf Fresh [root])

include hfresh

/-- A reference links to what its label points to. -/
theorem anchor_eq_of_refersTo {n : Node} (hn : n ∈ (resolve o fileId root).root.descendants)
    {id : String} (h : n.RefersTo id) {target : Target}
    (htarget : (resolve o fileId root).labels.get? n.key = some target) : target.anchor = id := by
  obtain ⟨htag, number, hchildren⟩ := h
  rw [Node.descendants_eq] at hn
  have hshown := (resolved_resolve o fileId hfresh n hn).reference htag
  rw [htarget, hchildren] at hshown
  have hhref := congrArg (·.attr? "href") (List.cons.inj hshown).1
  rw [href_numberSpan, href_numberSpan] at hhref
  exact ((String.append_right_inj _).1 (Option.some.inj hhref)).symm

/-- Every link of the class is that of a reference. -/
theorem exists_refersTo_of_mem_content (hroot : root.tag = .root) {b : Bibliography}
    {s : HtmlState} {e : Html.Start}
    (he : e ∈ startsOf ((resolve o fileId root).root.toHtml b fileId s).1)
    (hclass : HasClass "reference_number" e) {id : String} (hlink : LinksTo id e) :
    ∃ n ∈ (resolve o fileId root).root.descendants, n.RefersTo id := by
  obtain ⟨hname, hhref⟩ := hlink
  have htop : (resolve o fileId root).root.tag = .root := hroot
  rw [startsOf_toHtml_root htop] at he
  obtain ⟨n, hn, inHead, hstart⟩ := exists_of_mem_startsOf he
  rcases HtmlRenderer.eq_link_of_mem_starts hstart hname with ⟨-, h⟩ | ⟨-, -, h⟩ | ⟨htag, h⟩
  · exact absurd hclass (HtmlRenderer.not_hasClass_of_link _ h)
  · rw [HasClass, h] at hclass
    exact absurd hclass (by simp)
  · -- the link is a span of the tree, and such a span is in a reference only
    rw [← Node.descendants_eq] at hn
    obtain ⟨m, hm, hmtag, hchildren⟩ :=
      exists_reference_of_span o fileId hfresh hn (by simp [Node.hasRole, htag])
    refine ⟨m, hm, hmtag, ?_⟩
    rw [Node.descendants_eq] at hm
    have hshown := (resolved_resolve o fileId hfresh m hm).reference hmtag
    have hspan : n = numberSpan ((resolve o fileId root).labels.get? m.key) := by
      rw [hchildren] at hshown
      exact (List.cons.inj hshown).1
    have hattr : n.attr? "href" = some ("#" ++ id) := by
      simpa [h, HtmlRenderer.mem_attrOf] using hhref
    rw [hspan, href_numberSpan] at hattr
    obtain ⟨target, htarget, hanchor⟩ := Option.map_eq_some_iff.1 hattr
    obtain rfl : target.anchor = id := (String.append_right_inj _).1 hanchor
    exact ⟨target.number, by rw [hshown, htarget]⟩

end Document

/-! ## Targets -/

/-- The element is that of a statement of the kind. -/
def Html.IsOfKind (kind : Kind) (e : Html.Start) : Prop := ("type", kind.name) ∈ e.2

instance (kind : Kind) (e : Html.Start) : Decidable (Html.IsOfKind kind e) :=
  inferInstanceAs (Decidable (_ ∈ _))

theorem Kind.name_injective {k l : Kind} (h : k.name = l.name) : k = l := by
  have hk : Kind.ofName? k.name = some k := Kind.ofName?_eq_some_iff.2 rfl
  rw [h, Kind.ofName?_eq_some_iff.2 rfl] at hk
  exact (Option.some.inj hk).symm

/-- A statement opens one element, which tells its kind. -/
theorem HtmlRenderer.filter_isOfKind_starts {b : Bibliography} {fileId : Nat} {n : Node}
    {st : Statement} (h : n.tag = .block st) (kind : Kind) :
    (starts b fileId false n).filter (Html.IsOfKind kind ·) =
      if st.kind = kind then starts b fileId false n else [] := by
  have hkind : kind.name = st.kind.name ↔ st.kind = kind :=
    ⟨fun h => (Kind.name_injective h).symm, fun h => by rw [h]⟩
  simp [starts, leaf?, wrap, blockElement, h, startsOf, Html.starts, Html.IsOfKind, mem_attrOf,
    mem_attrIf, List.filter_cons, hkind]

theorem filter_flatMap_filter {α β : Type} {p k : α → Bool} {q : β → Bool} {f : α → List β}
    {l : List α} (h : ∀ a ∈ l, p a = true → (f a).filter q = if k a then f a else []) :
    ((l.filter p).flatMap f).filter q = (l.filter fun a => p a && k a).flatMap f := by
  induction l with
  | nil => rfl
  | cons a l ih =>
    have hl := ih fun a' ha' => h a' (List.mem_cons_of_mem a ha')
    cases hp : p a with
    | false => simp [hp, hl]
    | true =>
      have ha := h a List.mem_cons_self hp
      cases hk : k a <;> simp [hp, hk, hl, ha]

section Document

variable (o : NumberingOptions) (fileId : Nat) {root : Node} (hfresh : AllOf Fresh [root])

include hfresh

/-- The element of a statement is the only one with its `id` among those of its kind. -/
theorem carriers_of_block (hroot : root.tag = .root) {b : Bibliography} {s : HtmlState} {n : Node}
    (hn : n ∈ (resolve o fileId root).root.descendants) {id : String}
    (hid : n.attr? "id" = some id) {st : Statement} (htag : n.tag = .block st) :
    (carriers id (startsOf ((resolve o fileId root).root.toHtml b fileId s).1)).filter
      (Html.IsOfKind st.kind ·) = HtmlRenderer.starts b fileId false n := by
  obtain ⟨g, -, hg, hkind⟩ := exists_given_of_id o fileId hfresh hn hid
  have hbib : ∀ key, id ≠ "bib-" ++ key := fun key h => g.anchor_ne_bib key (hg.trans h)
  rw [carriers_content o fileId hfresh hroot fun key _ => hbib key,
    filter_anchor?_of_ne o fileId hfresh hbib,
    filter_flatMap_filter (k := fun m => m.tag.targetKind? = some (some st.kind))]
  · rw [show (fun m : Node => decide (m.attr? "id" = some id) &&
        decide (m.tag.targetKind? = some (some st.kind))) =
      fun m => decide (m.attr? "id" = some id ∧ m.tag.targetKind? = some (some st.kind)) from
        funext fun m => (Bool.decide_and _ _).symm, filter_id_of_block o fileId hfresh hn hid htag]
    simp
  · -- only statements have the `id` of a statement
    intro m hm hmid
    have hsame := isSome_targetKind?_of_id_eq o fileId hfresh hm hn (by simpa using hmid) hid
    rw [htag] at hsame
    obtain ⟨kind?, hkind, hsome⟩ := Option.map_eq_some_iff.1 hsame
    obtain ⟨kind, rfl⟩ := Option.isSome_iff_exists.1 hsome
    obtain ⟨st', hmtag, -⟩ := Tag.eq_block_of_targetKind? hkind
    rw [HtmlRenderer.filter_isOfKind_starts hmtag, hmtag]
    simp [Tag.targetKind?]

/-- The element of a node is the only one with the `id` of the node. -/
theorem carriers_of_filter (hroot : root.tag = .root) {b : Bibliography} {s : HtmlState}
    {n : Node} (hn : n ∈ (resolve o fileId root).root.descendants) {id : String}
    (hid : n.attr? "id" = some id)
    (hfilter : (resolve o fileId root).root.descendants.filter (·.attr? "id" = some id) = [n]) :
    carriers id (startsOf ((resolve o fileId root).root.toHtml b fileId s).1) =
      HtmlRenderer.starts b fileId false n := by
  obtain ⟨g, -, hg, -⟩ := exists_given_of_id o fileId hfresh hn hid
  have hbib : ∀ key, id ≠ "bib-" ++ key := fun key h => g.anchor_ne_bib key (hg.trans h)
  rw [carriers_content o fileId hfresh hroot fun key _ => hbib key,
    filter_anchor?_of_ne o fileId hfresh hbib, hfilter, List.flatMap_singleton]

/-- Where no two entries have the same key, an entry that is seen is the only one with its `id`. -/
theorem carriers_of_entry (hroot : root.tag = .root)
    (hkeys : (((resolve o fileId root).root.findAll (·.tag == .bibEntry)).map Node.key).Nodup)
    {b : Bibliography} {s : HtmlState} {n : Node}
    (hn : n ∈ (resolve o fileId root).root.descendants) (htag : n.tag = .bibEntry)
    (hseen : ¬ (resolve o fileId root).root.HidesEntry n.key) :
    carriers ("bib-" ++ n.key) (startsOf ((resolve o fileId root).root.toHtml b fileId s).1) =
      HtmlRenderer.starts b fileId false n := by
  have hid : ∀ key, (resolve o fileId root).root.HidesEntry key →
      "bib-" ++ n.key ≠ "bib-" ++ key := by
    intro key hhides heq
    rw [← (String.append_right_inj _).1 heq] at hhides
    exact hseen hhides
  rw [carriers_content o fileId hfresh hroot hid,
    filter_anchor?_of_entry o fileId hfresh hkeys hn htag, List.flatMap_singleton]

end Document

/-- A node with an `id` opens one element, which carries it. -/
theorem exists_starts_eq_singleton (b : Bibliography) (fileId : Nat) {n : Node} {id : String}
    (h : HtmlRenderer.anchor? n = some id) :
    ∃ e, HtmlRenderer.starts b fileId false n = [e] ∧ Carries id e := by
  obtain ⟨hcarries, hstarts⟩ := @HtmlRenderer.starts_of_anchor? b fileId false n
  obtain ⟨e, he, -⟩ := hstarts (by rw [h]; rfl)
  exact ⟨e, he, (hcarries e (by simp [he]) id).2 h⟩

/-! ## Where links go -/

section Document

variable (o : NumberingOptions) (fileId : Nat) {root : Node} (hfresh : AllOf Fresh [root])
  (hroot : root.tag = .root)

include hfresh hroot

/-- A link in the table of contents goes to the number of a heading. -/
theorem exists_target_of_contents {b b' : Bibliography} {s s' : HtmlState} {e : Html.Start}
    (he : e ∈ startsOf ((resolve o fileId root).contents.toNode.toHtml b' fileId s').1)
    {id : String} (hlink : LinksTo id e) :
    ∃ n ∈ (resolve o fileId root).root.descendants, n.tag = .span .sectionNumber ∧
      ∃ t, HtmlRenderer.starts b fileId false n = [t] ∧
        carriers id (startsOf ((resolve o fileId root).root.toHtml b fileId s).1) = [t] := by
  obtain ⟨path, hpath, rfl⟩ := exists_titled_of_mem_toc he hlink
  rw [contents_resolve o fileId hfresh, Numbering.contents_foldl_pass] at hpath
  have hnil : ∀ cs title, .section cs title ∈ givenNumbers o root → cs ≠ [] :=
    fun _ _ => Numbering.ne_nil_of_section_mem_given
  -- an entry with a title is that of a given section number, and this has its node in the tree
  rcases Contents.exists_section_of_titled hnil hpath with h | ⟨cs, title, hg, rfl⟩
  · exact absurd h (Contents.not_titled_nil path)
  · rw [Contents.foldl_joinNumber (hnil cs title hg)]
    obtain ⟨n, hn, hid, hkind⟩ := exists_id_of_given o fileId hfresh hg
    have htag : n.tag = .span .sectionNumber := Tag.eq_span_of_targetKind? hkind
    obtain ⟨t, ht, -⟩ := exists_starts_eq_singleton b fileId
      ((HtmlRenderer.anchor?_of_targetKind (by rw [hkind]; rfl)).trans hid)
    refine ⟨n, hn, htag, t, ht, ?_⟩
    rw [← ht]
    exact carriers_of_filter o fileId hfresh hroot hn hid
      (filter_id_of_section o fileId hfresh hn hid htag)

/-- A citation goes to the entry with its key. -/
theorem exists_target_of_citation
    (hkeys : (((resolve o fileId root).root.findAll (·.tag == .bibEntry)).map Node.key).Nodup)
    {s : HtmlState} {e : Html.Start}
    (he : e ∈ startsOf ((resolve o fileId root).root.toHtml
      (.ofDocument (resolve o fileId root).root) fileId s).1)
    (hclass : HasClass "citation" e) {id : String} (hlink : LinksTo id e) :
    ∃ n ∈ (resolve o fileId root).root.descendants, n.tag = .bibEntry ∧ id = "bib-" ++ n.key ∧
      (¬ (resolve o fileId root).root.HidesEntry n.key →
        ∃ t, HtmlRenderer.starts (.ofDocument (resolve o fileId root).root) fileId false n = [t] ∧
          carriers id (startsOf ((resolve o fileId root).root.toHtml
            (.ofDocument (resolve o fileId root).root) fileId s).1) = [t]) := by
  obtain ⟨hname, hhref⟩ := hlink
  have htop : (resolve o fileId root).root.tag = .root := hroot
  rw [startsOf_toHtml_root htop] at he
  obtain ⟨m, hm, inHead, hstart⟩ := exists_of_mem_startsOf he
  rcases HtmlRenderer.eq_link_of_mem_starts hstart hname with ⟨-, h⟩ | ⟨-, hknown, h⟩ | ⟨-, h⟩
  · exact absurd hclass (HtmlRenderer.not_hasClass_of_link _ h)
  · -- a citation is a link only if its key has a number, and then there is an entry
    obtain ⟨n, hn, htag, hkey⟩ := Bibliography.exists_entry hknown
    have hid : "#" ++ id = "#" ++ ("bib-" ++ m.key) := by
      rw [← String.append_assoc]
      simpa [h] using hhref
    obtain rfl : id = "bib-" ++ m.key := (String.append_right_inj _).1 hid
    rw [← hkey]
    refine ⟨n, hn, htag, rfl, fun hseen => ?_⟩
    have hanchor : HtmlRenderer.anchor? n = some ("bib-" ++ n.key) := by
      rw [HtmlRenderer.anchor?, htag]
    obtain ⟨t, ht, -⟩ :=
      exists_starts_eq_singleton (.ofDocument (resolve o fileId root).root) fileId hanchor
    refine ⟨t, ht, ?_⟩
    rw [← ht]
    exact carriers_of_entry o fileId hfresh hroot hkeys hn htag hseen
  · rw [HasClass, h, List.mem_cons, HtmlRenderer.mem_attrOf] at hclass
    rcases hclass with heq | ⟨hname, -⟩
    · exact absurd (Prod.mk.inj heq).2 (by decide)
    · exact absurd hname (by decide)

/-- A reference goes to the statement or the heading that its label stands for. -/
theorem exists_target_of_reference {b : Bibliography} {s : HtmlState} {n : Node}
    (hn : n ∈ (resolve o fileId root).root.descendants) {id : String} (href : n.RefersTo id)
    {m : Node} (hm : (resolve o fileId root).root.labelSite? n.key = some m) :
    m ∈ (resolve o fileId root).root.descendants ∧ m.IsSite ∧
      ∃ t, HtmlRenderer.starts b fileId false m = [t] ∧ Carries id t ∧
        (o.byKind = false ∨ m.tag = .span .sectionNumber →
          carriers id (startsOf ((resolve o fileId root).root.toHtml b fileId s).1) = [t]) ∧
        ∀ st, m.tag = .block st →
          (carriers id (startsOf ((resolve o fileId root).root.toHtml b fileId s).1)).filter
            (Html.IsOfKind st.kind ·) = [t] := by
  -- the label and the link agree on the anchor, as both are read off the same entry of the labels
  obtain ⟨hmem, hsite, target, htarget, hanchor⟩ := labelSite?_resolve o fileId hfresh hm
  obtain rfl : target.anchor = id := anchor_eq_of_refersTo o fileId hfresh hn href htarget
  have hkind : m.tag.targetKind?.isSome = true := by
    rcases hsite with ⟨st, htag, -⟩ | htag
    · rw [htag]; rfl
    · rw [htag]; rfl
  obtain ⟨t, ht, hcarries⟩ := exists_starts_eq_singleton b fileId
    ((HtmlRenderer.anchor?_of_targetKind hkind).trans hanchor)
  refine ⟨hmem, hsite, t, ht, hcarries, ?_, ?_⟩
  · intro halone
    rw [← ht]
    refine carriers_of_filter o fileId hfresh hroot hmem hanchor ?_
    rcases halone with ho | htag
    · exact filter_id o fileId hfresh ho hmem hanchor
    · exact filter_id_of_section o fileId hfresh hmem hanchor htag
  · intro st htag
    rw [← ht]
    exact carriers_of_block o fileId hfresh hroot hmem hanchor htag

end Document

/-! ## Documents -/

/-- The content of a document as HTML, before it is printed. -/
def Resolution.contentHtml (r : Resolution) (fileId : Nat) : List Html :=
  (r.root.toHtml (.ofDocument r.root) fileId {}).1

/-- The table of contents of a document as HTML, before it is printed. -/
def Resolution.contentsHtml (r : Resolution) (fileId : Nat) : List Html :=
  (r.contents.toNode.toHtml (.ofDocument r.root) fileId
    (r.root.toHtml (.ofDocument r.root) fileId {}).2).1

theorem convert_html {o : Options} (h : o.format = .html) (assets : AssetProbe)
    (source : List Char) (fileId : Nat) :
    let r := resolve o.numbering fileId ((Document.parse source fileId).tree o.sections)
    (convert o assets source fileId).content = Html.printAll (r.contentHtml fileId) ∧
      (convert o assets source fileId).contents = Html.printAll (r.contentsHtml fileId) := by
  rw [convert, convertDocument, h]
  exact ⟨rfl, rfl⟩

/-- Nodes of a kind that has no content, and that is neither numbered nor resolved, stay as they
were read. -/
theorem filter_resolve_tree (o : NumberingOptions) (source : List Char) (fileId : Nat)
    (sections : Bool) {t : Tag} (hleaf : t.isLeaf = true) (hplain : t.isPlain = true)
    (href : t ≠ .reference) :
    (resolve o fileId ((Document.parse source fileId).tree sections)).root.descendants.filter
        (·.tag == t) = (Document.parse source fileId).root.descendants.filter (·.tag == t) := by
  rw [filter_resolve o fileId (fresh_tree source fileId sections) hleaf hplain href]
  cases sections with
  | false => rfl
  | true =>
    have hsection : t ≠ .section := by
      rintro rfl
      exact absurd hleaf Bool.false_ne_true
    exact filter_buildSections hsection (Document.parse source fileId).root

/-- A document without raw markup is rendered without any. -/
theorem areRawFree_contentHtml {r : Resolution} (fileId : Nat) (hroot : r.root.tag = .root)
    (h : ∀ n ∈ r.root.descendants, n.tag ≠ .html) :
    Html.areRawFree (r.contentHtml fileId) = true := by
  have hall : AllOf (·.tag ≠ .html) [r.root] := by
    rw [Node.descendants_eq] at h
    exact (Node.allOf_cons _ _).2 ⟨by simp [hroot], h, Node.allOf_nil⟩
  have hfree : Html.areRawFree (nodesToHtml (.ofDocument r.root) fileId [r.root] {}).1 = true :=
    areRawFree_nodesToHtml hall
  rw [fst_nodesToHtml_cons, Html.areRawFree_append, Bool.and_eq_true] at hfree
  exact hfree.1

/-- The links of an HTML document. A link in the table of contents goes to the number of a heading,
a citation to the entry with its key, unless that is in an image, and a reference to the statement
or the heading that its label stands for. There is exactly one element with the `id`, except that
where each kind of statement is counted on its own, statements of other kinds may have the `id`,
too. -/
theorem links_have_targets (o : Options) (assets : AssetProbe) (source : List Char) (fileId : Nat)
    (hformat : o.format = .html)
    (hraw : ∀ n ∈ (Document.parse source fileId).root.descendants, n.tag ≠ .html)
    (hkeys : (((Document.parse source fileId).root.findAll (·.tag == .bibEntry)).map
      Node.key).Nodup) :
    let r := resolve o.numbering fileId ((Document.parse source fileId).tree o.sections)
    let starts := HtmlRenderer.starts (.ofDocument r.root) fileId false
    let content := startsOf (r.contentHtml fileId)
    ((convert o assets source fileId).content = Html.printAll (r.contentHtml fileId) ∧
      (convert o assets source fileId).contents = Html.printAll (r.contentsHtml fileId) ∧
      Html.areRawFree (r.contentHtml fileId) = true) ∧
    (∀ e ∈ startsOf (r.contentsHtml fileId), ∀ id, LinksTo id e →
      ∃ n ∈ r.root.descendants, n.tag = .span .sectionNumber ∧
        ∃ t, starts n = [t] ∧ carriers id content = [t]) ∧
    (∀ e ∈ content, HasClass "citation" e → ∀ id, LinksTo id e →
      ∃ n ∈ r.root.descendants, n.tag = .bibEntry ∧ id = "bib-" ++ n.key ∧
        (¬ r.root.HidesEntry n.key → ∃ t, starts n = [t] ∧ carriers id content = [t])) ∧
    (∀ e ∈ content, HasClass "reference_number" e → ∀ id, LinksTo id e →
      ∃ n ∈ r.root.descendants, n.RefersTo id) ∧
    (∀ n ∈ r.root.descendants, ∀ id, n.RefersTo id → ∀ m, r.root.labelSite? n.key = some m →
      m ∈ r.root.descendants ∧ m.IsSite ∧ ∃ t, starts m = [t] ∧ Carries id t ∧
        (o.numbering.byKind = false ∨ m.tag = .span .sectionNumber →
          carriers id content = [t]) ∧
        ∀ st, m.tag = .block st →
          (carriers id content).filter (Html.IsOfKind st.kind ·) = [t]) := by
  intro r starts content
  have hfresh := fresh_tree source fileId o.sections
  have hroot := tag_tree source fileId o.sections
  obtain ⟨hcontent, hcontents⟩ := convert_html hformat assets source fileId
  -- what is asked of the document as it was read holds of the resolved one
  have hentries : r.root.descendants.filter (·.tag == .bibEntry) =
      (Document.parse source fileId).root.descendants.filter (·.tag == .bibEntry) :=
    filter_resolve_tree o.numbering source fileId o.sections rfl rfl nofun
  have hmarkup : r.root.descendants.filter (·.tag == .html) =
      (Document.parse source fileId).root.descendants.filter (·.tag == .html) :=
    filter_resolve_tree o.numbering source fileId o.sections rfl rfl nofun
  have hkeys' : ((r.root.findAll (·.tag == .bibEntry)).map Node.key).Nodup := by
    rw [Node.findAll, hentries]
    exact hkeys
  have hraw' : ∀ n ∈ r.root.descendants, n.tag ≠ .html := by
    intro n hn htag
    have hmem : n ∈ r.root.descendants.filter (·.tag == .html) :=
      List.mem_filter.2 ⟨hn, beq_iff_eq.2 htag⟩
    rw [hmarkup] at hmem
    exact hraw n (List.mem_filter.1 hmem).1 htag
  refine ⟨⟨hcontent, hcontents, areRawFree_contentHtml fileId hroot hraw'⟩, ?_, ?_, ?_, ?_⟩
  · intro e he id hlink
    exact exists_target_of_contents o.numbering fileId hfresh hroot he hlink
  · intro e he hclass id hlink
    exact exists_target_of_citation o.numbering fileId hfresh hroot hkeys' he hclass hlink
  · intro e he hclass id hlink
    exact exists_refersTo_of_mem_content o.numbering fileId hfresh hroot he hclass hlink
  · intro n hn id href m hm
    exact exists_target_of_reference o.numbering fileId hfresh hroot hn href hm

/-- A theorem that is referred to. -/
theorem links_have_targets_of_theorem :
    let o : Options := {}
    let source :=
      "# One\n\n{#a} Theorem: x {}\n\nsee {ref: #a} and {bib: k}\n\n{bibitem: k} Book".toList
    let d := Document.parse source 0
    let r := resolve o.numbering 0 (d.tree o.sections)
    let content := startsOf (r.contentHtml 0)
    o.format = .html ∧ (∀ n ∈ d.root.descendants, n.tag ≠ .html) ∧
      ((d.root.findAll (·.tag == .bibEntry)).map Node.key).Nodup ∧
      ∃ n ∈ r.root.descendants, n.RefersTo "1.1" ∧
        ∃ m t, r.root.labelSite? n.key = some m ∧
          HtmlRenderer.starts (.ofDocument r.root) 0 false m = [t] ∧
          carriers "1.1" content = [t] := by
  intro o source d r content
  have hraw : ∀ n ∈ d.root.descendants, n.tag ≠ .html := by decide +kernel
  have hkeys : ((d.root.findAll (·.tag == .bibEntry)).map Node.key).Nodup := by decide +kernel
  have hlink : ("a", [("class", "reference_number"), ("href", "#1.1")]) ∈ content := by
    decide +kernel
  have hsites : ∀ n ∈ r.root.descendants, n.tag = .reference →
      (r.root.labelSite? n.key).isSome = true := by decide +kernel
  obtain ⟨-, -, -, hlinks, htargets⟩ := links_have_targets o noAssets source 0 rfl hraw hkeys
  obtain ⟨n, hn, href⟩ := hlinks _ hlink (by decide) "1.1" (by decide)
  obtain ⟨m, hm⟩ := Option.isSome_iff_exists.1 (hsites n hn href.1)
  obtain ⟨-, -, t, ht, -, halone, -⟩ := htargets n hn "1.1" href m hm
  exact ⟨rfl, hraw, hkeys, n, hn, href, m, t, hm, ht, halone (.inl rfl)⟩

/-- Links without exactly one target: to a statement, where one of another kind has the same number,
to a label that stands before the first heading and in no statement, and to an entry in an image. -/
theorem links_without_single_target :
    let tree (source : String) := (Document.parse source.toList 0).root
    let content (o : Options) (source : String) :=
      startsOf ((resolve o.numbering 0
        ((Document.parse source.toList 0).tree o.sections)).contentHtml 0)
    let plain (source : String) := (∀ n ∈ (tree source).descendants, n.tag ≠ .html) ∧
      (((tree source).findAll (·.tag == .bibEntry)).map Node.key).Nodup
    (let source := "{#a} Theorem: x {}\n\nLemma: y {}\n\nsee {ref: #a}"
      let es := content { numbering := { byKind := true } } source
      plain source ∧ (∃ e ∈ es, HasClass "reference_number" e ∧ LinksTo "0.1" e) ∧
        (carriers "0.1" es).length = 2) ∧
    (let source := "{#a}\n\nsee {ref: #a}"
      let es := content {} source
      plain source ∧ (∃ e ∈ es, HasClass "reference_number" e ∧ LinksTo "sec0" e) ∧
        carriers "sec0" es = []) ∧
    (let source := "![{bibitem: k}](p.png) {bib: k}"
      let es := content {} source
      plain source ∧ (∃ e ∈ es, HasClass "citation" e ∧ LinksTo "bib-k" e) ∧
        carriers "bib-k" es = []) := by
  decide +kernel

end Treatise
