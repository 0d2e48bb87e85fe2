import Treatise.Proofs.Numbering.Shown

/-!
# Targets of links

Which nodes of a resolved tree links lead to, and what is around them.

* **`marks_resolve`** — the nodes with an `id` are numbered statements and numbers of headings, and
  their marks, the kind together with the `id`, are those of the given numbers.
* **`filter_id_of_section`**, **`filter_id_of_block`**, **`filter_id`** — a mark is on one node
  only, and so is the `id` itself if it is that of a section or if all statements are counted
  together.
* **`Node.Resolved`** — what is known of every node of a resolved tree: empty nodes stay empty,
  nothing in an image is a target, and a reference shows what its label points to and nothing else
  does.
-/

namespace Treatise

open Node (Fresh AllOf descendantsOf)

/-! ## Marks -/

/-- What takes a number: a statement of a kind or, without one, the place in front of a heading. -/
def Tag.targetKind? : Tag → Option (Option Kind)
  | block st => some (some st.kind)
  | span .sectionNumber => some none
  | _ => none

theorem Tag.eq_block_of_targetKind? {tag : Tag} {kind : Kind}
    (h : tag.targetKind? = some (some kind)) : ∃ st, tag = .block st ∧ st.kind = kind := by
  unfold targetKind? at h
  split at h
  · next st => exact ⟨st, rfl, Option.some.inj (Option.some.inj h)⟩
  · cases h
  · cases h

theorem Tag.eq_span_of_targetKind? {tag : Tag} (h : tag.targetKind? = some none) :
    tag = .span .sectionNumber := by
  unfold targetKind? at h
  split at h
  · cases h
  · rfl
  · cases h

/-- The `id` of a node, together with what the node is. -/
def Node.mark? (n : Node) : Option (Option (Option Kind) × String) :=
  (n.attr? "id").map fun id => (n.tag.targetKind?, id)

/-- The mark of what has the number. -/
def GivenNumber.mark (g : GivenNumber) : Option (Option Kind) × String :=
  (some (g.statement?.map (·.1)), g.anchor)

theorem shows_marks : Shows (fun n => n.mark?.toList) (fun g => [g.mark]) where
  heading _ hn _ hm hid := by
    simp [Node.mark?, hn, hm, hid, Tag.targetKind?, GivenNumber.mark, GivenNumber.statement?,
      GivenNumber.anchor]
  statement hn _ hid := by
    simp [Node.mark?, hn, hid, Tag.targetKind?, GivenNumber.mark, GivenNumber.statement?,
      GivenNumber.anchor]
  other hn _ _ := by simp [Node.mark?, hn]

/-- Different numbers have different marks. -/
theorem GivenNumber.Apart.mark_ne {o : NumberingOptions} {g h : GivenNumber}
    (hapart : Apart o g h) : g.mark ≠ h.mark := by
  intro heq
  obtain ⟨hkind, hanchor⟩ := Prod.mk.inj heq
  cases g with
  | «section» cs title =>
    cases h with
    | «section» ds title' =>
      obtain rfl : cs = ds := dotted_injective (sectionAnchor_injective hanchor)
      exact List.lt_irrefl _ hapart
    | statement kind number => cases hkind
  | statement kind number =>
    cases h with
    | «section» ds title => cases hkind
    | statement kind' number' =>
      have hne := (hapart (dotted_injective hanchor)).2
      exact hne (by simpa [GivenNumber.statement?] using hkind)

/-- No statement has the anchor of a section. -/
theorem GivenNumber.isSome_statement?_of_anchor_eq {g h : GivenNumber}
    (heq : g.anchor = h.anchor) : g.statement?.isSome = h.statement?.isSome := by
  cases g with
  | «section» cs title =>
    cases h with
    | «section» ds title' => rfl
    | statement kind number => exact absurd heq (sectionAnchor_ne_dotted _ _)
  | statement kind number =>
    cases h with
    | «section» ds title => exact absurd heq.symm (sectionAnchor_ne_dotted _ _)
    | statement kind' number' => rfl

/-- Where `f` takes each value once, it takes the value of an element nowhere else. -/
theorem filter_eq_singleton {α β : Type} [DecidableEq β] {f : α → Option β} {l : List α} {x : α}
    {y : β} (h : (l.filterMap f).Nodup) (hx : x ∈ l) (hf : f x = some y) :
    l.filter (f · = some y) = [x] := by
  induction l with
  | nil => exact absurd hx List.not_mem_nil
  | cons a l ih =>
    rcases List.mem_cons.1 hx with rfl | hx
    · rw [List.filterMap_cons_some hf, List.nodup_cons] at h
      rw [List.filter_cons_of_pos (by simpa using hf)]
      have hnone : l.filter (f · = some y) = [] := by
        rw [List.filter_eq_nil_iff]
        intro b hb hy
        exact h.1 (List.mem_filterMap.2 ⟨b, hb, by simpa using hy⟩)
      rw [hnone]
    · cases ha : f a with
      | none =>
        rw [List.filterMap_cons_none ha] at h
        rw [List.filter_cons_of_neg (by simp [ha])]
        exact ih h hx
      | some z =>
        rw [List.filterMap_cons_some ha, List.nodup_cons] at h
        have hne : z ≠ y := by
          rintro rfl
          exact h.1 (List.mem_filterMap.2 ⟨x, hx, hf⟩)
        rw [List.filter_cons_of_neg (by simpa [ha] using hne)]
        exact ih h.2 hx

section Document

variable (o : NumberingOptions) (fileId : Nat) {root : Node} (hfresh : AllOf Fresh [root])

include hfresh

theorem marks_resolve :
    (resolve o fileId root).root.descendants.filterMap Node.mark? =
      (givenNumbers o root).map GivenNumber.mark := by
  rw [List.filterMap_eq_flatMap_toList, Node.descendants_eq,
    flatMap_resolve shows_marks o fileId hfresh, List.map_eq_flatMap]

theorem nodup_marks :
    ((resolve o fileId root).root.descendants.filterMap Node.mark?).Nodup := by
  rw [marks_resolve o fileId hfresh, List.Nodup, List.pairwise_map]
  have hapart : (givenNumbers o root).Pairwise (GivenNumber.Apart o) :=
    Numbering.pairwise_given o (.initial o) _
  exact hapart.imp fun hgh => hgh.mark_ne

/-- The given number of a node with an `id`. -/
theorem exists_given_of_id {n : Node} (hn : n ∈ (resolve o fileId root).root.descendants)
    {id : String} (hid : n.attr? "id" = some id) :
    ∃ g ∈ givenNumbers o root, g.anchor = id ∧
      n.tag.targetKind? = some (g.statement?.map (·.1)) := by
  have hmark : (n.tag.targetKind?, id) ∈
      (resolve o fileId root).root.descendants.filterMap Node.mark? :=
    List.mem_filterMap.2 ⟨n, hn, by rw [Node.mark?, hid, Option.map_some]⟩
  rw [marks_resolve o fileId hfresh] at hmark
  obtain ⟨g, hg, heq⟩ := List.mem_map.1 hmark
  obtain ⟨hkind, hanchor⟩ := Prod.mk.inj heq
  exact ⟨g, hg, hanchor, hkind.symm⟩

/-- The node of a given number. -/
theorem exists_id_of_given {g : GivenNumber} (hg : g ∈ givenNumbers o root) :
    ∃ n ∈ (resolve o fileId root).root.descendants, n.attr? "id" = some g.anchor ∧
      n.tag.targetKind? = some (g.statement?.map (·.1)) := by
  have hmark : g.mark ∈ (resolve o fileId root).root.descendants.filterMap Node.mark? := by
    rw [marks_resolve o fileId hfresh]
    exact List.mem_map_of_mem hg
  obtain ⟨n, hn, heq⟩ := List.mem_filterMap.1 hmark
  obtain ⟨id, hid, heq⟩ := Option.map_eq_some_iff.1 heq
  obtain ⟨hkind, rfl⟩ := Prod.mk.inj heq
  exact ⟨n, hn, hid, hkind⟩

/-- Of nodes with the same `id` all are statements, or none is. -/
theorem isSome_targetKind?_of_id_eq {n m : Node}
    (hn : n ∈ (resolve o fileId root).root.descendants)
    (hm : m ∈ (resolve o fileId root).root.descendants) {id : String}
    (hid : n.attr? "id" = some id) (hmid : m.attr? "id" = some id) :
    n.tag.targetKind?.map Option.isSome = m.tag.targetKind?.map Option.isSome := by
  obtain ⟨g, -, hg, hgkind⟩ := exists_given_of_id o fileId hfresh hn hid
  obtain ⟨h, -, hh, hhkind⟩ := exists_given_of_id o fileId hfresh hm hmid
  rw [hgkind, hhkind, Option.map_some, Option.map_some, Option.isSome_map, Option.isSome_map,
    GivenNumber.isSome_statement?_of_anchor_eq (hg.trans hh.symm)]

/-- Where all statements are counted together, an `id` is on one node only. -/
theorem filter_id (ho : o.byKind = false) {n : Node}
    (hn : n ∈ (resolve o fileId root).root.descendants) {id : String}
    (hid : n.attr? "id" = some id) :
    (resolve o fileId root).root.descendants.filter (·.attr? "id" = some id) = [n] := by
  refine filter_eq_singleton (f := (·.attr? "id")) ?_ hn hid
  have hids : (resolve o fileId root).root.descendants.filterMap (·.attr? "id") =
      ((resolve o fileId root).root.descendants.filterMap Node.mark?).map Prod.snd := by
    rw [List.map_filterMap]
    refine List.filterMap_congr fun m _ => ?_
    cases hm : m.attr? "id" <;> simp [Node.mark?, hm]
  rw [hids, marks_resolve o fileId hfresh, List.map_map, List.Nodup, List.pairwise_map]
  have hapart : (givenNumbers o root).Pairwise (GivenNumber.Apart o) :=
    Numbering.pairwise_given o (.initial o) _
  exact hapart.imp fun hgh => hgh.anchor_ne ho

/-- The `id` of a statement is on no other statement of its kind. -/
theorem filter_id_of_block {n : Node} (hn : n ∈ (resolve o fileId root).root.descendants)
    {id : String} (hid : n.attr? "id" = some id) {st : Statement} (htag : n.tag = .block st) :
    (resolve o fileId root).root.descendants.filter
      (fun m => m.attr? "id" = some id ∧ m.tag.targetKind? = some (some st.kind)) = [n] := by
  have hmark : n.mark? = some (some (some st.kind), id) := by
    rw [Node.mark?, hid, htag, Option.map_some, Tag.targetKind?]
  rw [← filter_eq_singleton (nodup_marks o fileId hfresh) hn hmark]
  refine List.filter_congr fun m _ => ?_
  cases hm : m.attr? "id" <;> simp [Node.mark?, hm, and_comm]

/-- The `id` of a section is on one node only. -/
theorem filter_id_of_section {n : Node} (hn : n ∈ (resolve o fileId root).root.descendants)
    {id : String} (hid : n.attr? "id" = some id) (htag : n.tag = .span .sectionNumber) :
    (resolve o fileId root).root.descendants.filter (·.attr? "id" = some id) = [n] := by
  have hmark : n.mark? = some (some none, id) := by
    rw [Node.mark?, hid, htag, Option.map_some, Tag.targetKind?]
  rw [← filter_eq_singleton (nodup_marks o fileId hfresh) hn hmark]
  refine List.filter_congr fun m hm => ?_
  cases hmid : m.attr? "id" with
  | none => simp [Node.mark?, hmid]
  | some id' =>
    -- a statement with the `id` would make `n` a statement, too
    have hkind : id' = id → m.tag.targetKind? = some none := by
      rintro rfl
      have hsame := isSome_targetKind?_of_id_eq o fileId hfresh hm hn hmid hid
      rw [htag] at hsame
      obtain ⟨kind?, hkind, hnone⟩ := Option.map_eq_some_iff.1 hsame
      rw [hkind, Option.eq_none_of_isNone (Option.isSome_eq_false_iff.1 hnone)]
    rw [decide_eq_decide]
    simp only [Node.mark?, hmid, Option.map_some, Option.some.injEq, Prod.mk.injEq]
    exact ⟨fun h => ⟨hkind h, h⟩, fun h => h.2⟩

end Document

/-! ## Around targets -/

/-- A node as it stands in a resolved tree. -/
structure Node.Resolved (labels : Dict Target) (n : Node) : Prop where
  leaf : n.tag.isLeaf = true → n.tag ≠ .reference → n.children = []
  image : n.tag = .image → AllOf (·.attr? "id" = none) n.children
  reference : n.tag = .reference → n.children = [numberSpan (labels.get? n.key)]
  span : ∀ c ∈ n.children, c.hasRole .referenceNumber = true → n.tag = .reference

/-- A node of some other kind holds no number of a reference. -/
theorem Node.Resolved.of_ne {labels : Dict Target} {n : Node} (hleaf : n.tag.isLeaf = false)
    (himage : n.tag ≠ .image)
    (hspan : ∀ c ∈ n.children, c.hasRole .referenceNumber = false) : n.Resolved labels where
  leaf h := absurd h (by simp [hleaf])
  image h := absurd h himage
  reference h := absurd hleaf (by simp [h, Tag.isLeaf])
  span c hc h := absurd h (by simp [hspan c hc])

theorem Node.Resolved.of_children_nil {labels : Dict Target} {n : Node} (h : n.children = [])
    (href : n.tag ≠ .reference) : n.Resolved labels where
  leaf _ _ := h
  image _ := by rw [h]; exact Node.allOf_nil
  reference htag := absurd htag href
  span := by simp [h]

section Resolved

variable {labels : Dict Target} {fileId : Nat} {o : NumberingOptions}
  {enclosing : List (Option Target)} {s s' : Numbering} {ns ms : List Node}

theorem eq_nil_of_settles (h : Settles o labels fileId enclosing s ns ms s') (hns : ns = []) :
    ms = [] := by
  cases h with
  | nil => rfl
  | _ => cases hns

/-- Nothing in running text is a target. -/
theorem no_id_of_settles_inline (h : Settles o labels fileId enclosing s ns ms s')
    (hinline : ∀ n ∈ ns, n.tag.isInline = true) : AllOf (·.attr? "id" = none) ms := by
  induction h with
  | nil => exact Node.allOf_nil
  | label fresh tag _ behind =>
    rw [List.forall_mem_cons] at hinline
    rw [Node.allOf_cons, fresh.children_eq_nil (.inl tag)]
    exact ⟨fresh.no_id, Node.allOf_nil, behind hinline.2⟩
  | reference fresh _ _ behind =>
    rw [List.forall_mem_cons] at hinline
    rw [Node.allOf_cons, Node.allOf_cons, children_numberSpan]
    exact ⟨fresh.no_id, ⟨id_numberSpan _, Node.allOf_nil, Node.allOf_nil⟩, behind hinline.2⟩
  | @plain _ _ _ _ n cs _ _ fresh _ _ hbelow _ below behind =>
    rw [List.forall_mem_cons] at hinline
    rw [Node.allOf_cons]
    refine ⟨fresh.no_id, ?_, behind hinline.2⟩
    -- running text holds running text, or nothing
    by_cases hholds : n.tag.holdsInline = true
    · exact below (fresh.inline hholds)
    · have hleaf : n.tag.isLeaf = true := by
        have htag := hinline.1
        cases hn : n.tag <;> simp_all [Tag.isInline, Tag.holdsInline, Tag.isLeaf]
      show AllOf _ cs
      rw [eq_nil_of_settles hbelow (fresh.leaf hleaf)]
      exact Node.allOf_nil
  | heading _ tag | numbered _ tag | unnumbered _ tag | place _ tag | «section» _ tag =>
    rw [List.forall_mem_cons, tag] at hinline
    exact absurd hinline.1 Bool.false_ne_true

/-- The nodes of a resolved tree are resolved, and none at its top is the number of a reference. -/
theorem resolved_of_settles (h : Settles o labels fileId enclosing s ns ms s') :
    (∀ m ∈ ms, m.hasRole .referenceNumber = false) ∧ AllOf (Node.Resolved labels) ms := by
  induction h with
  | nil => exact ⟨by simp, Node.allOf_nil⟩
  | @heading _ s _ _ n _ _ level fresh tag _ _ below behind =>
    -- the number in front is a new node, the only one that numbering makes
    have hspan : (Node.sectionSpan (dotted (Numbering.nextComponents s.components level))
        n.text).Resolved labels :=
      .of_children_nil rfl (by intro h; cases h)
    rw [List.forall_mem_cons, Node.allOf_cons]
    refine ⟨⟨fresh.no_referenceNumber, behind.1⟩,
      .of_ne (by simp [Node.numberedHeading, tag, Tag.isLeaf])
        (by simp [Node.numberedHeading, tag]) ?_, ?_, behind.2⟩
    · exact List.forall_mem_cons.2 ⟨rfl, below.1⟩
    · exact (Node.allOf_cons _ _).2 ⟨hspan, Node.allOf_nil, below.2⟩
  | numbered _ _ _ _ _ _ below behind =>
    rw [List.forall_mem_cons, Node.allOf_cons]
    exact ⟨⟨rfl, behind.1⟩, .of_ne rfl (by intro h; cases h) below.1, below.2, behind.2⟩
  | unnumbered _ _ _ _ _ _ below behind =>
    rw [List.forall_mem_cons, Node.allOf_cons]
    exact ⟨⟨rfl, behind.1⟩, .of_ne rfl (by intro h; cases h) below.1, below.2, behind.2⟩
  | @place enclosing _ _ n _ _ fresh tag _ behind =>
    have hnil : (n.setText (shownNumber enclosing)).children = [] :=
      fresh.children_eq_nil (.inr tag)
    rw [List.forall_mem_cons, Node.allOf_cons, hnil]
    exact ⟨⟨fresh.no_referenceNumber, behind.1⟩,
      .of_children_nil hnil (by simp [Node.setText, tag]), Node.allOf_nil, behind.2⟩
  | label fresh tag _ behind =>
    have hnil := fresh.children_eq_nil (.inl tag)
    rw [List.forall_mem_cons, Node.allOf_cons, hnil]
    exact ⟨⟨fresh.no_referenceNumber, behind.1⟩, .of_children_nil hnil (by simp [tag]),
      Node.allOf_nil, behind.2⟩
  | @reference _ _ _ n _ _ fresh tag _ behind =>
    -- a reference is the one leaf that has a child behind both walks
    have hspan : (numberSpan (labels.get? n.key)).Resolved labels :=
      .of_children_nil (children_numberSpan _) (by simp)
    rw [List.forall_mem_cons, Node.allOf_cons, Node.allOf_cons, children_numberSpan]
    refine ⟨⟨fresh.no_referenceNumber, behind.1⟩, ⟨?_, ?_, fun _ => rfl, fun _ _ _ => tag⟩,
      ⟨hspan, Node.allOf_nil, Node.allOf_nil⟩, behind.2⟩
    · exact fun _ href => absurd tag href
    · exact fun himage => absurd (tag.symm.trans himage) (by decide)
  | @«section» _ _ _ _ n before _ _ fresh tag _ _ _ below behind =>
    rw [List.forall_mem_cons, Node.allOf_cons]
    refine ⟨⟨?_, behind.1⟩, .of_ne (by simp [tag, Tag.isLeaf]) (by simp [tag]) below.1, below.2,
      behind.2⟩
    simp [Node.hasRole, tag]
  | @plain _ _ _ _ n cs _ _ fresh tag notReference hbelow _ below behind =>
    rw [List.forall_mem_cons, Node.allOf_cons]
    refine ⟨⟨fresh.no_referenceNumber, behind.1⟩, ⟨?_, ?_, ?_, ?_⟩, below.2, behind.2⟩
    · exact fun hleaf _ => eq_nil_of_settles hbelow (fresh.leaf hleaf)
    · -- an image holds running text
      intro himage
      refine no_id_of_settles_inline hbelow (fresh.inline ?_)
      rw [show n.tag = .image from himage]
      rfl
    · exact fun href => absurd href notReference
    · exact fun c hc hspan => absurd hspan (by simp [below.1 c hc])

/-- Nodes of a kind that has no content, and that is neither numbered nor resolved, stay as they
are. -/
theorem filter_of_settles (h : Settles o labels fileId enclosing s ns ms s') {t : Tag}
    (hleaf : t.isLeaf = true) (hplain : t.isPlain = true) (href : t ≠ .reference) :
    (descendantsOf ms).filter (·.tag == t) = (descendantsOf ns).filter (·.tag == t) := by
  -- a node that either walk changes is of another kind, so the filter passes over it
  have hfalse {tag : Tag} (h : ¬ (tag.isLeaf = true ∧ tag.isPlain = true ∧ tag ≠ .reference)) :
      (tag == t) = false := by
    rw [beq_eq_false_iff_ne]
    rintro rfl
    exact h ⟨hleaf, hplain, href⟩
  have hskip {n : Node} (h : (n.tag == t) = false) (ns : List Node) :
      (descendantsOf (n :: ns)).filter (·.tag == t) =
        (descendantsOf n.children).filter (·.tag == t) ++
          (descendantsOf ns).filter (·.tag == t) := by
    rw [Node.descendantsOf_cons, List.filter_cons_of_neg (by simp [h]), List.filter_append]
  induction h with
  | nil => rfl
  | @heading _ s _ _ n _ _ level _ tag _ _ below behind =>
    have hn : (n.tag == t) = false := hfalse (by simp [tag, Tag.isLeaf])
    have hspan : ((Node.sectionSpan (dotted (Numbering.nextComponents s.components level))
        n.text).tag == t) = false :=
      hfalse (by rintro ⟨h, -⟩; cases h)
    rw [hskip hn, hskip (n := n.numberedHeading _ _) hn, Node.descendantsOf_numberedHeading,
      List.filter_cons_of_neg (by simp [hspan]), below, behind]
  | @numbered _ _ _ _ n cs _ _ _ st' _ tag _ _ _ _ below behind =>
    have hn : (n.tag == t) = false := hfalse (by simp [tag, Tag.isLeaf])
    have hst : (Tag.block st' == t) = false := hfalse (by rintro ⟨h, -⟩; cases h)
    rw [hskip hn, hskip
      (n := Node.setStatementNumber _ { n with tag := .block st', children := cs }) hst, ← below,
      behind]
    rfl
  | @unnumbered _ _ _ _ n cs _ _ _ st' _ tag _ _ _ _ below behind =>
    have hn : (n.tag == t) = false := hfalse (by simp [tag, Tag.isLeaf])
    rw [hskip hn, hskip (n := Node.clearAnchor { n with tag := .block st', children := cs })
      (hfalse (by rintro ⟨h, -⟩; cases h)), ← below, behind]
    rfl
  | @place enclosing _ _ n _ _ fresh tag _ behind =>
    have hn : (n.tag == t) = false := hfalse (by simp [tag, Tag.isPlain])
    rw [hskip hn, hskip (n := n.setText (shownNumber enclosing)) hn, behind]
    rfl
  | label _ _ _ behind =>
    rw [Node.descendantsOf_cons, Node.descendantsOf_cons, List.filter_cons, List.filter_cons,
      List.filter_append, List.filter_append, behind]
  | @reference _ _ _ n _ _ fresh tag _ behind =>
    have hn : (n.tag == t) = false := hfalse (by simp [tag])
    have hspan : ((numberSpan (labels.get? n.key)).tag == t) = false :=
      hfalse (by simp [Tag.isLeaf])
    have hnil : n.children = [] := fresh.leaf (by rw [tag]; rfl)
    rw [hskip hn, hskip (n := { n with children := [numberSpan (labels.get? n.key)] }) hn, behind,
      hskip hspan, hnil, children_numberSpan]
    rfl
  | @«section» _ _ _ _ n _ _ _ _ tag _ _ _ below behind =>
    have hn : (n.tag == t) = false := hfalse (by simp [tag, Tag.isLeaf])
    rw [hskip hn, hskip (n := n.settledSection _ _) (by simp [hn]), Node.children_settledSection,
      below, behind]
  | @plain _ _ _ _ n cs _ _ fresh tag notReference hbelow _ below behind =>
    by_cases hn : (n.tag == t) = true
    · -- such a node has no children, so that it stays the same node
      have hnil : n.children = [] := fresh.leaf (by rw [beq_iff_eq.1 hn, hleaf])
      have heq : ({ n with children := cs } : Node) = n := by
        rw [eq_nil_of_settles hbelow hnil, ← hnil, Node.eta]
      rw [heq, Node.descendantsOf_cons, Node.descendantsOf_cons, List.filter_cons,
        List.filter_cons, List.filter_append, List.filter_append, behind]
    · have hn : (n.tag == t) = false := Bool.eq_false_iff.2 hn
      rw [hskip hn, hskip (n := { n with children := cs }) hn, ← below, behind]

end Resolved

section Document

variable (o : NumberingOptions) (fileId : Nat) {root : Node} (hfresh : AllOf Fresh [root])

include hfresh

theorem resolved_resolve :
    AllOf (Node.Resolved (resolve o fileId root).labels) (resolve o fileId root).root.children :=
  (resolved_of_settles (settles_resolve o fileId hfresh)).2

theorem filter_resolve {t : Tag} (hleaf : t.isLeaf = true) (hplain : t.isPlain = true)
    (href : t ≠ .reference) :
    (resolve o fileId root).root.descendants.filter (·.tag == t) =
      root.descendants.filter (·.tag == t) := by
  rw [Node.descendants_eq, Node.descendants_eq]
  exact filter_of_settles (settles_resolve o fileId hfresh) hleaf hplain href

/-- The number of a reference is all that the reference holds. -/
theorem exists_reference_of_span {n : Node}
    (hn : n ∈ (resolve o fileId root).root.descendants)
    (hrole : n.hasRole .referenceNumber = true) :
    ∃ m ∈ (resolve o fileId root).root.descendants, m.tag = .reference ∧ m.children = [n] := by
  obtain ⟨htop, hresolved⟩ := resolved_of_settles (settles_resolve o fileId hfresh)
  rw [Node.descendants_eq] at hn ⊢
  rcases Node.mem_or_exists_parent hn with hmem | ⟨m, hm, hmem⟩
  · -- at the top of the tree there is none
    exact absurd hrole (by simp [htop n hmem])
  · have htag : m.tag = .reference := (hresolved m hm).span n hmem hrole
    have hchildren := (hresolved m hm).reference htag
    rw [hchildren, List.mem_singleton] at hmem
    exact ⟨m, hm, htag, by rw [hchildren, hmem]⟩

end Document

end Treatise
