import Treatise.Proofs.Numbering.Statements

/-!
# Where statements stand

A statement is opened when the statements around it are still open, and gets the mark at the end of a
proof when it is closed, perhaps by the end of the document. What it carries then says where it
stands in the complete tree.

* **`Node.Appends`** — what reading does to a node: children that are no statements are put behind
  those that it has.
* **`Node.Stands`** — a node as it stands where so many proofs enclose it. Every part that is put into
  a container keeps it (`Part.holds_into`).
* **`statements_show_their_place`** — in the tree of every source, statements stand only inside
  statements, each behind its heading, and proofs count the proofs around them and end in a mark.
-/

namespace Treatise

open Markdown (Element Event)
open Node (AllOf descendantsOf placesOf)

/-! ## What reading adds -/

/-- A node that a text can make: neither a statement nor the mark at the end of a proof. -/
def Tag.isContent : Tag → Bool
  | block _ => false
  | span .qed => false
  | _ => true

theorem Tag.isContent_of_isSingle {t : Tag} (h : t.isSingle = true) : t.isContent = true := by
  cases t <;> first | rfl | cases h

namespace Node

def IsContent (n : Node) : Prop := n.tag.isContent = true

/-- The node without the words behind it. -/
def untailed (n : Node) : Node := { n with tail := "" }

/-- `m` is `n` with content behind its children. The words behind its last child may change. -/
structure Appends (n m : Node) : Prop where
  tag_eq : m.tag = n.tag
  children : ∃ more, AllOf IsContent more ∧
    m.children.map untailed = (n.children ++ more).map untailed

variable {n m k c : Node}

theorem IsContent.isStatement (h : n.IsContent) : n.isStatement = false := by
  refine isStatement_of_ne fun st htag => ?_
  rw [IsContent, htag] at h
  exact absurd h Bool.false_ne_true

theorem IsContent.hasRole_qed (h : n.IsContent) : n.hasRole .qed = false := by
  rw [hasRole, beq_eq_false_iff_ne]
  intro htag
  rw [IsContent, htag] at h
  exact absurd h Bool.false_ne_true

theorem IsContent.single (h : n.IsContent) (hnil : n.children = []) : AllOf IsContent [n] := by
  rw [allOf_cons, hnil]
  exact ⟨h, allOf_nil, allOf_nil⟩

theorem map_untailed_extendLastTail (s : String) (ns : List Node) :
    (extendLastTail s ns).map untailed = ns.map untailed := by
  fun_induction extendLastTail s ns with
  | case1 => rfl
  | case2 => rfl
  | case3 n m ns ih => rw [List.map_cons, ih, ← List.map_cons]

theorem allOf_map_untailed {ns : List Node} :
    AllOf IsContent (ns.map untailed) ↔ AllOf IsContent ns := by
  induction ns with
  | nil => exact Iff.rfl
  | cons n ns ih =>
    rw [List.map_cons, allOf_cons, allOf_cons, ih]
    exact Iff.rfl

theorem Appends.refl (n : Node) : Appends n n :=
  ⟨rfl, [], allOf_nil, by rw [List.append_nil]⟩

theorem Appends.trans (h : Appends n m) (h' : Appends m k) : Appends n k := by
  obtain ⟨more, hmore, hchildren⟩ := h.children
  obtain ⟨more', hmore', hchildren'⟩ := h'.children
  refine ⟨h'.tag_eq.trans h.tag_eq, more ++ more', (allOf_append _ _).2 ⟨hmore, hmore'⟩, ?_⟩
  rw [hchildren', List.map_append, hchildren, ← List.map_append, List.append_assoc]

/-- A property that does not see tails holds of the children when it holds of those that were there
and of all content. -/
theorem Appends.forall_children {p : Node → Prop} (h : Appends n m)
    (htail : ∀ c : Node, p c.untailed ↔ p c) (hcontent : ∀ c, AllOf IsContent [c] → p c)
    (hn : ∀ c ∈ n.children, p c) : ∀ c ∈ m.children, p c := by
  obtain ⟨more, hmore, hchildren⟩ := h.children
  intro c hc
  have hmem : c.untailed ∈ (n.children ++ more).map untailed :=
    hchildren ▸ List.mem_map_of_mem hc
  obtain ⟨d, hd, heq⟩ := List.mem_map.1 hmem
  rw [← htail, ← heq, htail]
  rcases List.mem_append.1 hd with hd | hd
  · exact hn d hd
  · refine hcontent d ((allOf_cons d []).2 ⟨?_, ?_, allOf_nil⟩)
    · exact hmore d (mem_descendantsOf_of_mem hd)
    · exact hmore.children (mem_descendantsOf_of_mem hd)

theorem Appends.allOf (h : Appends n m) (hn : AllOf IsContent [n]) : AllOf IsContent [m] := by
  obtain ⟨htop, hbelow, -⟩ := (allOf_cons n []).1 hn
  obtain ⟨more, hmore, hchildren⟩ := h.children
  refine (allOf_cons m []).2 ⟨?_, ?_, allOf_nil⟩
  · rw [IsContent, h.tag_eq]
    exact htop
  · rw [← allOf_map_untailed, hchildren, allOf_map_untailed]
    exact (allOf_append _ _).2 ⟨hbelow, hmore⟩

theorem appends_setText (n : Node) (s : String) : Appends n (n.setText s) :=
  ⟨rfl, (Appends.refl n).children⟩

theorem appends_appendText (n : Node) (s : String) : Appends n (n.appendText s) := by
  unfold appendText
  split
  · exact appends_setText n _
  · exact ⟨rfl, [], allOf_nil, by rw [map_untailed_extendLastTail, List.append_nil]⟩

theorem appends_push (n : Node) (hc : AllOf IsContent [c]) : Appends n (n.push c) :=
  ⟨rfl, [c], hc, rfl⟩

theorem appends_addText (n : Node) (s : List Char) : Appends n (n.addText s) := by
  unfold addText
  generalize Segment.scan s = segments
  induction segments generalizing n with
  | nil => exact .refl n
  | cons segment segments ih =>
    have hstep : Appends n (n.addSegment segment) := by
      cases segment with
      | text s => exact appends_appendText n _
      | mark m inner =>
        obtain ⟨kind, key⟩ := m
        cases kind <;> exact appends_push n (.single rfl rfl)
    exact hstep.trans (ih _)

theorem content_ofElement (e : Element) : AllOf IsContent [ofElement e] := by
  refine .single ?_ ?_
  · cases e <;> simp only [IsContent, ofElement, tag_withTitle] <;> rfl
  · cases e <;> simp only [ofElement, children_withTitle] <;> rfl

end Node

open Node (IsContent Appends)

namespace Growth

/-- Nested events put content into the innermost node, wherever they stand. -/
theorem nestingLaw_appends : NestingLaw Event.fits (fun _ _ => True) Appends where
  refl := .refl
  trans := .trans
  text := Node.appends_setText
  single {holder g e} _ hout hsingle _ := by
    rcases step_single hout hsingle with ⟨w, hstep⟩ | ⟨c, hc, hnil, hstep⟩
    · exact ⟨_, w, hstep, .refl _, trivial⟩
    · have htext := Node.appends_addText g.top g.waiting.toList
      have hcontent : IsContent c := Tag.isContent_of_isSingle hc
      exact ⟨_, "", hstep, htext.trans (Node.appends_push _ (hcontent.single hnil)), trivial⟩
  enter _ _ := trivial
  flush {e g} _ _ := Node.appends_addText g.top _
  push {holder g e c} _ _ _ hc := by
    have htext := Node.appends_addText g.top g.waiting.toList
    exact ⟨htext.trans (Node.appends_push _ (hc.allOf (Node.content_ofElement e))), trivial⟩

end Growth

/-- A Markdown text puts content behind what a node has. -/
theorem appends_readInto (s : List Char) (n : Node) : Appends n (readInto s n) := by
  obtain ⟨m, w, hfold, -, happends, -⟩ := Growth.nestingLaw_appends.foldl_step
    (Markdown.wellNested_readEvents s) (Growth.start n) rfl trivial
  rw [readInto_eq_of_foldl hfold]
  exact Appends.trans happends (Node.appends_addText m w.toList)

/-! ## Statements where they stand -/

namespace Node

/-- A proof. -/
def isProof (n : Node) : Bool := n.kind?.any Kind.isProof

/-- A node as it stands where so many proofs enclose it: content, in which there is no statement, or
a statement that begins with its heading and, if it is a proof, counts the proofs around it and ends
in its mark. -/
inductive Stands : (proofs : Nat) → Node → Prop
  | content {proofs : Nat} {n : Node} (below : AllOf (·.isStatement = false) [n]) : Stands proofs n
  | statement {proofs : Nat} {n : Node} {st : Statement} {body : List Node} (tag : n.tag = .block st)
      (begins : n.BeginsWith st.heading)
      (depth : st.kind.isProof = true → st.proofDepth = proofs)
      (inside : ∀ c ∈ body, Stands (if st.kind.isProof then proofs + 1 else proofs) c)
      (unmarked : ∀ c ∈ body, c.hasRole .qed = false)
      (children : n.children = body ++ if st.kind.isProof then [qedMark st.proofDepth] else []) :
      Stands proofs n

/-- The children stand where so many proofs enclose them, and none of them is a mark. -/
def Holds (proofs : Nat) (n : Node) : Prop :=
  ∀ c ∈ n.children, c.Stands proofs ∧ c.hasRole .qed = false

variable {proofs : Nat} {n m c : Node}

theorem stands_setTail {tail : String} :
    Stands proofs { n with tail := tail } ↔ n.Stands proofs := by
  constructor
  · intro h
    cases h with
    | content below => exact .content ((allOf_cons _ []).2 ((allOf_cons _ []).1 below))
    | statement tag begins depth inside unmarked children =>
      exact .statement tag begins depth inside unmarked children
  · intro h
    cases h with
    | content below => exact .content ((allOf_cons _ []).2 ((allOf_cons _ []).1 below))
    | statement tag begins depth inside unmarked children =>
      exact .statement tag begins depth inside unmarked children

theorem stands_of_content (h : AllOf IsContent [n]) : n.Stands proofs :=
  .content fun m hm => (h m hm).isStatement

theorem Holds.appends (hn : n.Holds proofs) (h : Appends n m) : m.Holds proofs := by
  refine h.forall_children (p := fun c => c.Stands proofs ∧ c.hasRole .qed = false) ?_ ?_ hn
  · exact fun c => and_congr_left' stands_setTail
  · exact fun c hc => ⟨stands_of_content hc, ((allOf_cons c []).1 hc).1.hasRole_qed⟩

theorem Holds.push (hn : n.Holds proofs) (hc : c.Stands proofs) (hqed : c.hasRole .qed = false) :
    (n.push c).Holds proofs := by
  intro d hd
  rcases List.mem_append.1 hd with hd | hd
  · exact hn d hd
  · rw [List.mem_singleton.1 hd]
    exact ⟨hc, hqed⟩

end Node

open Node (Stands Holds)

namespace Statement

theorem holds_opened (s : Statement) (proofs : Nat) : s.opened.Holds proofs := by
  intro c hc
  rw [List.mem_singleton.1 hc]
  have hparts : AllOf (·.isStatement = false) s.headingParts := by
    refine s.allOf_headingParts fun n htag _ => isStatement_of_ne fun st hst => ?_
    rw [hst] at htag
    exact absurd htag Bool.false_ne_true
  exact ⟨.content ((Node.allOf_cons _ []).2 ⟨rfl, hparts, Node.allOf_nil⟩), rfl⟩

/-- A statement whose content is complete stands where it was opened. -/
theorem stands_closed {o : Opening} {proofs : Nat} {m : Node}
    (hextends : Node.Extends (ofOpening o proofs).opened m)
    (hm : m.Holds (if (ofOpening o proofs).kind.isProof then proofs + 1 else proofs)) :
    ((ofOpening o proofs).closed m).Stands proofs ∧
      ((ofOpening o proofs).closed m).hasRole .qed = false := by
  have hdepth : (ofOpening o proofs).kind.isProof = true →
      (ofOpening o proofs).proofDepth = proofs := fun hproof => if_pos hproof
  generalize ofOpening o proofs = s at *
  have hclosed := hextends.trans (s.extends_closed m)
  have htag : (s.closed m).tag = .block s := hclosed.tag_eq
  refine ⟨.statement htag (hclosed.begins _ s.beginsWith_opened) hdepth
    (fun c hc => (hm c hc).1) (fun c hc => (hm c hc).2) ?_, ?_⟩
  · unfold closed
    split
    · rfl
    · exact (List.append_nil _).symm
  · rw [Node.hasRole, htag]
    rfl

end Statement

namespace Part

mutual

theorem holds_into (proofs : Nat) : ∀ (p : Part) (n : Node), n.Holds proofs →
    (into readInto proofs p n).Holds proofs
  | run _, _, hn => hn.appends (appends_readInto _ _)
  | statement o content, _, hn =>
    have hstands := Statement.stands_closed
      (partLaw_extends.allInto _ content (Statement.ofOpening o proofs).opened trivial)
      (holds_allInto _ content _ (Statement.holds_opened _ _))
    hn.push hstands.1 hstands.2

/-- Parts that are put into a container stand where so many proofs enclose it. -/
theorem holds_allInto (proofs : Nat) : ∀ (parts : List Part) (n : Node), n.Holds proofs →
    (allInto readInto proofs parts n).Holds proofs
  | [], _, hn => hn
  | p :: parts, n, hn => holds_allInto proofs parts _ (holds_into proofs p n hn)

end

end Part

theorem holds_parse (source : List Char) (fileId : Nat) :
    (Document.parse source fileId).root.Holds 0 := by
  show (assemble readInto _ fileId).1.Holds 0
  rw [fst_assemble]
  exact Part.holds_allInto 0 _ _ nofun

/-- What stands inside a statement is enclosed by the statement, too. -/
theorem Node.Stands.children {proofs : Nat} {n : Node} {st : Statement} (h : n.Stands proofs)
    (htag : n.tag = .block st) :
    ∀ c ∈ n.children, c.Stands (if st.kind.isProof then proofs + 1 else proofs) := by
  cases h with
  | content below =>
    have hnone : n.isStatement = false := ((allOf_cons n []).1 below).1
    rw [isStatement_of_block htag] at hnone
    cases hnone
  | statement tag _ _ inside _ children =>
    cases tag.symm.trans htag
    intro c hc
    rw [children] at hc
    rcases List.mem_append.1 hc with hc | hc
    · exact inside c hc
    · split at hc
      · rw [List.mem_singleton.1 hc]
        exact .content ((allOf_cons _ []).2 ⟨rfl, allOf_nil, allOf_nil⟩)
      · exact absurd hc List.not_mem_nil

/-! ## Places -/

/-- A statement as it stands at a place. -/
structure Place.ShowsStatement (p : Place) (st : Statement) : Prop where
  /-- It stands inside statements only. -/
  above : ∀ n ∈ p.above, n.isStatement = true
  /-- It begins with the heading of its kind, which has a place for a number unless it is that of
  a proof. -/
  heading : ∃ heading rest, p.node.children = heading :: rest ∧
    heading.tag = .span .blockHeading ∧ heading.attr? "type" = some st.kind.name ∧
    heading.descendants.filter (·.hasRole .blockNumber) =
      if st.kind.isProof then [] else [Node.span .blockNumber]
  /-- A proof counts the proofs around it. -/
  depth : st.kind.isProof = true → st.proofDepth = p.above.countP Node.isProof
  /-- A proof ends in its mark, which is solid if there are proofs around it. -/
  marked : st.kind.isProof = true → ∃ body mark, p.node.children = body ++ [mark] ∧
    mark.tag = .span .qed ∧ mark.flags.nested = decide (0 < st.proofDepth) ∧
    mark.textContent = (if 0 < st.proofDepth then "■" else "□") ∧
    ∀ c ∈ body, c.hasRole .qed = false
  unmarked : st.kind.isProof = false → ∀ c ∈ p.node.children, c.hasRole .qed = false

theorem Node.filter_descendantsOf {keep : Node → Bool} {ns : List Node}
    (h : ∀ n ∈ ns, AllOf (keep · = false) n.children) :
    (descendantsOf ns).filter keep = ns.filter keep := by
  induction ns with
  | nil => rfl
  | cons n ns ih =>
    obtain ⟨hn, hns⟩ := List.forall_mem_cons.1 h
    have hbelow : (descendantsOf n.children).filter keep = [] :=
      List.filter_eq_nil_iff.2 fun c hc => by simp [hn c hc]
    rw [descendantsOf_cons, List.filter_cons, List.filter_append, hbelow, ih hns, List.nil_append,
      List.filter_cons]

theorem Statement.filter_descendants_heading (s : Statement) :
    s.heading.descendants.filter (·.hasRole .blockNumber) =
      if s.kind.isProof then [] else [Node.span .blockNumber] := by
  have hparts : AllOf (fun n => ∀ c ∈ n.children, c.tag = .reference) s.headingParts :=
    s.allOf_headingParts fun _ _ hreference => hreference
  rw [Node.descendants_eq, ← s.filter_headingParts]
  refine Node.filter_descendantsOf fun n hn c hc => ?_
  -- below the parts of a heading there are only references
  have hreference : c.tag = .reference := by
    rcases Node.mem_or_exists_parent hc with hc | ⟨k, hk, hc⟩
    · exact hparts n (Node.mem_descendantsOf_of_mem hn) c hc
    · exact hparts.children (Node.mem_descendantsOf_of_mem hn) k hk c hc
  simp [Node.hasRole, hreference]

theorem textContent_qedMark (proofDepth : Nat) :
    (qedMark proofDepth).textContent = if 0 < proofDepth then "■" else "□" := by
  rw [Node.textContent_eq, qedMark]
  exact String.append_empty

theorem Place.showsStatement_of_stands {p : Place} {st : Statement} {proofs : Nat}
    (hstands : p.node.Stands proofs) (htag : p.node.tag = .block st)
    (habove : ∀ n ∈ p.above, n.isStatement = true) (hproofs : proofs = p.above.countP Node.isProof) :
    p.ShowsStatement st := by
  cases hstands with
  | content below =>
    have hnone := ((Node.allOf_cons _ []).1 below).1
    rw [isStatement_of_block htag] at hnone
    cases hnone
  | @statement _ _ _ body tag begins depth inside unmarked children =>
    cases tag.symm.trans htag
    refine ⟨habove, ?_, fun hproof => (depth hproof).trans hproofs, ?_, ?_⟩
    · obtain ⟨tail, rest, hbegins⟩ := begins
      refine ⟨_, rest, hbegins, rfl, ?_, ?_⟩
      · exact (Dict.get?_insert _ _ _ _).trans (if_pos rfl)
      · exact st.filter_descendants_heading
    · intro hproof
      rw [if_pos hproof] at children
      exact ⟨body, _, children, rfl, rfl, textContent_qedMark _, unmarked⟩
    · intro hproof
      rw [if_neg (by simp [hproof]), List.append_nil] at children
      rwa [children]

/-- Induction on the tree: a statement adds itself, and one proof if it is one, to what is above its
children. -/
theorem Node.showsStatement_of_mem_placesOf {proofs : Nat} {above before ns : List Node} {p : Place}
    {st : Statement} (hns : ∀ n ∈ ns, n.Stands proofs) (habove : ∀ n ∈ above, n.isStatement = true)
    (hproofs : proofs = above.countP isProof) (hp : p ∈ placesOf above before ns)
    (htag : p.node.tag = .block st) : p.ShowsStatement st := by
  induction ns using forest_induction generalizing proofs above before with
  | nil => exact absurd hp List.not_mem_nil
  | cons n ns below behind =>
    have hn : n.Stands proofs := hns n List.mem_cons_self
    rw [placesOf_cons, List.mem_cons, List.mem_append] at hp
    rcases hp with rfl | hp | hp
    · exact Place.showsStatement_of_stands hn htag habove hproofs
    · -- below a statement the next ones stand; below anything else there is none
      have hchildren {st' : Statement} (tag : n.tag = .block st') := hn.children tag
      cases hn with
      | content hnone =>
        have hmem : p.node ∈ descendantsOf n.children := by
          rw [← map_node_placesOf]
          exact List.mem_map_of_mem hp
        have hfalse : p.node.isStatement = false := ((allOf_cons n []).1 hnone).2.1 _ hmem
        rw [isStatement_of_block htag] at hfalse
        cases hfalse
      | @statement _ _ st' _ tag =>
        have hcount : (if st'.kind.isProof then proofs + 1 else proofs) =
            (n :: above).countP isProof := by
          rw [List.countP_cons, isProof, kind?_of_block tag, Option.any_some,
            ← hproofs]
          split <;> rfl
        exact below (hchildren tag) (List.forall_mem_cons.2 ⟨isStatement_of_block tag, habove⟩) hcount hp
    · exact behind (fun m hm => hns m (List.mem_cons_of_mem n hm)) habove hproofs hp

/-- Statements stand at the top of the tree of a source or inside other statements, each behind its
heading. Proofs count the proofs around them and end in the mark that tells whether there are any,
and there are no other marks directly inside statements. -/
theorem statements_show_their_place (source : List Char) (fileId : Nat) :
    let root := (Document.parse source fileId).root
    root.tag = .root ∧
      ∀ p ∈ root.places, ∀ st, p.node.tag = .block st → p.ShowsStatement st := by
  have hholds := holds_parse source fileId
  exact ⟨(grows_parse source fileId).tag_eq, fun p hp st htag =>
    Node.showsStatement_of_mem_placesOf (fun n hn => (hholds n hn).1)
      (fun _ hn => absurd hn List.not_mem_nil) rfl hp htag⟩

/-- A proof inside a proof, of which only the one inside is terminated. -/
theorem statements_show_their_place_of_nested_proofs :
    ∃ p ∈ (Document.parse "Proof: outside\n\nProof: inside \x7b\x7d".toList 0).root.places,
      ∃ st, p.node.tag = .block st ∧ st.kind.isProof = true ∧ st.proofDepth = 1 ∧
        p.ShowsStatement st := by
  have hany : ((Document.parse "Proof: outside\n\nProof: inside \x7b\x7d".toList 0).root.places.any
      fun p => p.node.statement?.any fun st => st.kind.isProof && st.proofDepth == 1) = true := by
    decide +kernel
  obtain ⟨p, hp, hst⟩ := List.any_eq_true.1 hany
  obtain ⟨st, hsome, hst⟩ := (Option.any_eq_true _ _).1 hst
  have htag := statement?_eq_some_iff.1 hsome
  rw [Bool.and_eq_true, beq_iff_eq] at hst
  exact ⟨p, hp, st, htag, hst.1, hst.2, (statements_show_their_place _ _).2 p hp st htag⟩

end Treatise
