import Treatise.Proofs.Issues
import Treatise.Proofs.Tree.Standing

/-!
# Statements and labels as they are announced

Every statement of a tree was announced by a text, and every label was written with a key.

* `Part.openingsOf` — what opens the statements of some parts; `Part.openingsOf_read` says that
  reading leaves out none and keeps their order.
* **`statements_parse`** — the statements of a document are those that its chunks open, in order.
* `Node.KeepsKeys` — what reading does to a node: all labels that it puts there have keys.
* **`keyed_tree`** — all labels of the tree of every source have keys, with sections and without.
-/

namespace Treatise

open Markdown (Element Event)
open Node (AllOf descendantsOf IsContent Appends)

/-! ## Statements in order -/

/-- The statement that a chunk opens. -/
def Chunk.opening? (c : Chunk) : Option Opening := Opening.read? c.text

namespace Part

mutual

/-- What opens the statement of a part and those inside it, in the order of the document. -/
def openings : Part → List Opening
  | run _ => []
  | statement o content => o :: openingsOf content

def openingsOf : List Part → List Opening
  | [] => []
  | p :: parts => p.openings ++ openingsOf parts

end

/-- Text opens nothing. -/
theorem openingsOf_consText (text : List Char) (parts : List Part) :
    openingsOf (consText text parts) = openingsOf parts := by
  unfold consText
  split
  · rfl
  · split <;> rfl

/-- The parts of a container, and then the chunks behind it, have the openings of all chunks. -/
theorem openingsOf_read (inside : Bool) (chunks : List Chunk) :
    openingsOf (read inside chunks).1.1 ++ (read inside chunks).1.2.filterMap Chunk.opening? =
      chunks.filterMap Chunk.opening? := by
  fun_induction read inside chunks with
  | case1 => rfl
  | case2 inside c chunks o ho body hbody parts rest h hread ih =>
    rw [hread] at ih
    rw [List.filterMap_cons_some (f := Chunk.opening?) ho, ← ih]
    simp [openingsOf, openings, openingsOf_consText]
  | case3 inside c chunks o ho hbody content behind h hin parts rest h' hread ihIn ih =>
    rw [hin] at ihIn
    rw [hread] at ih
    rw [List.filterMap_cons_some (f := Chunk.opening?) ho, ← ihIn, ← ih]
    simp [openingsOf, openings, openingsOf_consText]
  | case4 inside c chunks ho body hbody =>
    rw [List.filterMap_cons_none (f := Chunk.opening?) ho, openingsOf_consText]
    rfl
  | case5 inside c chunks ho hbody parts rest h hread ih =>
    rw [hread] at ih
    rw [List.filterMap_cons_none (f := Chunk.opening?) ho, openingsOf_consText]
    exact ih

end Part

/-- What the statements among some nodes and below them were announced as, in document order. -/
def Node.announcedOf (ns : List Node) : List Statement :=
  (descendantsOf ns).filterMap (·.statement?)

namespace Node

theorem announcedOf_append (ns ms : List Node) :
    announcedOf (ns ++ ms) = announcedOf ns ++ announcedOf ms := by
  rw [announcedOf, descendantsOf_append, List.filterMap_append, announcedOf, announcedOf]

theorem announcedOf_cons_of_block {n : Node} {st : Statement} (h : n.tag = .block st)
    (ns : List Node) :
    announcedOf (n :: ns) = st :: (announcedOf n.children ++ announcedOf ns) := by
  rw [announcedOf, descendantsOf_cons, List.filterMap_cons_some (statement?_eq_some_iff.2 h),
    List.filterMap_append, announcedOf, announcedOf]

theorem announcedOf_eq_nil {ns : List Node} (h : AllOf (·.isStatement = false) ns) :
    announcedOf ns = [] := by
  refine List.filterMap_eq_nil_iff.2 fun n hn => ?_
  simpa [isStatement] using h n hn

/-- Tails do not matter to statements. -/
theorem announcedOf_map_untailed (ns : List Node) :
    announcedOf (ns.map untailed) = announcedOf ns := by
  induction ns with
  | nil => rfl
  | cons n ns ih =>
    rw [List.map_cons, ← List.singleton_append, announcedOf_append, ih, ← announcedOf_append]
    simp only [announcedOf, List.singleton_append, descendantsOf_cons]
    rfl

/-- Content has no statements, so that a text leaves those of a node as they are. -/
theorem Appends.announcedOf_eq {n m : Node} (h : Appends n m) :
    announcedOf m.children = announcedOf n.children := by
  obtain ⟨more, hmore, hchildren⟩ := h.children
  have hnone : announcedOf more = [] :=
    announcedOf_eq_nil fun c hc => (hmore c hc).isStatement
  rw [← announcedOf_map_untailed m.children, hchildren, announcedOf_map_untailed,
    announcedOf_append, hnone, List.append_nil]

end Node

open Node (announcedOf)

/-- The statement was announced like this, with some number of proofs around it. -/
def Statement.IsOpenedBy (o : Opening) (st : Statement) : Prop := ∃ proofs, st = ofOpening o proofs

theorem Statement.announcedOf_opened (s : Statement) : announcedOf s.opened.children = [] := by
  refine Node.announcedOf_eq_nil ((Node.allOf_cons s.heading []).2 ⟨rfl, ?_, Node.allOf_nil⟩)
  refine s.allOf_headingParts fun n htag _ => isStatement_of_ne fun st hst => ?_
  rw [hst] at htag
  exact absurd htag Bool.false_ne_true

theorem Statement.announcedOf_closed (s : Statement) (n : Node) :
    announcedOf (s.closed n).children = announcedOf n.children := by
  unfold closed
  split
  · show announcedOf (n.children ++ [qedMark s.proofDepth]) = _
    rw [Node.announcedOf_append]
    exact List.append_nil _
  · rfl

namespace Part

mutual

theorem announcedOf_into (proofs : Nat) : ∀ (p : Part) (n : Node),
    ∃ sts, List.Forall₂ Statement.IsOpenedBy p.openings sts ∧
      announcedOf (into readInto proofs p n).children = announcedOf n.children ++ sts
  | run texts, n => by
    have htext := (appends_readInto (['\n', '\n'].intercalate texts) n).announcedOf_eq
    exact ⟨[], .nil, htext.trans (List.append_nil _).symm⟩
  | statement o content, n => by
    generalize hst : Statement.ofOpening o proofs = st
    obtain ⟨sts, hopened, hsts⟩ :=
      announcedOf_allInto (if st.kind.isProof then proofs + 1 else proofs) content st.opened
    generalize hm : allInto readInto (if st.kind.isProof then proofs + 1 else proofs) content
      st.opened = m at hsts
    have hextends : Node.Extends st.opened m := hm ▸ partLaw_extends.allInto _ content _ trivial
    have htag : (st.closed m).tag = .block st := (hextends.trans (st.extends_closed m)).tag_eq
    refine ⟨st :: sts, .cons ⟨proofs, hst.symm⟩ hopened, ?_⟩
    -- the statement comes first and then those inside it: neither its heading nor its mark is one
    have hinto : (into readInto proofs (statement o content) n).children =
        n.children ++ [st.closed m] := by
      rw [into, hst, hm]
      rfl
    rw [hinto, Node.announcedOf_append, Node.announcedOf_cons_of_block htag,
      st.announcedOf_closed, hsts, st.announcedOf_opened, List.nil_append]
    exact congrArg _ (congrArg _ (List.append_nil sts))

/-- Parts that are put into a node add the statements that they open. -/
theorem announcedOf_allInto (proofs : Nat) : ∀ (parts : List Part) (n : Node),
    ∃ sts, List.Forall₂ Statement.IsOpenedBy (openingsOf parts) sts ∧
      announcedOf (allInto readInto proofs parts n).children = announcedOf n.children ++ sts
  | [], n => ⟨[], .nil, (List.append_nil _).symm⟩
  | p :: parts, n => by
    obtain ⟨sts, hopened, hsts⟩ := announcedOf_into proofs p n
    obtain ⟨more, hmore, hall⟩ := announcedOf_allInto proofs parts (into readInto proofs p n)
    refine ⟨sts ++ more, List.rel_append hopened hmore, ?_⟩
    rw [allInto, hall, hsts, List.append_assoc]

end

end Part

/-- The statements of a document are those that its chunks open, in document order. -/
theorem statements_parse (source : List Char) (fileId : Nat) :
    List.Forall₂ Statement.IsOpenedBy
      ((Document.parse source fileId).chunks.filterMap Chunk.opening?)
      (Document.parse source fileId).root.statements := by
  generalize hchunks : (Document.parse source fileId).chunks = chunks
  have hroot : (Document.parse source fileId).root =
      Part.allInto readInto 0 (Part.read false chunks).1.1 (Node.ofTag .root) := by
    rw [← fst_assemble readInto chunks fileId, ← hchunks]
    rfl
  obtain ⟨sts, hopened, hsts⟩ :=
    Part.announcedOf_allInto 0 (Part.read false chunks).1.1 (Node.ofTag .root)
  have hread := Part.openingsOf_read false chunks
  rw [Part.rest_read_false false chunks rfl, List.filterMap_nil, List.append_nil] at hread
  rw [← hread, Node.statements, Node.descendants_eq, hroot]
  -- the root has no children before the parts are put into it
  show List.Forall₂ _ _ (announcedOf _)
  rw [hsts]
  exact hopened

/-- In lists that belong together in order, every element of the second has one of the first. -/
theorem exists_mem_of_forall₂ {α β : Type} {r : α → β → Prop} {as : List α} {bs : List β}
    (h : List.Forall₂ r as bs) {b : β} (hb : b ∈ bs) : ∃ a ∈ as, r a b := by
  induction h with
  | nil => exact absurd hb List.not_mem_nil
  | @cons a b' as bs hab _ ih =>
    rcases List.mem_cons.1 hb with rfl | hb
    · exact ⟨a, List.mem_cons_self, hab⟩
    · obtain ⟨a', ha', hr⟩ := ih hb
      exact ⟨a', List.mem_cons_of_mem a ha', hr⟩

/-- Every statement of a document was announced by a text. -/
theorem exists_opening_of_mem_tree {source : List Char} {fileId : Nat} {sections : Bool} {n : Node}
    {st : Statement} (hn : n ∈ ((Document.parse source fileId).tree sections).descendants)
    (htag : n.tag = .block st) :
    ∃ text o proofs, Opening.read? text = some o ∧ st = .ofOpening o proofs := by
  have hroot : n ∈ (Document.parse source fileId).root.descendants := by
    rw [Node.descendants_eq] at hn ⊢
    unfold Document.tree at hn
    split at hn
    · exact mem_descendantsOf_of_mem_buildSections (by simp [htag]) hn
    · exact hn
  have hst : st ∈ (Document.parse source fileId).root.statements :=
    mem_statements_iff.2 ⟨n, hroot, htag⟩
  obtain ⟨o, ho, proofs, heq⟩ := exists_mem_of_forall₂ (statements_parse source fileId) hst
  obtain ⟨c, -, hread⟩ := List.mem_filterMap.1 ho
  exact ⟨c.text, o, proofs, hread, heq⟩

/-! ## Keys of labels -/

namespace Node

/-- A label has a key. -/
def Keyed (n : Node) : Prop := n.tag = .label → ∃ key, n.attr? "key" = some key

theorem Keyed.of_ne {n : Node} (h : (n.tag == .label) = false) : n.Keyed := fun htag =>
  absurd htag (beq_eq_false_iff_ne.1 h)

theorem keyed_setTail {n : Node} {tail : String} :
    Keyed { n with tail := tail } ↔ Keyed n := Iff.rfl

theorem Keyed.single {n : Node} (h : n.Keyed) (hnil : n.children = []) : AllOf Keyed [n] := by
  rw [allOf_cons, hnil]
  exact ⟨h, allOf_nil, allOf_nil⟩

theorem Keyed.single_of_ne {n : Node} (h : (n.tag == .label) = false) (hnil : n.children = []) :
    AllOf Keyed [n] :=
  (Keyed.of_ne h).single hnil

/-- `m` is `n` with more content, in which labels have keys. -/
structure KeepsKeys (n m : Node) : Prop where
  tag_eq : m.tag = n.tag
  attrs_eq : m.attrs = n.attrs
  keyed : AllOf Keyed n.children → AllOf Keyed m.children

variable {n m k c : Node}

theorem KeepsKeys.refl (n : Node) : KeepsKeys n n := ⟨rfl, rfl, id⟩

theorem KeepsKeys.trans (h : KeepsKeys n m) (h' : KeepsKeys m k) : KeepsKeys n k :=
  ⟨h'.tag_eq.trans h.tag_eq, h'.attrs_eq.trans h.attrs_eq, h'.keyed ∘ h.keyed⟩

theorem KeepsKeys.allOf (h : KeepsKeys n m) (hn : AllOf Keyed [n]) : AllOf Keyed [m] := by
  obtain ⟨htop, hbelow, -⟩ := (allOf_cons n []).1 hn
  refine (allOf_cons m []).2 ⟨fun htag => ?_, h.keyed hbelow, allOf_nil⟩
  rw [attr?, h.attrs_eq]
  exact htop (h.tag_eq.symm.trans htag)

theorem keepsKeys_setText (n : Node) (s : String) : KeepsKeys n (n.setText s) := ⟨rfl, rfl, id⟩

theorem keepsKeys_appendText (n : Node) (s : String) : KeepsKeys n (n.appendText s) := by
  unfold appendText
  split
  · exact ⟨rfl, rfl, id⟩
  · exact ⟨rfl, rfl, (allOf_extendLastTail fun _ _ => keyed_setTail).2⟩

theorem keepsKeys_push (n : Node) (hc : AllOf Keyed [c]) : KeepsKeys n (n.push c) :=
  ⟨rfl, rfl, fun h => (allOf_append _ _).2 ⟨h, hc⟩⟩

/-- A mark that makes a label has the key of the label. -/
theorem keyed_mark (m : Mark) : AllOf Keyed [m.node] := by
  refine Keyed.single (fun _ => ⟨String.ofList m.key, ?_⟩) rfl
  simp [Mark.node, setAttr, attr?]

theorem keepsKeys_addText (n : Node) (s : List Char) : KeepsKeys n (n.addText s) := by
  unfold addText
  generalize Segment.scan s = segments
  induction segments generalizing n with
  | nil => exact .refl n
  | cons segment segments ih =>
    have hstep : KeepsKeys n (n.addSegment segment) := by
      cases segment with
      | text s => exact keepsKeys_appendText n _
      | mark m inner => exact keepsKeys_push n (keyed_mark m)
    exact hstep.trans (ih _)

theorem keyed_ofElement (e : Element) : AllOf Keyed [ofElement e] := by
  refine .single_of_ne ?_ ?_
  · cases e <;> simp only [ofElement, tag_withTitle] <;> rfl
  · cases e <;> simp only [ofElement, children_withTitle] <;> rfl

end Node

open Node (Keyed KeepsKeys)

/-- Nested events make labels with keys only. -/
theorem Growth.nestingLaw_keepsKeys : NestingLaw Event.fits (fun _ _ => True) KeepsKeys where
  refl := .refl
  trans := .trans
  text := Node.keepsKeys_setText
  single {holder g e} _ hout hsingle _ := by
    rcases Growth.step_single hout hsingle with ⟨w, hstep⟩ | ⟨c, hc, hnil, hstep⟩
    · exact ⟨_, w, hstep, .refl _, trivial⟩
    · have htext := Node.keepsKeys_addText g.top g.waiting.toList
      have hne : (c.tag == .label) = false := by
        rw [beq_eq_false_iff_ne]
        intro htag
        rw [htag] at hc
        exact Bool.false_ne_true hc
      have hkeyed : AllOf Keyed [c] := .single_of_ne hne hnil
      exact ⟨_, "", hstep, htext.trans (Node.keepsKeys_push _ hkeyed), trivial⟩
  enter _ _ := trivial
  flush {e g} _ _ := Node.keepsKeys_addText g.top _
  push {holder g e c} _ _ _ hc := by
    have htext := Node.keepsKeys_addText g.top g.waiting.toList
    exact ⟨htext.trans (Node.keepsKeys_push _ (hc.allOf (Node.keyed_ofElement e))), trivial⟩

theorem keepsKeys_readInto (s : List Char) (n : Node) : KeepsKeys n (readInto s n) := by
  obtain ⟨m, w, hfold, -, hkeeps, -⟩ := Growth.nestingLaw_keepsKeys.foldl_step
    (Markdown.wellNested_readEvents s) (Growth.start n) rfl trivial
  rw [readInto_eq_of_foldl hfold]
  exact KeepsKeys.trans hkeeps (Node.keepsKeys_addText m w.toList)

namespace Statement

theorem keyed_headingParts (s : Statement) : AllOf Keyed s.headingParts := by
  have hlabel (key : String) : AllOf Keyed [(Node.ofTag .label).setAttr "key" key] :=
    Keyed.single (fun _ => ⟨key, rfl⟩) rfl
  have hsubject (subject : Subject) : AllOf Keyed [subject.node] := by
    cases subject with
    | text words => exact .single_of_ne rfl rfl
    | reference key =>
      exact (Node.allOf_cons _ _).2 ⟨.of_ne rfl, .single_of_ne rfl rfl, Node.allOf_nil⟩
  have hnumber : AllOf Keyed (if s.kind.isProof then [] else [Node.span .blockNumber]) := by
    split
    · exact Node.allOf_nil
    · exact .single_of_ne rfl rfl
  unfold headingParts
  simp only [Node.allOf_append]
  refine ⟨⟨⟨⟨⟨allOf_toList_map hlabel, ?kind⟩, hnumber⟩, allOf_toList_map hsubject⟩, ?name⟩,
    ?references⟩
  case kind => exact .single_of_ne rfl rfl
  case name => exact allOf_toList_map fun _ => .single_of_ne rfl rfl
  case references => exact allOf_toList_map fun _ => .single_of_ne rfl rfl

theorem keyed_opened (s : Statement) : AllOf Keyed [s.opened] := by
  have hheading : AllOf Keyed [s.heading] :=
    (Node.allOf_cons _ _).2 ⟨.of_ne rfl, s.keyed_headingParts, Node.allOf_nil⟩
  exact (Node.allOf_cons _ _).2 ⟨.of_ne rfl, hheading, Node.allOf_nil⟩

theorem keepsKeys_closed (s : Statement) (n : Node) : KeepsKeys n (s.closed n) := by
  unfold closed
  split
  · exact Node.keepsKeys_push n (.single_of_ne rfl rfl)
  · exact .refl n

end Statement

theorem partLaw_keepsKeys : PartLaw (fun _ => True) KeepsKeys where
  refl := .refl
  trans := .trans
  stays _ _ := trivial
  read s _ := keepsKeys_readInto s _
  opened _ := trivial
  put {n m o proofs} _ hm := by
    generalize Statement.ofOpening o proofs = s at hm ⊢
    have hclosed := hm.trans (s.keepsKeys_closed m)
    exact Node.keepsKeys_push n (hclosed.allOf s.keyed_opened)

/-- All labels of the tree of a source have keys. -/
theorem keyed_tree (source : List Char) (fileId : Nat) (sections : Bool) :
    AllOf Keyed ((Document.parse source fileId).tree sections).children := by
  have hgrown := partLaw_keepsKeys.parse trivial source fileId
  have hparse : AllOf Keyed (Document.parse source fileId).root.children :=
    hgrown.keyed Node.allOf_nil
  unfold Document.tree
  split
  · intro n hn
    by_cases hsection : n.tag = .section
    · exact .of_ne (by simp [hsection])
    · exact hparse n (mem_descendantsOf_of_mem_buildSections hsection hn)
  · exact hparse

end Treatise
