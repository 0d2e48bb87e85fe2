import Treatise.Proofs.Markdown.HeadingLevels
import Treatise.Proofs.Tree.Reading

/-!
# Frames of statements

What the tree of a document is made of, wherever one looks.

* **`Node.Framed`** — a statement begins with the heading that its announcement asks for, a proof
  takes no number, and the level of a heading is one that headings can have.
* **`Node.Extends`** — how reading changes a node: the first child stays the first, and what is put
  behind it is framed. One lemma for each way in which a tree grows.
* **`framed_tree`** — the tree of every source is framed, with sections and without.
-/

namespace Treatise

open Markdown (Element Ending Event IsHeadingLevel)
open Node (AllOf)

/-- A node of which nothing is asked: neither a heading nor a statement. -/
def Tag.isFree : Tag → Bool
  | heading _ => false
  | block _ => false
  | _ => true

namespace Node

/-- The node has this first child, whatever stands between it and the next one. -/
def BeginsWith (n first : Node) : Prop :=
  ∃ tail rest, n.children = { first with tail := tail } :: rest

/-- A node as it stands in the tree of a document. -/
structure Framed (n : Node) : Prop where
  level : ∀ level, n.tag = .heading level → IsHeadingLevel level
  begins : ∀ st, n.tag = .block st → n.BeginsWith st.heading
  proof : ∀ st, n.tag = .block st → st.kind.isProof = true → st.numbered = false

theorem framed_setTail {n : Node} {tail : String} : Framed { n with tail := tail } ↔ Framed n :=
  ⟨fun h => ⟨h.1, h.2, h.3⟩, fun h => ⟨h.1, h.2, h.3⟩⟩

theorem Framed.of_isFree {n : Node} (h : n.tag.isFree = true) : Framed n := by
  refine ⟨fun level htag => ?_, fun st htag => ?_, fun st htag => ?_⟩
  all_goals
    rw [htag] at h
    exact absurd h Bool.false_ne_true

theorem Framed.single {n : Node} (h : n.tag.isFree = true) (hnil : n.children = []) :
    AllOf Framed [n] := by
  rw [allOf_cons, hnil]
  exact ⟨.of_isFree h, allOf_nil, allOf_nil⟩

/-! ## A node that gets more content -/

/-- `m` is `n` with more content, and all of it is framed. -/
structure Extends (n m : Node) : Prop where
  tag_eq : m.tag = n.tag
  framed : AllOf Framed n.children → AllOf Framed m.children
  begins : ∀ first, n.BeginsWith first → m.BeginsWith first

theorem Extends.refl (n : Node) : Extends n n := ⟨rfl, id, fun _ => id⟩

theorem Extends.trans {n m k : Node} (h : Extends n m) (h' : Extends m k) : Extends n k :=
  ⟨h'.tag_eq.trans h.tag_eq, h'.framed ∘ h.framed, fun c hc => h'.begins c (h.begins c hc)⟩

theorem Extends.allOf {n m : Node} (h : Extends n m) (hn : AllOf Framed [n]) :
    AllOf Framed [m] := by
  obtain ⟨hframed, hbelow, -⟩ := (allOf_cons n []).1 hn
  refine (allOf_cons m []).2 ⟨⟨?_, ?_, ?_⟩, h.framed hbelow, allOf_nil⟩
  · rw [h.tag_eq]
    exact hframed.level
  · rw [h.tag_eq]
    exact fun st hst => h.begins _ (hframed.begins st hst)
  · rw [h.tag_eq]
    exact hframed.proof

theorem extends_setText (n : Node) (s : String) : Extends n (n.setText s) := ⟨rfl, id, fun _ => id⟩

theorem extends_appendText (n : Node) (s : String) : Extends n (n.appendText s) := by
  unfold appendText
  split
  · exact ⟨rfl, id, fun _ => id⟩
  · refine ⟨rfl, (allOf_extendLastTail fun _ _ => framed_setTail).2, ?_⟩
    rintro first ⟨tail, rest, hchildren⟩
    -- the first child may be the last one, too, and then gets the text as its tail
    cases rest with
    | nil => exact ⟨tail ++ s, [], by simp only [hchildren, extendLastTail]⟩
    | cons c rest =>
      exact ⟨tail, extendLastTail s (c :: rest), by simp only [hchildren, extendLastTail]⟩

theorem extends_push {n c : Node} (hc : AllOf Framed [c]) : Extends n (n.push c) := by
  refine ⟨rfl, fun h => (allOf_append _ _).2 ⟨h, hc⟩, ?_⟩
  rintro first ⟨tail, rest, hchildren⟩
  exact ⟨tail, rest ++ [c], by simp only [push, hchildren, List.cons_append]⟩

theorem framed_mark (m : Mark) : AllOf Framed [m.node] := by
  obtain ⟨kind, key⟩ := m
  cases kind <;> exact .single rfl rfl

theorem extends_addText (n : Node) (s : List Char) : Extends n (n.addText s) := by
  unfold addText
  generalize Segment.scan s = segments
  induction segments generalizing n with
  | nil => exact .refl n
  | cons segment segments ih =>
    have hstep : Extends n (n.addSegment segment) := by
      cases segment with
      | text s => exact extends_appendText n _
      | mark m inner => exact extends_push (framed_mark m)
    exact hstep.trans (ih _)

theorem framed_ofElement {e : Element} (h : ∀ level, e = .heading level → IsHeadingLevel level) :
    AllOf Framed [ofElement e] := by
  have hchildren : (ofElement e).children = [] := by
    cases e <;> simp only [ofElement, children_withTitle] <;> rfl
  have hlevel : ∀ level, (ofElement e).tag = .heading level → e = .heading level := by
    intro level htag
    cases e <;> simp only [ofElement, tag_withTitle] at htag <;> cases htag
    rfl
  have hblock : ∀ st, (ofElement e).tag ≠ .block st := by
    intro st htag
    cases e <;> simp only [ofElement, tag_withTitle] at htag <;> cases htag
  rw [allOf_cons, hchildren]
  exact ⟨⟨fun level htag => h level (hlevel level htag), fun st htag => absurd htag (hblock st),
    fun st htag => absurd htag (hblock st)⟩, allOf_nil, allOf_nil⟩

end Node

open Node (Framed Extends)

/-! ## The growing tree -/

namespace Growth

/-- A tree that grew from a node. -/
structure From (start : Node) (g : Growth) : Prop where
  base : Extends start g.base
  nodes : ∀ n ∈ g.nodes, AllOf Framed [n]

variable {start : Node} {g : Growth}

theorem From.mapTop (h : g.From start) {f : Node → Node} (hf : ∀ n, Extends n (f n)) :
    (g.mapTop f).From start := by
  obtain ⟨base, nodes, waiting⟩ := g
  cases nodes with
  | nil => exact ⟨h.base.trans (hf base), h.nodes⟩
  | cons n nodes =>
    obtain ⟨hn, hnodes⟩ := List.forall_mem_cons.1 h.nodes
    exact ⟨h.base, List.forall_mem_cons.2 ⟨(hf n).allOf hn, hnodes⟩⟩

theorem From.flush (h : g.From start) : g.flush.From start :=
  have htop := h.mapTop fun n => Node.extends_addText n g.waiting.toList
  ⟨htop.base, htop.nodes⟩

theorem From.add (h : g.From start) {n : Node} (hn : AllOf Framed [n]) : (g.add n).From start :=
  h.flush.mapTop fun _ => Node.extends_push hn

theorem From.close (h : g.From start) : g.close.From start := by
  unfold Growth.close
  simp only
  split
  · exact h.flush
  · next n nodes hnodes =>
    have hall := h.flush.nodes
    rw [hnodes] at hall
    obtain ⟨hn, hrest⟩ := List.forall_mem_cons.1 hall
    have houter : From start { g.flush with nodes := nodes } := ⟨h.flush.base, hrest⟩
    exact houter.mapTop fun _ => Node.extends_push hn

theorem From.leave (h : g.From start) (k : Ending) : (g.leave k).From start := by
  unfold Growth.leave
  split
  · exact h.close
  · exact h

theorem From.step (h : g.From start) {e : Event}
    (he : ∀ level, e = .enter (.heading level) → IsHeadingLevel level) :
    (g.step e).From start := by
  have hverbatim (s : List Char) : (g.addVerbatim s).From start :=
    h.mapTop fun n => Node.extends_setText n _
  unfold Growth.step
  split
  · cases e with
    | leave k => exact h.leave k
    | text s => exact hverbatim s
    | html s => exact hverbatim s
    | _ => exact h
  · cases e with
    | enter element =>
      -- the element that is entered is a new node, of which all is known
      have helement : AllOf Framed [Node.ofElement element] :=
        Node.framed_ofElement fun level heq => he level (congrArg Event.enter heq)
      exact ⟨h.flush.base, List.forall_mem_cons.2 ⟨helement, h.flush.nodes⟩⟩
    | leave k => exact h.leave k
    | text s => exact ⟨h.base, h.nodes⟩
    | softBreak => exact ⟨h.base, h.nodes⟩
    | _ => exact h.add (.single rfl rfl)

theorem From.foldl_step {es : List Event} (h : g.From start)
    (hes : ∀ level, .enter (.heading level) ∈ es → IsHeadingLevel level) :
    (es.foldl Growth.step g).From start := by
  induction es generalizing g with
  | nil => exact h
  | cons e es ih =>
    have hstep : (g.step e).From start :=
      h.step fun level heq => hes level (heq ▸ List.mem_cons_self)
    exact ih hstep fun level hmem => hes level (List.mem_cons_of_mem e hmem)

theorem extends_closeAll (base : Node) (nodes : List Node)
    (hnodes : ∀ n ∈ nodes, AllOf Framed [n]) : Extends base (closeAll base nodes) := by
  fun_induction closeAll base nodes with
  | case1 => exact .refl _
  | case2 n => exact Node.extends_push (hnodes n List.mem_cons_self)
  | case3 n m nodes ih =>
    obtain ⟨hn, hrest⟩ := List.forall_mem_cons.1 hnodes
    obtain ⟨hm, hrest⟩ := List.forall_mem_cons.1 hrest
    exact ih (List.forall_mem_cons.2 ⟨(Node.extends_push hn).allOf hm, hrest⟩)

theorem From.finish (h : g.From start) : Extends start g.finish :=
  h.flush.base.trans (extends_closeAll _ _ h.flush.nodes)

end Growth

/-- A Markdown text is put behind what a node has, and all that it makes is framed. -/
theorem extends_readInto (s : List Char) (n : Node) : Extends n (readInto s n) := by
  have hstart : (Growth.start n).From n := ⟨.refl n, nofun⟩
  exact (hstart.foldl_step fun _ => Markdown.isHeadingLevel_of_enter).finish

/-! ## Statements -/

namespace Statement

theorem framed_headingParts (s : Statement) : AllOf Framed s.headingParts := by
  refine s.allOf_headingParts fun n htag _ => .of_isFree ?_
  cases hn : n.tag <;> first | rfl | (rw [hn] at htag; exact absurd htag Bool.false_ne_true)

theorem framed_heading (s : Statement) : AllOf Framed [s.heading] :=
  (Node.allOf_cons _ _).2 ⟨.of_isFree rfl, s.framed_headingParts, Node.allOf_nil⟩

theorem beginsWith_opened (s : Statement) : s.opened.BeginsWith s.heading := ⟨"", [], rfl⟩

theorem extends_closed (s : Statement) (n : Node) : Extends n (s.closed n) := by
  unfold closed
  split
  · exact Node.extends_push (.single rfl rfl)
  · exact .refl n

theorem numbered_ofOpening {o : Opening} {proofDepth : Nat}
    (h : (ofOpening o proofDepth).kind.isProof = true) :
    (ofOpening o proofDepth).numbered = false := by
  show (!o.kind.isProof && !o.starred) = false
  rw [show o.kind.isProof = true from h]
  rfl

theorem framed_of_extends {o : Opening} {proofDepth : Nat} {n : Node}
    (h : Extends (ofOpening o proofDepth).opened n) : AllOf Framed [n] := by
  generalize hs : ofOpening o proofDepth = s at h
  have htag : n.tag = .block s := h.tag_eq
  have hproof : s.kind.isProof = true → s.numbered = false := by
    rw [← hs]
    exact numbered_ofOpening
  refine (Node.allOf_cons _ _).2 ⟨⟨?_, ?_, ?_⟩, h.framed s.framed_heading, Node.allOf_nil⟩
  · intro level hlevel
    cases htag.symm.trans hlevel
  · intro st hst
    cases htag.symm.trans hst
    exact h.begins _ s.beginsWith_opened
  · intro st hst
    cases htag.symm.trans hst
    exact hproof

end Statement

/-! ## Documents -/

theorem partLaw_extends : PartLaw (fun _ => True) Extends where
  refl := .refl
  trans := .trans
  stays _ _ := trivial
  read s _ := extends_readInto s _
  opened _ := trivial
  put _ hm := Node.extends_push (Statement.framed_of_extends (hm.trans (Statement.extends_closed _ _)))

theorem framed_parse (source : List Char) (fileId : Nat) :
    AllOf Framed (Document.parse source fileId).root.children := by
  have hgrown := partLaw_extends.parse trivial source fileId
  exact hgrown.framed Node.allOf_nil

/-- All nodes of the tree of a source are framed. -/
theorem framed_tree (source : List Char) (fileId : Nat) (sections : Bool) :
    AllOf Framed ((Document.parse source fileId).tree sections).children := by
  have hparse := framed_parse source fileId
  unfold Document.tree
  split
  · intro n hn
    by_cases hsection : n.tag = .section
    · exact .of_isFree (by rw [hsection]; rfl)
    · exact hparse n (mem_descendantsOf_of_mem_buildSections hsection hn)
  · exact hparse

end Treatise
