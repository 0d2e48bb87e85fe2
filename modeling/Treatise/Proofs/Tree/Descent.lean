import Treatise.Proofs.Tree.Reading

/-!
# Reading by descent

A tree grows from events with a stack of the nodes that are not complete. The events can be read by
descent as well: a node takes events up to its end, and where an element begins, the node of that
element takes events first. What is left of the events goes from one reader to the next.

* **`Descent.content`** — a node with the events up to its end; `Descent.verbatim` — the text of a
  verbatim element, up to its end.
* **`Growth.comes`** — what the stack of a growing tree comes to is what its innermost node takes, and
  then the stack around it with the events that are left.
* **`grow_eq_content`** — both ways make the same node of all events, nested or not, and by descent no
  event is left.
-/

namespace Treatise

open Markdown (Element Ending Event)

namespace Descent

/-- What was made of events, and the events that are left. -/
structure Taken (α : Type) (es : List Event) where
  value : α
  rest : List Event
  le : rest.length ≤ es.length

/-- The text of a verbatim element. Everything else in it is passed over. -/
def verbatim (k : Ending) : (es : List Event) → Taken (List Char) es
  | [] => ⟨[], [], Nat.le_refl _⟩
  | e :: es =>
    if e = .leave k then ⟨[], es, Nat.le_succ _⟩
    else
      let t := verbatim k es
      ⟨e.verbatimText ++ t.value, t.rest, Nat.le_succ_of_le t.le⟩

/-- A node with the events up to the first end that is one of its own, and the text that waits in
front of them. -/
def content (ends : Ending → Bool) (n : Node) (w : List Char) : (es : List Event) → Taken Node es
  | [] => ⟨n.addText w, [], Nat.le_refl _⟩
  | .text s :: es => behind (content ends n (w ++ s) es) (Nat.le_refl _)
  | .softBreak :: es => behind (content ends n (w ++ ['\n']) es) (Nat.le_refl _)
  | .leave k :: es =>
    if ends k then ⟨n.addText w, es, Nat.le_succ _⟩
    else behind (content ends n w es) (Nat.le_refl _)
  | .enter x :: es =>
    if x.isVerbatim then
      match verbatim x.ending es with
      | ⟨s, rest, hle⟩ =>
        let c := (Node.ofElement x).setText (String.ofList s)
        behind (content ends ((n.addText w).push c) [] rest) hle
    else
      match content (·.closes (Node.ofElement x).tag) (Node.ofElement x) [] es with
      | ⟨c, rest, hle⟩ => behind (content ends ((n.addText w).push c) [] rest) hle
  | .hardBreak :: es =>
    behind (content ends ((n.addText w).push (Node.ofTag .hardBreak)) [] es) (Nat.le_refl _)
  | .code s :: es =>
    let c := (Node.ofTag .code).setText (String.ofList s)
    behind (content ends ((n.addText w).push c) [] es) (Nat.le_refl _)
  | .math display s :: es =>
    let c := (Node.ofTag (.math display)).setText (String.ofList s)
    behind (content ends ((n.addText w).push c) [] es) (Nat.le_refl _)
  | .html s :: es | .inlineHtml s :: es =>
    let c := (Node.ofTag .html).setText (String.ofList s)
    behind (content ends ((n.addText w).push c) [] es) (Nat.le_refl _)
  | .rule :: es =>
    behind (content ends ((n.addText w).push (Node.ofTag .rule)) [] es) (Nat.le_refl _)
termination_by es => es.length
where
  behind {e : Event} {es rest : List Event} (t : Taken Node rest) (h : rest.length ≤ es.length) :
      Taken Node (e :: es) :=
    ⟨t.value, t.rest, Nat.le_succ_of_le (Nat.le_trans t.le h)⟩

/-- Where no end counts, all events are taken. -/
theorem rest_content (es : List Event) (n : Node) (w : List Char) :
    (content (fun _ => false) n w es).rest = [] := by
  cases es with
  | nil => rw [content]
  | cons e es =>
    cases e with
    | enter x =>
      have hverbatim := (verbatim x.ending es).le
      have hinside := (content (·.closes (Node.ofElement x).tag) (Node.ofElement x) [] es).le
      rw [content]
      split
      · exact rest_content (verbatim x.ending es).rest _ _
      · exact rest_content
          (content (·.closes (Node.ofElement x).tag) (Node.ofElement x) [] es).rest _ _
    | leave k =>
      rw [content]
      exact rest_content es n w
    | _ =>
      rw [content]
      exact rest_content es _ _
termination_by es.length

end Descent

/-! ## The innermost node -/

namespace Growth

open Descent (content verbatim)

/-- The ends of the innermost node. The node that everything is put into has none. -/
def endings (g : Growth) (k : Ending) : Bool := g.nodes.head?.any (k.closes ·.tag)

/-- The tree when the innermost node is complete, with all the text that waited. -/
def settle (g : Growth) (n : Node) : Growth :=
  match g.nodes with
  | [] => ⟨n, [], ""⟩
  | _ :: nodes => { g with nodes, waiting := "" }.mapTop (·.push n)

variable {g : Growth} {n : Node} {w : String} {e : Event} {es es' : List Event}

theorem endings_setTop (h : n.tag = g.top.tag) (w : String) : (g.setTop n w).endings = g.endings := by
  obtain ⟨base, nodes, waiting⟩ := g
  cases nodes with
  | nil => rfl
  | cons m nodes =>
    have htag : n.tag = m.tag := h
    funext k
    show k.closes n.tag = k.closes m.tag
    rw [htag]

theorem settle_setTop (g : Growth) (n m : Node) (w : String) :
    (g.setTop n w).settle m = g.settle m := by
  obtain ⟨base, nodes, waiting⟩ := g
  cases nodes <;> rfl

theorem settle_enter (g : Growth) (e : Element) (c : Node) :
    (g.enter e).settle c = g.setTop ((g.top.addText g.waiting.toList).push c) "" := by
  obtain ⟨base, nodes, waiting⟩ := g
  cases nodes <;> rfl

theorem leave_eq_settle {k : Ending} (h : g.endings k = true) :
    g.leave k = g.settle (g.top.addText g.waiting.toList) := by
  have hleave : g.leave k = g.close := if_pos h
  rw [hleave]
  obtain ⟨base, nodes, waiting⟩ := g
  cases nodes with
  | nil => cases h
  | cons m nodes => cases nodes <;> rfl

/-- When there are no more events, the innermost node is complete. -/
theorem finish_settle (g : Growth) :
    (g.settle (g.top.addText g.waiting.toList)).finish = g.finish := by
  obtain ⟨base, nodes, waiting⟩ := g
  have hflush (n : Node) : n.addText "".toList = n := Node.addText_nil n
  rcases nodes with _ | ⟨m, _ | ⟨m', nodes⟩⟩
  · show closeAll ((base.addText waiting.toList).addText "".toList) [] =
      closeAll (base.addText waiting.toList) []
    rw [hflush]
  · show closeAll ((base.push (m.addText waiting.toList)).addText "".toList) [] =
      closeAll base [m.addText waiting.toList]
    rw [hflush, closeAll, closeAll]
  · show closeAll base ((m'.push (m.addText waiting.toList)).addText "".toList :: nodes) =
      closeAll base (m.addText waiting.toList :: m' :: nodes)
    rw [hflush, closeAll]

/-! ## Both ways -/

/-- The events come to what the innermost node takes, and then to what is around it with the events
that are left. -/
def Comes (g : Growth) (es : List Event) : Prop :=
  (es.foldl step g).finish =
    ((content g.endings g.top g.waiting.toList es).rest.foldl step
      (g.settle (content g.endings g.top g.waiting.toList es).value)).finish

/-- The innermost node changed by events that both ways take. -/
theorem Comes.of_setTop (htag : n.tag = g.top.tag) (hle : es'.length ≤ es.length)
    (hsteps : ((e :: es).foldl step g).finish = (es'.foldl step (g.setTop n w)).finish)
    (hcontent : content g.endings g.top g.waiting.toList (e :: es) =
      content.behind (content g.endings n w.toList es') hle)
    (h : (g.setTop n w).Comes es') : g.Comes (e :: es) := by
  have hwaiting : (g.setTop n w).waiting = w := rfl
  rw [Comes, endings_setTop htag, top_setTop, hwaiting, settle_setTop] at h
  rw [Comes, hsteps, h, hcontent]
  rfl

/-- A verbatim element is complete behind its end, or when there are no more events. -/
theorem finish_foldl_verbatim {x : Element} (hverbatim : x.isVerbatim = true) (g : Growth)
    (es : List Event) (s : String) :
    (es.foldl step ((g.enter x).setTop ((Node.ofElement x).setText s) "")).finish =
      ((verbatim x.ending es).rest.foldl step (g.setTop ((g.top.addText g.waiting.toList).push
        ((Node.ofElement x).setText (s ++ String.ofList (verbatim x.ending es).value))) "")).finish := by
  induction es generalizing s with
  | nil =>
    have hfinish := finish_settle ((g.enter x).setTop ((Node.ofElement x).setText s) "")
    rw [top_setTop, settle_setTop, settle_enter] at hfinish
    have hwaiting : ((g.enter x).setTop ((Node.ofElement x).setText s) "").waiting.toList = [] := rfl
    rw [hwaiting, Node.addText_nil] at hfinish
    simpa [verbatim] using hfinish.symm
  | cons e es ih =>
    rw [verbatim, List.foldl_cons]
    split
    · next heq =>
      subst heq
      have hleave := step_leave (g := g) (e := x) (c := (Node.ofElement x).setText s) rfl ""
      rw [String.toList_empty, Node.addText_nil] at hleave
      rw [hleave, String.ofList_nil, String.append_empty]
    · next hne =>
      rw [step_inside_verbatim hverbatim hne, ih, String.ofList_append, String.append_assoc]

section Comes

variable (hout : g.inVerbatim = false)
  (h : ∀ g : Growth, g.inVerbatim = false → g.Comes es')

include hout h

/-- A node was put behind the text that waited. -/
theorem Comes.push {c : Node} (hle : es'.length ≤ es.length)
    (hsteps : ((e :: es).foldl step g).finish =
      (es'.foldl step (g.setTop ((g.top.addText g.waiting.toList).push c) "")).finish)
    (hcontent : content g.endings g.top g.waiting.toList (e :: es) =
      content.behind (content g.endings ((g.top.addText g.waiting.toList).push c) [] es') hle) :
    g.Comes (e :: es) := by
  obtain ⟨htag, hout'⟩ := outside_push hout c
  exact .of_setTop htag hle hsteps hcontent (h _ hout')

theorem Comes.add {c : Node} (hadd : g.stepContent e = g.add c)
    (hcontent : content g.endings g.top g.waiting.toList (e :: es') =
      content.behind (content g.endings ((g.top.addText g.waiting.toList).push c) [] es')
        (Nat.le_refl _)) : g.Comes (e :: es') := by
  refine .push hout h (Nat.le_refl _) ?_ hcontent
  rw [List.foldl_cons, step_of_content hout, hadd, add_eq]

/-- More text waits. -/
theorem Comes.wait {s : List Char} (hwait : g.stepContent e = g.wait s)
    (hcontent : content g.endings g.top g.waiting.toList (e :: es') =
      content.behind (content g.endings g.top (g.waiting.toList ++ s) es') (Nat.le_refl _)) :
    g.Comes (e :: es') := by
  have htext : (g.waiting ++ String.ofList s).toList = g.waiting.toList ++ s := by simp
  refine .of_setTop rfl (Nat.le_refl _) ?_ (by rw [htext, hcontent])
    (h _ ((inVerbatim_setTop rfl _).trans hout))
  rw [List.foldl_cons, step_of_content hout, hwait, wait_eq]

/-- An end completes the innermost node, or is passed over. -/
theorem Comes.leave (k : Ending) : g.Comes (.leave k :: es') := by
  have hstep : g.step (.leave k) = g.leave k := step_of_content hout _
  cases hk : g.endings k with
  | true =>
    rw [Comes, content, hk, List.foldl_cons, hstep, leave_eq_settle hk]
    rfl
  | false =>
    have hstay : g.leave k = g.setTop g.top g.waiting :=
      (if_neg (by rw [← endings, hk]; exact Bool.false_ne_true)).trans (setTop_top g).symm
    refine .of_setTop rfl (Nat.le_refl _) ?_ (by rw [content, hk]; rfl)
      (h _ ((inVerbatim_setTop rfl _).trans hout))
    rw [List.foldl_cons, hstep, hstay]

end Comes

/-- Both ways come to the same, wherever they are. Induction on the number of events that are left:
behind an element there are fewer than in front of it. -/
theorem comes (es : List Event) (g : Growth) (hout : g.inVerbatim = false) : g.Comes es := by
  cases es with
  | nil =>
    rw [Comes, content]
    exact (finish_settle g).symm
  | cons e es =>
    cases e with
    | text s => exact .wait hout (comes es) rfl (by rw [content])
    | softBreak => exact .wait hout (comes es) rfl (by rw [content])
    | hardBreak => exact .add hout (comes es) rfl (by rw [content])
    | code s => exact .add hout (comes es) rfl (by rw [content])
    | math display s => exact .add hout (comes es) rfl (by rw [content])
    | html s => exact .add hout (comes es) rfl (by rw [content])
    | inlineHtml s => exact .add hout (comes es) rfl (by rw [content])
    | rule => exact .add hout (comes es) rfl (by rw [content])
    | leave k => exact .leave hout (comes es) k
    | enter x =>
      have henter : g.step (.enter x) = g.enter x := step_of_content hout _
      cases hverbatim : x.isVerbatim with
      | true =>
        have hle := (verbatim x.ending es).le
        have hsteps := finish_foldl_verbatim hverbatim g es ""
        rw [← enter_eq_setTop, String.empty_append, ← henter, ← List.foldl_cons] at hsteps
        exact .push hout (comes (verbatim x.ending es).rest) hle hsteps
          (by rw [content, if_pos hverbatim])
      | false =>
        have hin : (g.enter x).inVerbatim = false := (Node.isVerbatim_ofElement x).trans hverbatim
        have hinside : (g.enter x).Comes es := comes es (g.enter x) hin
        have hwaiting : (g.enter x).waiting.toList = [] := rfl
        rw [Comes, settle_enter, hwaiting] at hinside
        -- the node of the element takes events first, and then the node around it the others
        have hle := (content (·.closes (Node.ofElement x).tag) (Node.ofElement x) [] es).le
        refine .push hout (comes _) hle ?_ (by rw [content, hverbatim]; rfl)
        rw [List.foldl_cons, henter]
        exact hinside
termination_by es.length

end Growth

/-- Events that are put into a node make the same of it by descent, and none of them is left. -/
theorem grow_eq_content (base : Node) (es : List Event) :
    (Descent.content (fun _ => false) base [] es).value = base.grow es ∧
      (Descent.content (fun _ => false) base [] es).rest = [] := by
  have hrest := Descent.rest_content es base []
  have hcomes : (Growth.start base).Comes es := Growth.comes es _ rfl
  have hends : (Growth.start base).endings = fun _ => false := rfl
  have hwaiting : (Growth.start base).waiting.toList = [] := rfl
  rw [Growth.Comes, hends, hwaiting] at hcomes
  refine ⟨?_, hrest⟩
  rw [Node.grow, hcomes]
  show _ = (((Descent.content (fun _ => false) base [] es).rest).foldl Growth.step _).finish
  rw [hrest]
  show _ = Growth.closeAll ((Descent.content (fun _ => false) base [] es).value.addText "".toList) []
  rw [String.toList_empty, Node.addText_nil, Growth.closeAll]

end Treatise
