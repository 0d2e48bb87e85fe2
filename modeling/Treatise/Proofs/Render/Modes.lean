import Treatise.Proofs.Render.Elements
import Treatise.Proofs.Render.Typesetting
import Treatise.Proofs.Render.WellFormed

/-!
# Rendering without a state

Both renderers keep a flag while they walk over a document: in a formula, in the head of a table.
The flag is set where such a node is entered and cleared where it is left, whatever it was before.
Where no such node is inside another, this is the same as passing down from each node to its content
what it is in.

* **`Latex.write`**, **`Node.markup`** — the renderers without a state: the flag is inherited.
* **`Latex.nodes_eq_writeAll`**, **`nodesToHtml_eq_markupOf`** — forests in which no such node is
  inside another are rendered like this, and the flag is behind them what it was in front.
* `Latex.snd_node_false`, `inHead_toHtml` — the flag is never set behind a tree that was begun
  without it, so that a renderer can be used again.
* **`render_eq_write_and_markup`** — all this about both renderers, and about the table of contents,
  which is rendered behind the document.
-/

namespace Treatise

open Node (AllOf)

/-! ## Nodes that are not inside each other -/

/-- A formula. -/
def Tag.isMath : Tag → Bool
  | .math _ => true
  | _ => false

/-- The head of a table. -/
def Tag.isTableHead : Tag → Bool
  | .tableHead => true
  | _ => false

namespace Node

/-- There is no node of the kind in the forest. -/
def IsFreeOf (p : Tag → Bool) (ns : List Node) : Prop := AllOf (fun n => p n.tag = false) ns

/-- No node of the kind is inside another one. -/
def NoneNested (p : Tag → Bool) (ns : List Node) : Prop :=
  AllOf (fun n => p n.tag = true → IsFreeOf p n.children) ns

/-- A forest in which no node of the kind is inside another one, and which has none at all if it is
inside one itself. -/
structure Fits (p : Tag → Bool) (inside : Bool) (ns : List Node) : Prop where
  noneNested : NoneNested p ns
  free : inside = true → IsFreeOf p ns

section Fits

variable {p : Tag → Bool} {inside : Bool} {n : Node} {ns : List Node}

theorem Fits.behind (h : Fits p inside (n :: ns)) : Fits p inside ns where
  noneNested := ((allOf_cons n ns).1 h.noneNested).2.2
  free hinside := ((allOf_cons n ns).1 (h.free hinside)).2.2

/-- The content of a node, as part of what the node is in. -/
theorem Fits.children (h : Fits p inside (n :: ns)) : Fits p inside n.children where
  noneNested := ((allOf_cons n ns).1 h.noneNested).2.1
  free hinside := ((allOf_cons n ns).1 (h.free hinside)).2.1

/-- The content of a node of the kind, which is inside this node now. -/
theorem Fits.content (h : Fits p inside (n :: ns)) (hn : p n.tag = true) :
    inside = false ∧ Fits p true n.children := by
  refine ⟨?_, h.children.noneNested, fun _ => ((allOf_cons n ns).1 h.noneNested).1 hn⟩
  cases hinside : inside with
  | false => rfl
  | true => exact absurd hn (by simp [((allOf_cons n ns).1 (h.free hinside)).1])

end Fits

end Node

open Node (Fits)

/-! ## LaTeX -/

namespace Latex

mutual

/-- A node as LaTeX. Whether it is in a formula is inherited. Rows and cells of a table are not
entered, whatever nodes they are. -/
def write (setting : Setting) (inMath : Bool) : Node → String
  | ⟨.table, _, _, _, _, rows⟩ => table rows (writeRows setting inMath rows)
  | ⟨tag, attrs, flags, text, tail, children⟩ =>
    let n : Node := ⟨tag, attrs, flags, text, tail, children⟩
    match leaf? setting n with
    | some s => s
    | none =>
      wrap setting n (plainText (enters inMath tag) text ++
        writeAll setting (enters inMath tag) children)

/-- Nodes that follow each other, with their tails. -/
def writeAll (setting : Setting) (inMath : Bool) : List Node → String
  | [] => ""
  | n :: ns => write setting inMath n ++ plainText inMath n.tail ++ writeAll setting inMath ns

/-- The rows of a table. -/
def writeRows (setting : Setting) (inMath : Bool) : List Node → String
  | [] => ""
  | ⟨tag, _, _, _, _, cells⟩ :: rows =>
    row tag (writeCells setting inMath cells) ++ writeRows setting inMath rows

/-- The content of each cell of a row. -/
def writeCells (setting : Setting) (inMath : Bool) : List Node → List String
  | [] => []
  | ⟨_, _, _, text, _, children⟩ :: cells =>
    Text.trimString (plainText inMath text ++ writeAll setting inMath children) ::
      writeCells setting inMath cells

end

variable {setting : Setting} {inMath : Bool} {n : Node} {ns : List Node}

theorem write_table (h : n.tag = .table) :
    write setting inMath n = table n.children (writeRows setting inMath n.children) := by
  obtain ⟨tag, attrs, flags, text, tail, children⟩ := n
  subst h
  rfl

theorem write_of_ne (h : n.tag ≠ .table) :
    write setting inMath n =
      match leaf? setting n with
      | some s => s
      | none =>
        wrap setting n (plainText (enters inMath n.tag) n.text ++
          writeAll setting (enters inMath n.tag) n.children) := by
  obtain ⟨tag, attrs, flags, text, tail, children⟩ := n
  cases tag with
  | table => exact absurd rfl h
  | _ => rfl

theorem writeRows_cons (n : Node) (ns : List Node) :
    writeRows setting inMath (n :: ns) =
      row n.tag (writeCells setting inMath n.children) ++ writeRows setting inMath ns := by
  cases n
  rfl

theorem writeCells_cons (n : Node) (ns : List Node) :
    writeCells setting inMath (n :: ns) =
      Text.trimString (plainText inMath n.text ++ writeAll setting inMath n.children) ::
        writeCells setting inMath ns := by
  cases n
  rfl

/-- What the walk is in changes at formulas only. -/
theorem enters_of_isMath (h : n.tag.isMath = true) (inMath : Bool) :
    enters inMath n.tag = true ∧ leaves inMath n.tag = false := by
  cases htag : n.tag with
  | math display => exact ⟨rfl, rfl⟩
  | _ => simp [htag, Tag.isMath] at h

theorem enters_of_not_isMath (h : n.tag.isMath = false) (inMath : Bool) :
    enters inMath n.tag = inMath ∧ leaves inMath n.tag = inMath := by
  cases htag : n.tag with
  | math display => simp [htag, Tag.isMath] at h
  | _ => exact ⟨rfl, rfl⟩

/-- The rendering of a node, if that of its content is known. A table goes on with rows, and any
other node with content. -/
theorem node_eq_write_of_children (h : Fits Tag.isMath inMath (n :: ns))
    (hcontent : ∀ {inMath}, Fits Tag.isMath inMath n.children →
      nodes setting n.children inMath = (writeAll setting inMath n.children, inMath) ∧
        tableRows setting n.children inMath = (writeRows setting inMath n.children, inMath)) :
    node setting n inMath = (write setting inMath n, inMath) := by
  by_cases htable : n.tag = .table
  · rw [node_table htable, write_table htable, (hcontent h.children).2]
  · rw [node_of_ne htable, write_of_ne htable]
    cases leaf? setting n with
    | some s => rfl
    | none =>
      dsimp only
      cases hmath : n.tag.isMath with
      | true =>
        obtain ⟨rfl, hinside⟩ := h.content hmath
        rw [(enters_of_isMath hmath false).1, (hcontent hinside).1, (enters_of_isMath hmath true).2]
      | false =>
        rw [(enters_of_not_isMath hmath inMath).1, (hcontent h.children).1,
          (enters_of_not_isMath hmath inMath).2]

/-- Where no formula is inside another, nodes are rendered as if it was inherited what they are in,
and nothing has changed behind them. Induction on the forest, for its nodes as content, as rows and
as cells: a table goes from rows to cells to content. -/
theorem nodes_eq_writeAll (h : Fits Tag.isMath inMath ns) :
    nodes setting ns inMath = (writeAll setting inMath ns, inMath) ∧
      tableRows setting ns inMath = (writeRows setting inMath ns, inMath) ∧
      tableCells setting ns inMath = (writeCells setting inMath ns, inMath) := by
  induction ns using Node.forest_induction generalizing inMath with
  | nil => exact ⟨rfl, rfl, rfl⟩
  | cons n ns below behind =>
    obtain ⟨hcontent, -, hcells⟩ := below h.children
    obtain ⟨hnodes, hrows, hcells'⟩ := behind h.behind
    have hnode := node_eq_write_of_children h fun hfits => ⟨(below hfits).1, (below hfits).2.1⟩
    refine ⟨?_, ?_, ?_⟩
    · rw [nodes_cons, hnode, hnodes]
      rfl
    · rw [tableRows_cons, hcells, hrows, writeRows_cons]
    · rw [tableCells_cons, hcontent, hcells', writeCells_cons]

theorem node_eq_write (h : Fits Tag.isMath inMath [n]) :
    node setting n inMath = (write setting inMath n, inMath) :=
  node_eq_write_of_children h fun hfits =>
    ⟨(nodes_eq_writeAll hfits).1, (nodes_eq_writeAll hfits).2.1⟩

theorem inMath_of_leaves {t : Tag} (h : leaves inMath t = true) :
    t.isMath = false ∧ inMath = true := by
  cases t with
  | math display => cases h
  | _ => exact ⟨rfl, h⟩

/-- Whatever is rendered, the walk is in a formula behind it only if it was in front of it. -/
theorem inMath_of_nodes :
    ((nodes setting ns inMath).2 = true → inMath = true) ∧
      ((tableRows setting ns inMath).2 = true → inMath = true) ∧
      ((tableCells setting ns inMath).2 = true → inMath = true) := by
  induction ns using Node.forest_induction generalizing inMath with
  | nil => exact ⟨id, id, id⟩
  | cons n ns below behind =>
    have hnode (h : (node setting n inMath).2 = true) : inMath = true := by
      by_cases htable : n.tag = .table
      · rw [node_table htable] at h
        exact below.2.1 h
      · rw [node_of_ne htable] at h
        cases hleaf : leaf? setting n with
        | some s =>
          rw [hleaf] at h
          exact h
        | none =>
          rw [hleaf] at h
          obtain ⟨hmath, hinside⟩ := inMath_of_leaves h
          have hcontent := below.1 hinside
          rwa [(enters_of_not_isMath hmath inMath).1] at hcontent
    refine ⟨fun h => hnode (behind.1 h), fun h => ?_, fun h => ?_⟩
    · rw [tableRows_cons] at h
      exact below.2.2 (behind.2.1 h)
    · rw [tableCells_cons] at h
      exact below.1 (behind.2.2 h)

/-- A tree of its own leaves the walk outside a formula. -/
theorem snd_node_false (n : Node) : (node setting n false).2 = false := by
  have hforest : (nodes setting [n] false).2 = true → false = true := inMath_of_nodes.1
  rw [nodes_cons] at hforest
  exact Bool.eq_false_iff.2 fun h => absurd (hforest h) Bool.false_ne_true

end Latex

/-! ## HTML -/

namespace HtmlRenderer

/-- The HTML of a node that is rendered without a walk over its content. -/
def leafHtml? (b : Bibliography) (n : Node) : Option (List Html) := (leaf? b 0 n).map (·.1)

/-- The file of a document shows in the warnings only. -/
theorem leafHtml?_eq (b : Bibliography) (fileId : Nat) (n : Node) :
    leafHtml? b n = (leaf? b fileId n).map (·.1) := by
  cases htag : n.tag with
  | citation =>
    cases hnumber : b.number? ((n.attr? "key").getD "") <;>
      simp [leafHtml?, leaf?, htag, citation, hnumber]
  | math display => cases display <;> simp [leafHtml?, leaf?, htag]
  | _ => simp [leafHtml?, leaf?, htag]

end HtmlRenderer

mutual

/-- A node as HTML. Whether it is in the head of a table is inherited. -/
def Node.markup (b : Bibliography) (inHead : Bool) : Node → List Html
  | ⟨tag, attrs, flags, text, tail, children⟩ =>
    let n : Node := ⟨tag, attrs, flags, text, tail, children⟩
    match HtmlRenderer.leafHtml? b n with
    | some html => html
    | none =>
      HtmlRenderer.wrap (inHead || tag.isTableHead) n
        (.text text :: markupOf b (inHead || tag.isTableHead) children)

/-- Nodes that follow each other as HTML, with their tails. -/
def markupOf (b : Bibliography) (inHead : Bool) : List Node → List Html
  | [] => []
  | n :: ns => n.markup b inHead ++ .text n.tail :: markupOf b inHead ns

end

section Html

variable {b : Bibliography} {fileId : Nat} {n : Node} {ns : List Node} {s : HtmlState}

theorem Node.markup_eq (b : Bibliography) (inHead : Bool) (n : Node) :
    n.markup b inHead =
      match HtmlRenderer.leafHtml? b n with
      | some html => html
      | none =>
        HtmlRenderer.wrap (inHead || n.tag.isTableHead) n
          (.text n.text :: markupOf b (inHead || n.tag.isTableHead) n.children) := by
  cases n
  rfl

theorem nodesToHtml_cons (n : Node) (ns : List Node) :
    nodesToHtml b fileId (n :: ns) s =
      ((n.toHtml b fileId s).1 ++
          .text n.tail :: (nodesToHtml b fileId ns (n.toHtml b fileId s).2).1,
        (nodesToHtml b fileId ns (n.toHtml b fileId s).2).2) := rfl

/-- What the walk is in changes at heads of tables only. -/
theorem HtmlState.enter_of_isTableHead {t : Tag} (h : t.isTableHead = true) (s : HtmlState) :
    (s.enter t).inHead = true ∧ (s.leave t).inHead = false := by
  cases t with
  | tableHead => exact ⟨rfl, rfl⟩
  | _ => cases h

theorem HtmlState.enter_of_not_isTableHead {t : Tag} (h : t.isTableHead = false)
    (s : HtmlState) : s.enter t = s ∧ s.leave t = s := by
  cases t with
  | tableHead => cases h
  | _ => exact ⟨rfl, rfl⟩

/-- Where no head of a table is inside another, nodes are rendered as if it was inherited what they
are in, and the flag has not changed behind them. -/
theorem nodesToHtml_eq_markupOf (h : Fits Tag.isTableHead s.inHead ns) :
    (nodesToHtml b fileId ns s).1 = markupOf b s.inHead ns ∧
      (nodesToHtml b fileId ns s).2.inHead = s.inHead := by
  induction ns using Node.forest_induction generalizing s with
  | nil => exact ⟨rfl, rfl⟩
  | cons n ns below behind =>
    have hnode : (n.toHtml b fileId s).1 = n.markup b s.inHead ∧
        (n.toHtml b fileId s).2.inHead = s.inHead := by
      rw [Node.markup_eq, HtmlRenderer.leafHtml?_eq b fileId n]
      cases hleaf : HtmlRenderer.leaf? b fileId n with
      | some r =>
        rw [toHtml_of_leaf hleaf]
        exact ⟨rfl, rfl⟩
      | none =>
        rw [toHtml_of_none hleaf]
        dsimp only [Option.map_none]
        cases hhead : n.tag.isTableHead with
        | true =>
          obtain ⟨hout, hinside⟩ := h.content hhead
          have henter := (HtmlState.enter_of_isTableHead hhead s).1
          obtain ⟨hcontent, hflag⟩ := below (s := s.enter n.tag) (by rwa [henter])
          rw [hcontent, hflag, henter, Bool.or_true, hout]
          exact ⟨rfl, (HtmlState.enter_of_isTableHead hhead _).2⟩
        | false =>
          obtain ⟨hcontent, hflag⟩ := below h.children
          rw [(HtmlState.enter_of_not_isTableHead hhead s).1, hcontent, hflag, Bool.or_false,
            (HtmlState.enter_of_not_isTableHead hhead _).2]
          exact ⟨rfl, hflag⟩
    have hrest : Fits Tag.isTableHead (n.toHtml b fileId s).2.inHead ns := hnode.2 ▸ h.behind
    obtain ⟨hmarkup, hflag⟩ := behind hrest
    rw [nodesToHtml_cons, hnode.1, hmarkup, hflag, hnode.2]
    exact ⟨rfl, rfl⟩

/-- Whatever is rendered, the walk is in the head of a table behind it only if it was in front. -/
theorem inHead_of_nodesToHtml (h : (nodesToHtml b fileId ns s).2.inHead = true) :
    s.inHead = true := by
  induction ns using Node.forest_induction generalizing s with
  | nil => exact h
  | cons n ns below behind =>
    replace h : (n.toHtml b fileId s).2.inHead = true := behind h
    cases hleaf : HtmlRenderer.leaf? b fileId n with
    | some r =>
      rw [toHtml_of_leaf hleaf] at h
      exact h
    | none =>
      rw [toHtml_of_none hleaf] at h
      dsimp only at h
      cases hhead : n.tag.isTableHead with
      | true => exact absurd h (by simp [(HtmlState.enter_of_isTableHead hhead _).2])
      | false =>
        rw [(HtmlState.enter_of_not_isTableHead hhead _).2] at h
        have hcontent := below h
        rwa [(HtmlState.enter_of_not_isTableHead hhead s).1] at hcontent

/-- What is rendered depends on the flag of the state and not on the warnings so far. -/
theorem fst_nodesToHtml_congr {s' : HtmlState} (h : s.inHead = s'.inHead) :
    (nodesToHtml b fileId ns s).1 = (nodesToHtml b fileId ns s').1 ∧
      (nodesToHtml b fileId ns s).2.inHead = (nodesToHtml b fileId ns s').2.inHead := by
  induction ns using Node.forest_induction generalizing s s' with
  | nil => exact ⟨rfl, h⟩
  | cons n ns below behind =>
    have hnode : (n.toHtml b fileId s).1 = (n.toHtml b fileId s').1 ∧
        (n.toHtml b fileId s).2.inHead = (n.toHtml b fileId s').2.inHead := by
      cases hleaf : HtmlRenderer.leaf? b fileId n with
      | some r =>
        rw [toHtml_of_leaf hleaf, toHtml_of_leaf hleaf]
        exact ⟨rfl, h⟩
      | none =>
        obtain ⟨hcontent, hflag⟩ := below (HtmlState.inHead_enter_congr h Iff.rfl)
        rw [toHtml_of_none hleaf, toHtml_of_none hleaf]
        dsimp only
        rw [hcontent, hflag]
        exact ⟨rfl, HtmlState.inHead_leave_congr hflag Iff.rfl⟩
    obtain ⟨hrest, hflag⟩ := behind hnode.2
    rw [nodesToHtml_cons, nodesToHtml_cons, hnode.1, hrest]
    exact ⟨rfl, hflag⟩

end Html

/-! ## One renderer for several trees -/

/-- The state of a LaTeX renderer behind trees that it rendered one after the other. -/
def Latex.stateBehind (setting : Setting) (ts : List Node) : Bool :=
  ts.foldl (fun inMath t => (node setting t inMath).2) false

theorem Latex.stateBehind_eq (setting : Setting) (ts : List Node) :
    stateBehind setting ts = false := by
  induction ts with
  | nil => rfl
  | cons t ts ih => rwa [stateBehind, List.foldl_cons, snd_node_false]

/-- The state of an HTML renderer behind trees that it rendered one after the other. -/
def HtmlState.behind (b : Bibliography) (fileId : Nat) (ts : List Node) : HtmlState :=
  ts.foldl (fun s t => (t.renderHtml b fileId s).2) {}

section Renderer

variable {b : Bibliography} {fileId : Nat} {n : Node} {s : HtmlState}

theorem inHead_of_toHtml (h : (n.toHtml b fileId s).2.inHead = true) : s.inHead = true :=
  @inHead_of_nodesToHtml b fileId [n] s h

theorem HtmlState.inHead_behind (b : Bibliography) (fileId : Nat) (ts : List Node) :
    (behind b fileId ts).inHead = false := by
  have hrun : ∀ s : HtmlState, s.inHead = false →
      (ts.foldl (fun s t => (t.renderHtml b fileId s).2) s).inHead = false := by
    induction ts with
    | nil => exact fun _ hs => hs
    | cons t ts ih =>
      intro s hs
      refine ih _ (Bool.eq_false_iff.2 fun h => ?_)
      exact absurd (inHead_of_toHtml h) (by simp [hs])
  exact hrun {} rfl

/-- Of what came before, a tree shows at most that it is in the head of a table. -/
theorem fst_renderHtml_congr {s' : HtmlState} (h : s.inHead = s'.inHead) :
    (n.renderHtml b fileId s).1 = (n.renderHtml b fileId s').1 := by
  have hforest : (nodesToHtml b fileId [n] s).1 = (nodesToHtml b fileId [n] s').1 :=
    (fst_nodesToHtml_congr h).1
  rw [nodesToHtml_cons, nodesToHtml_cons] at hforest
  exact congrArg Html.printAll (List.append_cancel_right hforest)

theorem toHtml_eq_markup (h : Fits Tag.isTableHead s.inHead [n]) :
    (n.toHtml b fileId s).1 = n.markup b s.inHead ∧
      (n.toHtml b fileId s).2.inHead = s.inHead := by
  obtain ⟨hmarkup, hflag⟩ := @nodesToHtml_eq_markupOf b fileId [n] s h
  rw [nodesToHtml_cons] at hmarkup hflag
  exact ⟨List.append_cancel_right hmarkup, hflag⟩

end Renderer

/-- The renderers without a state. Where no formula is inside another and no head of a table is
inside another, both renderers make of a tree what the recursions make in which a node inherits what
it is in, and leave their flags as they were. So it does not matter what a renderer rendered before,
and the table of contents, which is rendered behind the document, is the same as with a new
renderer. -/
theorem render_eq_write_and_markup (n : Node) (hmath : Node.NoneNested Tag.isMath [n])
    (hhead : Node.NoneNested Tag.isTableHead [n]) :
    (∀ setting inMath, (inMath = true → Node.IsFreeOf Tag.isMath [n]) →
        Latex.node setting n inMath = (Latex.write setting inMath n, inMath)) ∧
      (∀ b fileId (s : HtmlState), (s.inHead = true → Node.IsFreeOf Tag.isTableHead [n]) →
        (n.renderHtml b fileId s).1 = Html.printAll (n.markup b s.inHead) ∧
          (n.renderHtml b fileId s).2.inHead = s.inHead) ∧
      (∀ setting before, Latex.node setting n (Latex.stateBehind setting before) =
        (n.renderLatex setting, false)) ∧
      (∀ b fileId before, (n.renderHtml b fileId (.behind b fileId before)).1 =
        (n.renderHtml b fileId {}).1) ∧
      ∀ o fileId setting contents,
        (Rendering.html o fileId n contents).contents =
            (contents.renderHtml (.ofDocument n) fileId {}).1 ∧
          (Rendering.latex o setting n contents).contents = contents.renderLatex setting := by
  refine ⟨fun setting inMath hfree => Latex.node_eq_write ⟨hmath, hfree⟩,
    fun b fileId s hfree => ?_, fun setting before => ?_, fun b fileId before => ?_,
    fun o fileId setting contents => ⟨?_, ?_⟩⟩
  · obtain ⟨hmarkup, hflag⟩ := @toHtml_eq_markup b fileId n s ⟨hhead, hfree⟩
    exact ⟨congrArg Html.printAll hmarkup, hflag⟩
  · rw [Latex.stateBehind_eq]
    exact Prod.ext rfl (Latex.snd_node_false n)
  · exact fst_renderHtml_congr (HtmlState.inHead_behind b fileId before)
  · exact fst_renderHtml_congr (HtmlState.inHead_behind (.ofDocument n) fileId [n])
  · exact congrArg (fun inMath => (Latex.node setting contents inMath).1)
      (Latex.snd_node_false n)

/-- A table with a formula in a cell of its head. -/
theorem render_eq_write_and_markup_of_table :
    let formula : Node := { (Node.ofTag (.math false)).setText "x_1" with tail := "_b" }
    let head : Node := { (Node.ofTag .tableCell).setText "a_" with children := [formula] }
    let n : Node := { Node.ofTag .table with
      children := [{ Node.ofTag .tableHead with children := [head] },
        { Node.ofTag .tableRow with children := [(Node.ofTag .tableCell).setText "c_"] }] }
    let setting : Latex.Setting := ⟨{}, noAssets⟩
    Node.NoneNested Tag.isMath [n] ∧ Node.NoneNested Tag.isTableHead [n] ∧
      Latex.node setting n false = (Latex.write setting false n, false) ∧
      Latex.write setting false n = "\\begin\x7btabular\x7d\x7bl\x7d\n" ++
        "a\\_$x_1$\\_b \\\\\n\\hline\nc\\_ \\\\\n\\end\x7btabular\x7d\n\n" ∧
      (n.renderHtml [] 0 {}).1 = Html.printAll (n.markup [] false) ∧
      Html.printAll (n.markup [] false) = "<table>\n<thead>\n<tr><th>a_\\(x_1\\)_b</th></tr>\n" ++
        "</thead>\n<tr><td>c_</td></tr>\n</table>\n" := by
  intro formula head n setting
  have hmath : Node.NoneNested Tag.isMath [n] := by
    unfold Node.NoneNested Node.IsFreeOf AllOf
    decide
  have hhead : Node.NoneNested Tag.isTableHead [n] := by
    unfold Node.NoneNested Node.IsFreeOf AllOf
    decide
  obtain ⟨hlatex, hhtml, -⟩ := render_eq_write_and_markup n hmath hhead
  exact ⟨hmath, hhead, hlatex setting false nofun, by decide +kernel,
    (hhtml [] 0 {} nofun).1, by decide +kernel⟩

end Treatise
