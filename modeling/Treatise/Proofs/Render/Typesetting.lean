import Treatise.Conversion
import Treatise.Proofs.Numbering.Flattening

/-!
# The typesetting output and numbers

The typesetting system makes all numbers itself. So the output is that of the document as it was
read, whether it has sections and numbers or not.

* **`Latex.Alike`** — lists of nodes from which the renderer makes the same: content, cells and rows.
* **`Latex.alike_of_settles`** — numbering and resolving change only what the renderer leaves out or
  reads elsewhere. The words of a heading move behind its number, where they are read at the same
  place of the output.
* **`Latex.nodes_of_sectioned`** — a section is rendered as what is in it.
* **`content_eq_renderLatex`** — the output of a conversion is the document as it was read.
-/

namespace Treatise

open Node (AllOf LaidOut)

namespace Latex

variable {setting : Setting} {n m : Node} {ns ms : List Node}

/-! ## The renderer, node by node -/

theorem node_table (h : n.tag = .table) (inMath : Bool) :
    node setting n inMath =
      (table n.children (tableRows setting n.children inMath).1,
        (tableRows setting n.children inMath).2) := by
  obtain ⟨tag, attrs, flags, text, tail, children⟩ := n
  subst h
  rfl

theorem node_of_ne (h : n.tag ≠ .table) (inMath : Bool) :
    node setting n inMath =
      match leaf? setting n with
      | some s => (s, inMath)
      | none =>
        (wrap setting n (plainText (enters inMath n.tag) n.text ++
            (nodes setting n.children (enters inMath n.tag)).1),
          leaves (nodes setting n.children (enters inMath n.tag)).2 n.tag) := by
  obtain ⟨tag, attrs, flags, text, tail, children⟩ := n
  cases tag with
  | table => exact absurd rfl h
  | _ => rfl

theorem nodes_cons (n : Node) (ns : List Node) (inMath : Bool) :
    nodes setting (n :: ns) inMath =
      ((node setting n inMath).1 ++ plainText (node setting n inMath).2 n.tail ++
          (nodes setting ns (node setting n inMath).2).1,
        (nodes setting ns (node setting n inMath).2).2) := rfl

theorem tableRows_cons (n : Node) (ns : List Node) (inMath : Bool) :
    tableRows setting (n :: ns) inMath =
      (row n.tag (tableCells setting n.children inMath).1 ++
          (tableRows setting ns (tableCells setting n.children inMath).2).1,
        (tableRows setting ns (tableCells setting n.children inMath).2).2) := by
  cases n
  rfl

theorem tableCells_cons (n : Node) (ns : List Node) (inMath : Bool) :
    tableCells setting (n :: ns) inMath =
      (Text.trimString (plainText inMath n.text ++ (nodes setting n.children inMath).1) ::
          (tableCells setting ns (nodes setting n.children inMath).2).1,
        (tableCells setting ns (nodes setting n.children inMath).2).2) := by
  cases n
  rfl

@[simp] theorem plainText_empty (inMath : Bool) : plainText inMath "" = "" := by
  cases inMath <;> rfl

theorem nodes_append (ns ms : List Node) (inMath : Bool) :
    nodes setting (ns ++ ms) inMath =
      ((nodes setting ns inMath).1 ++ (nodes setting ms (nodes setting ns inMath).2).1,
        (nodes setting ms (nodes setting ns inMath).2).2) := by
  induction ns generalizing inMath with
  | nil => rw [nodes, String.empty_append]; rfl
  | cons n ns ih => simp only [List.cons_append, nodes_cons, ih, String.append_assoc]

/-- A generated element that is left out. -/
theorem node_ignored {role : Role} (h : n.tag = .span role)
    (hrole : setting.options.ignored.contains role = true) (inMath : Bool) :
    node setting n inMath = ("", inMath) := by
  have hleaf : leaf? setting n = some "" := by rw [leaf?, h]; exact if_pos hrole
  rw [node_of_ne (by simp [h]), hleaf]

/-- A node around its content, for a kind of node that does not begin or end a formula. -/
theorem node_around (htag : n.tag ≠ .table) (hleaf : leaf? setting n = none)
    (hmath : ∀ display, n.tag ≠ .math display) (inMath : Bool) :
    node setting n inMath =
      (wrap setting n (plainText inMath n.text ++ (nodes setting n.children inMath).1),
        (nodes setting n.children inMath).2) := by
  have henters : enters inMath n.tag = inMath := by
    unfold enters
    split
    · next display h => exact absurd h (hmath display)
    · rfl
  have hleaves : ∀ b, leaves b n.tag = b := by
    intro b
    unfold leaves
    split
    · next display h => exact absurd h (hmath display)
    · rfl
  rw [node_of_ne htag, hleaf, henters, hleaves]

/-- Of a node that is no table only what is made of its children counts. -/
theorem node_setChildren (htable : n.tag ≠ .table) {cs : List Node}
    (h : ∀ inMath, nodes setting cs inMath = nodes setting n.children inMath) (inMath : Bool) :
    node setting { n with children := cs } inMath = node setting n inMath := by
  have hleaf : leaf? setting { n with children := cs } = leaf? setting n := rfl
  rw [node_of_ne (n := { n with children := cs }) htable, node_of_ne htable, hleaf]
  cases leaf? setting n with
  | some s => rfl
  | none =>
    have hwrap : ∀ content, wrap setting { n with children := cs } content =
        wrap setting n content := fun _ => rfl
    simp only [hwrap, h]

/-! ## Nodes that are rendered alike -/

/-- All nodes are rows of a table, with cells in them. -/
def AreRows (ns : List Node) : Prop :=
  ∀ n ∈ ns, n.tag.isRow = true ∧ ∀ c ∈ n.children, c.tag = .tableCell

/-- The renderer makes the same of two lists of nodes: as content, and as cells or rows, if this is
what the first are. -/
structure Alike (setting : Setting) (ns ms : List Node) : Prop where
  nodes : ∀ inMath, nodes setting ms inMath = nodes setting ns inMath
  cells : (∀ n ∈ ns, n.tag = .tableCell) →
    ∀ inMath, tableCells setting ms inMath = tableCells setting ns inMath
  rows : AreRows ns → ∀ inMath, tableRows setting ms inMath = tableRows setting ns inMath
  columns : AreRows ns → columns ms = columns ns
  length : ms.length = ns.length

theorem Alike.nil : Alike setting [] [] :=
  ⟨fun _ => rfl, fun _ _ => rfl, fun _ _ => rfl, fun _ => rfl, rfl⟩

/-- Nodes of which the first is no part of a table. -/
theorem Alike.cons (hn : n.tag.isRow = false) (hcell : n.tag ≠ .tableCell)
    (hnode : ∀ inMath, node setting m inMath = node setting n inMath) (htail : m.tail = n.tail)
    (behind : Alike setting ns ms) : Alike setting (n :: ns) (m :: ms) where
  nodes inMath := by rw [nodes_cons, nodes_cons, hnode, htail, behind.nodes]
  cells h := absurd (h n List.mem_cons_self) hcell
  rows h := absurd (h n List.mem_cons_self).1 (by simp [hn])
  columns h := absurd (h n List.mem_cons_self).1 (by simp [hn])
  length := congrArg (· + 1) behind.length

/-- Nodes of which the first gets other children. -/
theorem Alike.cons_children {cs : List Node} (below : Alike setting n.children cs)
    (behind : Alike setting ns ms) (hlaid : LaidOut n) (hbelow : AllOf LaidOut n.children) :
    Alike setting (n :: ns) ({ n with children := cs } :: ms) := by
  have hnode : ∀ inMath, node setting { n with children := cs } inMath = node setting n inMath := by
    intro inMath
    -- of tables alone the renderer looks deeper than at the children
    by_cases htable : n.tag = .table
    · have hrows : AreRows n.children := by
        intro c hc
        have hrow : c.tag.isRow = true := Tag.isRow_of_holds (htable ▸ hlaid c hc)
        have hcells : LaidOut c := hbelow c (Node.mem_descendantsOf_of_mem hc)
        exact ⟨hrow, fun d hd => Tag.eq_tableCell_of_holds hrow (hcells d hd)⟩
      rw [node_table (n := { n with children := cs }) htable, node_table htable,
        show ({ n with children := cs } : Node).children = cs from rfl, below.rows hrows, table, table,
        below.columns hrows]
    · exact node_setChildren htable below.nodes inMath
  refine ⟨?_, ?_, ?_, ?_, congrArg (· + 1) behind.length⟩
  · intro inMath
    rw [nodes_cons, nodes_cons, hnode, behind.nodes]
  · intro h inMath
    obtain ⟨-, hns⟩ := List.forall_mem_cons.1 h
    rw [tableCells_cons, tableCells_cons, behind.cells hns]
    simp only [below.nodes]
  · intro h inMath
    obtain ⟨⟨-, hcells⟩, hns⟩ := List.forall_mem_cons.1 h
    rw [tableRows_cons, tableRows_cons, behind.rows hns]
    simp only [below.cells hcells]
  · intro _
    show " ".intercalate (List.replicate (max cs.length 1) "l") = _
    rw [below.length]
    rfl

/-! ## Numbers and references -/

/-- What the renderer leaves out by default: it holds all numbers that a run makes. -/
def Setting.LeavesNumbersOut (setting : Setting) : Prop :=
  setting.options.ignored.contains .sectionNumber = true ∧
    setting.options.ignored.contains .blockNumber = true

/-- A heading with a number in front of its words is rendered as without it: the words are those
behind the number now, and not those in front of everything. -/
theorem node_numberedHeading (hsetting : setting.LeavesNumbersOut) {level : Nat}
    (htag : n.tag = .heading level) {cs : List Node}
    (hcs : ∀ inMath, nodes setting cs inMath = nodes setting n.children inMath) (number : String)
    (inMath : Bool) :
    node setting (n.numberedHeading number cs) inMath = node setting n inMath := by
  have hleaf : ∀ k : Node, k.tag = .heading level → leaf? setting k = none := by
    intro k hk
    rw [leaf?, hk]
  have hwrap : ∀ content, wrap setting (n.numberedHeading number cs) content =
      wrap setting n content := fun _ => rfl
  have hspan : node setting (Node.sectionSpan number n.text) inMath = ("", inMath) :=
    node_ignored rfl hsetting.1 inMath
  have htag' : (n.numberedHeading number cs).tag = .heading level := htag
  rw [node_around (by simp [htag']) (hleaf _ htag') (by simp [htag']),
    node_around (by simp [htag]) (hleaf _ htag) (by simp [htag]), hwrap]
  show (wrap setting n (plainText inMath "" ++
    (nodes setting (Node.sectionSpan number n.text :: cs) inMath).1), _) = _
  rw [show (n.numberedHeading number cs).children = Node.sectionSpan number n.text :: cs from rfl,
    nodes_cons, hspan, plainText_empty, String.empty_append, String.empty_append, hcs]
  rfl

/-- Of a statement the renderer reads the announcement and the content, and not the `id`. -/
theorem node_block {st : Statement} (hn : n.tag = .block st) (hm : m.tag = .block st)
    (htext : m.text = n.text)
    (hbelow : ∀ inMath, nodes setting m.children inMath = nodes setting n.children inMath)
    (inMath : Bool) : node setting m inMath = node setting n inMath := by
  have hleaf : ∀ k : Node, k.tag = .block st → leaf? setting k = none := by
    intro k hk
    rw [leaf?, hk]
  have hwrap : ∀ content, wrap setting m content = wrap setting n content := by
    intro content
    rw [wrap, wrap, hn, hm]
  rw [node_around (by simp [hm]) (hleaf m hm) (by simp [hm]),
    node_around (by simp [hn]) (hleaf n hn) (by simp [hn]), hwrap, htext, hbelow]

/-- A section is rendered as what is in it. -/
theorem node_section (h : n.tag = .section) (inMath : Bool) :
    node setting n inMath =
      (plainText inMath n.text ++ (nodes setting n.children inMath).1,
        (nodes setting n.children inMath).2) := by
  have hleaf : leaf? setting n = none := by rw [leaf?, h]
  rw [node_around (by simp [h]) hleaf (by simp [h]), wrap, h]

/-- Of a reference the renderer reads the key only. -/
theorem node_reference (h : n.tag = .reference) (inMath : Bool) :
    node setting n inMath = (command "ref" (keyOf n), inMath) := by
  have hleaf : leaf? setting n = some (command "ref" (keyOf n)) := by rw [leaf?, h]
  rw [node_of_ne (by simp [h]), hleaf]

/-- Numbering and resolving a document does not change its output, if every statement that was
announced as numbered takes a number. -/
theorem alike_of_settles (hsetting : setting.LeavesNumbersOut) {o : NumberingOptions}
    (ho : o.onlyReferenced = false) {labels : Dict Target} {fileId : Nat}
    {enclosing : List (Option Target)} {s s' : Numbering}
    (h : Settles o labels fileId enclosing s ns ms s') (hlaid : AllOf LaidOut ns) :
    Alike setting ns ms := by
  -- no statement loses its number, so each is announced as it was
  have hrestrict : ∀ (st : Statement) labeled, st.restrict o labeled = st := by
    intro st labeled
    simp [Statement.restrict, ho]
  induction h with
  | nil => exact .nil
  | heading _ tag _ _ below behind =>
    obtain ⟨-, hchildren, hns⟩ := (Node.allOf_cons _ _).1 hlaid
    exact .cons (by rw [tag]; rfl) (by simp [tag])
      (node_numberedHeading hsetting tag (below hchildren).nodes _) rfl (behind hns)
  | numbered _ tag restrict _ _ _ below behind | unnumbered _ tag restrict _ _ _ below behind =>
    obtain ⟨-, hchildren, hns⟩ := (Node.allOf_cons _ _).1 hlaid
    rw [hrestrict] at restrict
    subst restrict
    exact .cons (by rw [tag]; rfl) (by simp [tag])
      (node_block tag rfl rfl (below hchildren).nodes) rfl (behind hns)
  | @place enclosing _ _ n _ _ _ tag _ behind =>
    obtain ⟨-, -, hns⟩ := (Node.allOf_cons _ _).1 hlaid
    refine .cons (by rw [tag]; rfl) (by simp [tag]) (fun inMath => ?_) rfl (behind hns)
    rw [node_ignored tag hsetting.2, node_ignored (n := n.setText _) tag hsetting.2]
  | label _ tag _ behind =>
    obtain ⟨-, -, hns⟩ := (Node.allOf_cons _ _).1 hlaid
    exact .cons (by rw [tag]; rfl) (by simp [tag]) (fun _ => rfl) rfl (behind hns)
  | @reference _ _ _ n _ _ _ tag _ behind =>
    obtain ⟨-, -, hns⟩ := (Node.allOf_cons _ _).1 hlaid
    refine .cons (by rw [tag]; rfl) (by simp [tag]) (fun inMath => ?_) rfl (behind hns)
    rw [node_reference tag, node_reference (n := { n with children := _ }) tag]
    rfl
  | @«section» _ _ _ _ n before _ _ _ tag _ _ _ below behind =>
    obtain ⟨-, hchildren, hns⟩ := (Node.allOf_cons _ _).1 hlaid
    have hsettled : (n.settledSection before (resolveNodes labels fileId before).1).text = n.text ∧
        (n.settledSection before (resolveNodes labels fileId before).1).tail = n.tail := by
      rw [Node.settledSection, Node.refreshSection_eq]
      exact ⟨rfl, rfl⟩
    refine .cons (by rw [tag]; rfl) (by simp [tag]) (fun inMath => ?_) hsettled.2 (behind hns)
    rw [node_section tag, node_section (by rw [Node.tag_settledSection, tag]), hsettled.1,
      Node.children_settledSection, (below hchildren).nodes]
  | plain _ _ _ _ _ below behind =>
    obtain ⟨hn, hchildren, hns⟩ := (Node.allOf_cons _ _).1 hlaid
    exact .cons_children (below hchildren) (behind hns) hn hchildren

/-! ## Sections -/

theorem nodes_of_sectioned (h : Sectioned ns ms) (inMath : Bool) :
    nodes setting ns inMath = nodes setting ms inMath := by
  induction h generalizing inMath with
  | nil => rfl
  | node _ _ ih => rw [nodes_cons, nodes_cons, ih]
  | «section» tag text tail _ _ ihInside ih =>
    rw [nodes_cons, node_section tag, text, tail, plainText_empty, plainText_empty,
      String.empty_append, String.append_empty, ihInside, ih, nodes_append]

end Latex

/-! ## Options -/

namespace RenderOptions

theorem ignored_set (o : RenderOptions) {key : String} (h : key ≠ "ignore_classes")
    (value : String) : (o.set key value).1.ignored = o.ignored := by
  unfold set
  split
  · split <;> rfl
  · rfl

theorem ignored_setAll (o : RenderOptions) {pairs : List (String × String)}
    (h : ∀ p ∈ pairs, p.1 ≠ "ignore_classes") : (o.setAll pairs).1.ignored = o.ignored := by
  induction pairs generalizing o with
  | nil => rfl
  | cons p pairs ih =>
    obtain ⟨hp, hpairs⟩ := List.forall_mem_cons.1 h
    exact (ih (o.set p.1 p.2).1 hpairs).trans (ignored_set o hp p.2)

/-- Only one option says what is left out. -/
theorem ignored_ofDict {d : Dict String} (h : d.get? "ignore_classes" = none) :
    (ofDict d).1.ignored = ({} : RenderOptions).ignored := by
  refine ignored_setAll {} fun p hp hkey => ?_
  rw [Dict.get?, Option.map_eq_none_iff, List.find?_eq_none] at h
  exact h p hp (by simp [hkey])

end RenderOptions

/-! ## Documents -/

section Document

variable {setting : Latex.Setting} {root : Node} (hroot : root.tag ≠ .table)

include hroot

theorem renderLatex_resolve (hsetting : setting.LeavesNumbersOut) {o : NumberingOptions}
    (ho : o.onlyReferenced = false) (fileId : Nat) (hfresh : AllOf Node.Fresh [root])
    (hlaid : AllOf LaidOut [root]) :
    (resolve o fileId root).root.renderLatex setting = root.renderLatex setting := by
  have halike := Latex.alike_of_settles hsetting ho (settles_resolve o fileId hfresh)
    ((Node.allOf_cons root []).1 hlaid).2.1
  exact congrArg Prod.fst (Latex.node_setChildren hroot halike.nodes false)

theorem renderLatex_resolve_buildSections (o : NumberingOptions) (fileId : Nat)
    (hsections : AllOf (·.tag ≠ .section) root.children) :
    (resolve o fileId (buildSections root)).root.renderLatex setting =
      (resolve o fileId root).root.renderLatex setting := by
  have hsectioned := (sectioned_resolve o fileId hsections).2.2.2
  have hchildren : (resolve o fileId (buildSections root)).root =
      { (resolve o fileId root).root with
        children := (resolve o fileId (buildSections root)).root.children } :=
    buildSections_with_children root _
  rw [hchildren]
  exact congrArg Prod.fst (Latex.node_setChildren (n := (resolve o fileId root).root) hroot
    (Latex.nodes_of_sectioned hsectioned) false)

end Document

theorem leavesNumbersOut_ofDict {d : Dict String} (h : d.get? "ignore_classes" = none)
    (assets : AssetProbe) :
    Latex.Setting.LeavesNumbersOut ⟨(RenderOptions.ofDict d).1, assets⟩ := by
  rw [Latex.Setting.LeavesNumbersOut, RenderOptions.ignored_ofDict h]
  decide

/-- What a conversion to the typesetting format writes is the document as it was read: sections,
numbers and resolved references are not seen, unless statements that were announced as numbered lose
their numbers, or the option is given that says which generated elements are left out. -/
theorem content_eq_renderLatex (o : Options) (assets : AssetProbe) (source : List Char)
    (fileId : Nat) (hformat : o.format = .latex) (hnumbering : o.numbering.onlyReferenced = false)
    (hrender : o.render.get? "ignore_classes" = none) :
    (convert o assets source fileId).content =
      (Document.parse source fileId).root.renderLatex
        ⟨(RenderOptions.ofDict o.render).1, assets⟩ := by
  have hsetting := leavesNumbersOut_ofDict hrender assets
  have hroot : (Document.parse source fileId).root.tag ≠ .table := by
    rw [(grows_parse source fileId).tag_eq]
    nofun
  have hflat := renderLatex_resolve hroot hsetting hnumbering fileId (fresh_parse source fileId)
    (laidOut_parse source fileId)
  have hcontent : (convert o assets source fileId).content =
      (resolve o.numbering fileId ((Document.parse source fileId).tree o.sections)).root.renderLatex
        ⟨(RenderOptions.ofDict o.render).1, assets⟩ := by
    simp only [convert, convertDocument, hformat]
    rfl
  rw [hcontent, Document.tree]
  split
  · rw [renderLatex_resolve_buildSections hroot _ _ (noSection_parse source fileId), hflat]
  · exact hflat

/-- A document with a section, a number, a table and a reference in it. -/
theorem content_eq_renderLatex_of_table :
    let o : Options :=
      { format := .latex, sections := true, numbering := { depthLimit := 2, byKind := true } }
    let source := "# A {#a}\n\nTheorem: see {ref: #a} {}\n\n|x|\n|-|\n|y|\n".toList
    o.format = .latex ∧ o.numbering.onlyReferenced = false ∧
      o.render.get? "ignore_classes" = none ∧
      (convert o noAssets source 0).content =
        (Document.parse source 0).root.renderLatex
          ⟨(RenderOptions.ofDict o.render).1, noAssets⟩ :=
  ⟨rfl, rfl, rfl, content_eq_renderLatex _ _ _ _ rfl rfl rfl⟩

end Treatise
