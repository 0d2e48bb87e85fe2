import Treatise.Proofs.Tree.Reading

/-!
# The layout of a document

What stands directly inside what, in the tree of a document before it is put into sections.

* **`Tag.holds`** — a table holds rows, a row holds cells, and nothing holds a section.
* **`laidOut_parse`** — the tree of every source is laid out so. The rows and cells of tables are
  where the content model of events (`Markdown.Event.fits`) puts them, since no text waits between
  them that could become something else.
-/

namespace Treatise

open Markdown (Element Event)
open Node (AllOf)

/-! ## Kinds of content -/

namespace Tag

def isRow : Tag → Bool
  | tableHead => true
  | tableRow => true
  | _ => false

/-- A node that is made of parts of a table. -/
def isGrid (t : Tag) : Bool := t == .table || t.isRow

/-- A node with the second tag may stand directly inside one with the first. -/
def holds (outer inner : Tag) : Bool :=
  inner != .section && (outer != .table || inner.isRow) && (!outer.isRow || inner == .tableCell)

theorem holds_of_not_isGrid {outer inner : Tag} (houter : outer.isGrid = false)
    (hinner : inner ≠ .section) : outer.holds inner = true := by
  simp only [isGrid, Bool.or_eq_false_iff, beq_eq_false_iff_ne] at houter
  simp [holds, houter, hinner]

theorem isRow_of_holds {inner : Tag} (h : Tag.table.holds inner = true) : inner.isRow = true := by
  simp only [holds, Bool.and_eq_true] at h
  simpa using h.1.2

theorem eq_tableCell_of_holds {outer inner : Tag} (hrow : outer.isRow = true)
    (h : outer.holds inner = true) : inner = .tableCell := by
  simp only [holds, Bool.and_eq_true] at h
  simpa [hrow] using h.2

theorem ne_section_of_holds {outer inner : Tag} (h : outer.holds inner = true) :
    inner ≠ .section := by
  rintro rfl
  simp [holds] at h

end Tag

namespace Node

/-- What stands directly inside the node may stand there. -/
def LaidOut (n : Node) : Prop := ∀ c ∈ n.children, n.tag.holds c.tag = true

theorem laidOut_setTail {n : Node} {tail : String} : LaidOut { n with tail := tail } ↔ LaidOut n :=
  Iff.rfl

theorem LaidOut.single {n : Node} (hnil : n.children = []) : AllOf LaidOut [n] := by
  have hn : LaidOut n := by
    intro c hc
    rw [hnil] at hc
    exact absurd hc List.not_mem_nil
  rw [allOf_cons, hnil]
  exact ⟨hn, allOf_nil, allOf_nil⟩

/-- No section is below a node that is laid out, at any depth. -/
theorem noSection_of_laidOut {n : Node} (h : AllOf LaidOut [n]) :
    AllOf (·.tag ≠ .section) n.children := by
  obtain ⟨hn, hbelow, -⟩ := (allOf_cons n []).1 h
  intro m hm
  rcases mem_or_exists_parent hm with hm | ⟨k, hk, hm⟩
  · exact Tag.ne_section_of_holds (hn m hm)
  · exact Tag.ne_section_of_holds (hbelow k hk m hm)

/-! ## A node that gets more content -/

/-- `m` is `n` with more content, and all of it is laid out. -/
structure LaysOut (n m : Node) : Prop where
  tag_eq : m.tag = n.tag
  laidOut : AllOf LaidOut [n] → AllOf LaidOut [m]

theorem LaysOut.refl (n : Node) : LaysOut n n := ⟨rfl, id⟩

theorem LaysOut.trans {n m k : Node} (h : LaysOut n m) (h' : LaysOut m k) : LaysOut n k :=
  ⟨h'.tag_eq.trans h.tag_eq, h'.laidOut ∘ h.laidOut⟩

theorem laysOut_setText (n : Node) (s : String) : LaysOut n (n.setText s) := by
  refine ⟨rfl, fun h => ?_⟩
  rw [allOf_cons] at h ⊢
  exact h

theorem laysOut_appendText (n : Node) (s : String) : LaysOut n (n.appendText s) := by
  unfold appendText
  split
  · exact laysOut_setText n _
  · refine ⟨rfl, fun h => ?_⟩
    rw [allOf_cons] at h ⊢
    exact ⟨(forall_tag_extendLastTail (p := (n.tag.holds · = true))).2 h.1,
      (allOf_extendLastTail fun _ _ => laidOut_setTail).2 h.2.1, allOf_nil⟩

theorem laysOut_push {n c : Node} (hc : AllOf LaidOut [c]) (hholds : n.tag.holds c.tag = true) :
    LaysOut n (n.push c) := by
  refine ⟨rfl, fun h => ?_⟩
  rw [allOf_cons] at h ⊢
  refine ⟨fun d hd => ?_, (allOf_append _ _).2 ⟨h.2.1, hc⟩, allOf_nil⟩
  rcases List.mem_append.1 hd with hd | hd
  · exact h.1 d hd
  · rw [List.mem_singleton.1 hd]
    exact hholds

theorem laysOut_addText {n : Node} (hgrid : n.tag.isGrid = false) (s : List Char) :
    LaysOut n (n.addText s) := by
  unfold addText
  generalize Segment.scan s = segments
  induction segments generalizing n with
  | nil => exact .refl n
  | cons segment segments ih =>
    have hstep : LaysOut n (n.addSegment segment) := by
      cases segment with
      | text s => exact laysOut_appendText n _
      | mark m inner =>
        obtain ⟨kind, key⟩ := m
        have hmark : (Mark.node ⟨kind, key⟩).tag ≠ .section := by cases kind <;> nofun
        exact laysOut_push (.single (by cases kind <;> rfl)) (Tag.holds_of_not_isGrid hgrid hmark)
    exact hstep.trans (ih (by rw [hstep.tag_eq, hgrid]))

/-! ## Elements -/

theorem isGrid_ofElement (e : Element) : (ofElement e).tag.isGrid = e.isGrid := by
  cases e <;> simp only [ofElement, tag_withTitle] <;> rfl

theorem ofElement_ne_section (e : Element) : (ofElement e).tag ≠ .section := by
  cases e <;> simp [ofElement, ofTag, tag_withTitle, setAttr]

theorem laidOut_ofElement (e : Element) : AllOf LaidOut [ofElement e] :=
  .single (by cases e <;> simp only [ofElement, children_withTitle] <;> rfl)

/-- The node of an element may stand inside that of another, if its event fits there. -/
theorem holds_ofElement {x e : Element} (h : x.isGrid = true → (Event.enter e).isPartOf x = true) :
    (ofElement x).tag.holds (ofElement e).tag = true := by
  cases hx : x.isGrid with
  | false =>
    exact Tag.holds_of_not_isGrid ((isGrid_ofElement x).trans hx) (ofElement_ne_section e)
  | true =>
    have hpart := h hx
    unfold Event.isPartOf at hpart
    split at hpart
    all_goals first | exact absurd hpart Bool.false_ne_true | skip
    all_goals
      rename_i heq
      cases heq
      rfl

end Node

open Node (LaidOut LaysOut)

/-! ## The growing tree -/

namespace Growth

/-- The innermost node is one that the events inside `holder` are meant for, and no text waits
between the parts of a table. -/
structure Tabled (holder : Option Element) (g : Growth) : Prop where
  tag : ∀ e ∈ holder, g.top.tag = (Node.ofElement e).tag
  flow : holder = none → g.top.tag.isGrid = false
  waiting : g.top.tag.isGrid = true → g.waiting = ""

variable {holder : Option Element} {g : Growth}

theorem Tabled.setTop (h : Tabled holder g) {n : Node} (hn : n.tag = g.top.tag) {w : String}
    (hw : g.top.tag.isGrid = true → w = "") : Tabled holder (g.setTop n w) := by
  have htop : (g.setTop n w).top.tag = g.top.tag := by rw [top_setTop, hn]
  have hwaiting : (g.setTop n w).waiting = w := rfl
  exact ⟨by rw [htop]; exact h.tag, by rw [htop]; exact h.flow, by rw [htop, hwaiting]; exact hw⟩

/-- What fits into a table is a part of it. -/
theorem Tabled.isPartOf (h : Tabled holder g) {e : Event} (hfits : e.fits holder)
    (hgrid : g.top.tag.isGrid = true) : ∃ x ∈ holder, e.isPartOf x = true := by
  cases holder with
  | none => exact absurd hgrid (by simp [h.flow rfl])
  | some x =>
    refine ⟨x, rfl, (hfits x rfl).2.2 ?_⟩
    rw [← Node.isGrid_ofElement, ← h.tag x rfl, hgrid]

/-- The text that waits is put into a node that is no table. -/
theorem Tabled.laysOut_addText (h : Tabled holder g) :
    LaysOut g.top (g.top.addText g.waiting.toList) := by
  cases hgrid : g.top.tag.isGrid with
  | false => exact Node.laysOut_addText hgrid _
  | true =>
    have hnil : g.top.addText g.waiting.toList = g.top := by
      rw [h.waiting hgrid]
      simp [Node.addText, Segment.scan]
    rw [hnil]
    exact .refl _

theorem laysOut_step (hgrid : g.top.tag.isGrid = false) (hout : g.inVerbatim = false) {e : Event}
    (hsingle : e.isSingle = true) : ∃ n w, g.step e = g.setTop n w ∧ LaysOut g.top n := by
  rcases step_single hout hsingle with ⟨w, hstep⟩ | ⟨c, hc, hnil, hstep⟩
  · exact ⟨_, w, hstep, .refl _⟩
  · have htext := Node.laysOut_addText hgrid g.waiting.toList
    refine ⟨_, "", hstep, htext.trans (Node.laysOut_push (.single hnil) ?_)⟩
    rw [htext.tag_eq]
    refine Tag.holds_of_not_isGrid hgrid fun hsection => ?_
    rw [hsection] at hc
    cases hc

/-- Nested events put the parts of tables where they belong. -/
theorem nestingLaw_laysOut : NestingLaw Event.fits Tabled LaysOut where
  refl := .refl
  trans := .trans
  text := Node.laysOut_setText
  single {holder g e} h hout hsingle hfits := by
    -- no single event is a part of a table
    have hgrid : g.top.tag.isGrid = false := by
      rw [Bool.eq_false_iff]
      intro hgrid
      obtain ⟨x, -, hpart⟩ := h.isPartOf hfits hgrid
      rw [Event.isSingle_of_isPartOf hpart] at hsingle
      exact Bool.false_ne_true hsingle
    obtain ⟨n, w, hstep, hlays⟩ := laysOut_step hgrid hout hsingle
    exact ⟨n, w, hstep, hlays, h.setTop hlays.tag_eq fun h => by simp [hgrid] at h⟩
  enter _ _ := ⟨by rintro x ⟨rfl⟩; rfl, nofun, fun _ => rfl⟩
  flush h _ := h.laysOut_addText
  push {holder g e c} h _ hfits hc := by
    have htext := h.laysOut_addText
    have hholds : g.top.tag.holds (Node.ofElement e).tag = true := by
      cases hgrid : g.top.tag.isGrid with
      | false => exact Tag.holds_of_not_isGrid hgrid (Node.ofElement_ne_section e)
      | true =>
        obtain ⟨x, hx, hpart⟩ := h.isPartOf hfits hgrid
        rw [h.tag x hx]
        exact Node.holds_ofElement fun _ => hpart
    have hpush : LaysOut g.top ((g.top.addText g.waiting.toList).push c) := by
      refine htext.trans (Node.laysOut_push (hc.laidOut (Node.laidOut_ofElement e)) ?_)
      rw [htext.tag_eq, hc.tag_eq]
      exact hholds
    exact ⟨hpush, h.setTop hpush.tag_eq fun _ => rfl⟩

end Growth

theorem laysOut_readInto (s : List Char) {n : Node} (hn : n.tag.isGrid = false) :
    LaysOut n (readInto s n) := by
  obtain ⟨m, w, hfold, -, hlays, hready⟩ := Growth.nestingLaw_laysOut.foldl_step
    (Markdown.wellNested_readEvents s) (Growth.start n) rfl ⟨nofun, fun _ => hn, fun _ => rfl⟩
  rw [readInto_eq_of_foldl hfold]
  replace hlays : LaysOut n m := hlays
  exact hlays.trans (Node.laysOut_addText (by rw [hlays.tag_eq]; exact hn) _)

/-! ## Documents -/

namespace Statement

theorem laidOut_heading (s : Statement) : AllOf LaidOut [s.heading] := by
  have hpart : ∀ {t : Tag}, t.isHeadingPart = true → t.isGrid = false ∧ t ≠ .section := by
    intro t ht
    cases t <;> first | exact absurd ht Bool.false_ne_true | exact ⟨rfl, nofun⟩
  have hparts : AllOf (fun n => n.LaidOut ∧ n.tag ≠ .section) s.headingParts := by
    refine s.allOf_headingParts fun n htag hreference => ⟨fun c hc => ?_, (hpart htag).2⟩
    exact Tag.holds_of_not_isGrid (hpart htag).1 (by rw [hreference c hc]; nofun)
  refine (Node.allOf_cons _ _).2 ⟨fun c hc => ?_, fun n hn => (hparts n hn).1, Node.allOf_nil⟩
  exact Tag.holds_of_not_isGrid rfl (hparts c (Node.mem_descendantsOf_of_mem hc)).2

theorem laysOut_closed (s : Statement) {n : Node} (hgrid : n.tag.isGrid = false) :
    LaysOut n (s.closed n) := by
  unfold closed
  split
  · exact Node.laysOut_push (.single rfl) (Tag.holds_of_not_isGrid hgrid nofun)
  · exact .refl n

end Statement

theorem partLaw_laysOut : PartLaw (·.tag.isGrid = false) LaysOut where
  refl := .refl
  trans := .trans
  stays hn h := by rwa [h.tag_eq]
  read s hn := laysOut_readInto s hn
  opened _ := rfl
  put {n m o proofs} hn hm := by
    generalize Statement.ofOpening o proofs = s at hm ⊢
    have hopened : AllOf LaidOut [s.opened] :=
      (Node.laysOut_push s.laidOut_heading rfl).laidOut (.single rfl)
    have hclosed := hm.trans (s.laysOut_closed (n := m) (by rw [hm.tag_eq]; rfl))
    refine Node.laysOut_push (hclosed.laidOut hopened) (Tag.holds_of_not_isGrid hn ?_)
    rw [hclosed.tag_eq]
    nofun

/-- The tree of every source is laid out. -/
theorem laidOut_parse (source : List Char) (fileId : Nat) :
    AllOf LaidOut [(Document.parse source fileId).root] :=
  (partLaw_laysOut.parse rfl source fileId).laidOut (.single rfl)

/-- There is no section in the tree of a source. -/
theorem noSection_parse (source : List Char) (fileId : Nat) :
    AllOf (·.tag ≠ .section) (Document.parse source fileId).root.children :=
  Node.noSection_of_laidOut (laidOut_parse source fileId)

end Treatise
