import Mathlib.Data.List.Forall2
import Mathlib.Data.List.Induction
import Treatise.Proofs.Numbering.Headings
import Treatise.Proofs.Tree.Frames
import Treatise.Proofs.Tree.Places

/-!
# The numbers of statements

The number of a statement can be read off its place: which statements take a number depends on the
statement alone, and what the number is depends on the headings and statements before it.

* **`Place.number`** — the number of a statement, by what is before it.
* **`Numbering.Reaches`** — the walk comes to a place with the counters that this asks for. Every
  step of the walk keeps it.
* **`paired_resolve`** — every statement of a resolved tree shows what its place says.
-/

namespace Treatise

open Node (Fresh AllOf Framed descendantsOf holdLabel placesOf)
open Treatise.Numbering (nextComponents)

/-! ## What is counted at a place -/

namespace Node

def isStatement (n : Node) : Bool := n.statement?.isSome

def kind? (n : Node) : Option Kind := n.statement?.map Statement.kind

/-- The node is a statement that takes a number: it was announced as one that does and, where only
those get numbers that can be referred to, it has a label. -/
def takesNumber (o : NumberingOptions) (n : Node) : Bool :=
  n.statement?.any fun st => st.numbered && (!o.onlyReferenced || holdLabel n.children)

/-- The node is a statement of a resolved tree that has a number. -/
def isNumbered (n : Node) : Bool := n.statement?.any Statement.numbered

/-- The node is a heading behind which statements count from one again. -/
def restartsCount (o : NumberingOptions) (n : Node) : Bool :=
  n.headingLevel?.any fun level => level ≤ o.depthLimit

end Node

/-- The section number behind the headings among these nodes. -/
def sectionBehind (o : NumberingOptions) (before : List Node) : List Nat :=
  (before.filterMap (·.headingLevel?)).foldl nextComponents (List.replicate o.depthLimit 0)

namespace Place

variable (o : NumberingOptions) (p : Place)

/-- The section number at the place. -/
def components : List Nat := sectionBehind o p.before

/-- What is between the place and the last heading that restarted the count, the nearest first. -/
def sinceRestart : List Node := p.before.reverse.takeWhile (!·.restartsCount o)

/-- The node takes a number and has the same counter as the statement at the place. -/
def countsWith (n : Node) : Bool :=
  n.takesNumber o && (!o.byKind || n.kind? == p.node.kind?)

/-- The counter of the statement at the place. -/
def count : Nat := 1 + (p.sinceRestart o).countP (p.countsWith o)

/-- The components of the number that the statement at the place takes. -/
def numberComponents : List Nat := (p.components o).take o.depthLimit ++ [p.count o]

def number : String := dotted (p.numberComponents o)

end Place

section Nodes

variable {o : NumberingOptions} {n : Node} {st : Statement}

theorem statement?_eq_some_iff : n.statement? = some st ↔ n.tag = .block st := by
  unfold Node.statement?
  cases n.tag <;> simp

/-- The statements of a document are those of the blocks anywhere below it. -/
theorem mem_statements_iff : st ∈ n.statements ↔ ∃ m ∈ n.descendants, m.tag = .block st := by
  simp only [Node.statements, List.mem_filterMap, statement?_eq_some_iff]

theorem statement?_of_ne (h : ∀ st, n.tag ≠ .block st) : n.statement? = none :=
  Option.eq_none_iff_forall_ne_some.2 fun st hst => h st (statement?_eq_some_iff.1 hst)

theorem isStatement_of_block (h : n.tag = .block st) : n.isStatement = true := by
  rw [Node.isStatement, statement?_eq_some_iff.2 h]
  rfl

theorem isStatement_of_ne (h : ∀ st, n.tag ≠ .block st) : n.isStatement = false := by
  rw [Node.isStatement, statement?_of_ne h, Option.isSome_none]

theorem isNumbered_of_block (h : n.tag = .block st) : n.isNumbered = st.numbered := by
  rw [Node.isNumbered, statement?_eq_some_iff.2 h, Option.any_some]

theorem isNumbered_of_ne (h : ∀ st, n.tag ≠ .block st) : n.isNumbered = false := by
  rw [Node.isNumbered, statement?_of_ne h, Option.any_none]

theorem isStatement_of_isNumbered (h : n.isNumbered = true) : n.isStatement = true := by
  by_contra hne
  have hnone : n.statement? = none := by simpa [Node.isStatement] using hne
  rw [Node.isNumbered, hnone] at h
  exact Bool.false_ne_true h

theorem kind?_of_block (h : n.tag = .block st) : n.kind? = some st.kind := by
  rw [Node.kind?, statement?_eq_some_iff.2 h, Option.map_some]

theorem takesNumber_of_block (h : n.tag = .block st) :
    n.takesNumber o = (st.numbered && (!o.onlyReferenced || holdLabel n.children)) := by
  rw [Node.takesNumber, statement?_eq_some_iff.2 h, Option.any_some]

theorem takesNumber_of_ne (h : ∀ st, n.tag ≠ .block st) : n.takesNumber o = false := by
  rw [Node.takesNumber, statement?_of_ne h, Option.any_none]

theorem exists_block_of_takesNumber (h : n.takesNumber o = true) : ∃ st, n.tag = .block st := by
  by_contra hne
  rw [takesNumber_of_ne fun st hst => hne ⟨st, hst⟩] at h
  exact Bool.false_ne_true h

theorem restrict_eq (h : n.tag = .block st) :
    st.restrict o (holdLabel n.children) = { st with numbered := n.takesNumber o } := by
  obtain ⟨kind, numbered⟩ := st
  rw [takesNumber_of_block h, Statement.restrict]
  cases o.onlyReferenced <;> cases holdLabel n.children <;> cases numbered <;> rfl

theorem landmark?_of_takesNumber (htag : n.tag = .block st) (h : n.takesNumber o = true) :
    n.landmark? o Node.headingTitle = some (.statement st.kind) := by
  have hrestrict := restrict_eq (o := o) htag
  rw [h] at hrestrict
  rw [landmark?_numbered htag hrestrict rfl]

theorem landmark?_of_takesNumber_eq_false (htag : n.tag = .block st)
    (h : n.takesNumber o = false) : n.landmark? o Node.headingTitle = none := by
  have hrestrict := restrict_eq (o := o) htag
  rw [h] at hrestrict
  exact landmark?_unnumbered htag hrestrict rfl

theorem takesNumber_of_landmark? {kind : Kind} {title : Node → String}
    (h : n.landmark? o title = some (.statement kind)) : n.takesNumber o = true := by
  unfold Node.landmark? at h
  cases htag : n.tag with
  | block st =>
    simp only [htag, restrict_eq htag] at h
    split at h
    · assumption
    · cases h
  | _ => simp [htag] at h

theorem restartsCount_of_heading {level : Nat} (h : n.tag = .heading level) :
    n.restartsCount o = decide (level ≤ o.depthLimit) := by
  rw [Node.restartsCount, Node.headingLevel?_eq_some_iff.2 h, Option.any_some]

theorem restartsCount_of_ne (h : ∀ level, n.tag ≠ .heading level) : n.restartsCount o = false := by
  rw [Node.restartsCount, Node.headingLevel?_of_ne h, Option.any_none]

end Nodes

/-- The kinds of the statements among the nodes that take a number. -/
def Node.kindsTaken (o : NumberingOptions) (ns : List Node) : List Kind :=
  (ns.filter (·.takesNumber o)).filterMap Node.kind?

section KindsTaken

variable {o : NumberingOptions} {n : Node} {ns : List Node} {st : Statement}

theorem Node.kindsTaken_cons_of_neg (h : n.takesNumber o = false) :
    kindsTaken o (n :: ns) = kindsTaken o ns := by
  rw [kindsTaken, List.filter_cons_of_neg (by simp [h])]
  rfl

theorem Node.kindsTaken_cons_of_pos (h : n.takesNumber o = true) (htag : n.tag = .block st) :
    kindsTaken o (n :: ns) = st.kind :: kindsTaken o ns := by
  rw [kindsTaken, List.filter_cons_of_pos h, List.filterMap_cons_some (kind?_of_block htag)]
  rfl

/-- The statements that count together with the one at a place: those of its kind, or all. -/
theorem Place.countP_countsWith {p : Place} (htag : p.node.tag = .block st) (ns : List Node) :
    ns.countP (p.countsWith o) =
      if o.byKind then (Node.kindsTaken o ns).count st.kind else (Node.kindsTaken o ns).length := by
  have hkind := kind?_of_block htag
  induction ns with
  | nil => simp [Node.kindsTaken]
  | cons n ns ih =>
    cases htakes : n.takesNumber o with
    | false =>
      rw [Node.kindsTaken_cons_of_neg htakes, ← ih, List.countP_cons_of_neg]
      simp [countsWith, htakes]
    | true =>
      obtain ⟨st', hst'⟩ := exists_block_of_takesNumber htakes
      have hkind' := kind?_of_block hst'
      rw [Node.kindsTaken_cons_of_pos htakes hst', List.countP_cons, ih, List.count_cons,
        List.length_cons]
      cases hbyKind : o.byKind <;> simp [countsWith, htakes, hbyKind, hkind, hkind']

end KindsTaken

/-! ## The counters at a place -/

namespace Numbering

/-- The counters behind these nodes. -/
def behind (o : NumberingOptions) (before : List Node) : Numbering :=
  (before.filterMap (Node.landmark? o Node.headingTitle)).foldl (pass o) (.initial o)

variable {o : NumberingOptions} {before : List Node}

theorem behind_append (before ns : List Node) :
    behind o (before ++ ns) =
      (ns.filterMap (Node.landmark? o Node.headingTitle)).foldl (pass o) (behind o before) := by
  rw [behind, List.filterMap_append, List.foldl_append]
  rfl

theorem behind_concat_of_some {n : Node} {l : Landmark}
    (h : n.landmark? o Node.headingTitle = some l) :
    behind o (before ++ [n]) = (behind o before).pass o l := by
  rw [behind_append, List.filterMap_cons_some h]
  rfl

theorem behind_concat_of_none {n : Node} (h : n.landmark? o Node.headingTitle = none) :
    behind o (before ++ [n]) = behind o before := by
  rw [behind_append, List.filterMap_cons_none h]
  rfl

theorem components_behind (p : Place) : (behind o p.before).components = p.components o := by
  rw [behind, components_foldl_pass, List.filterMap_filterMap]
  simp only [level?_landmark?]
  rfl

/-- The kinds that have counted are those of the numbered statements since the last restart. -/
theorem counted_behind (hframed : ∀ n ∈ before, Framed n) :
    (behind o before).counted =
      Node.kindsTaken o (before.reverse.takeWhile (!·.restartsCount o)) := by
  induction before using List.reverseRecOn with
  | nil => rfl
  | append_singleton before n ih =>
    have ih := ih fun m hm => hframed m (List.mem_append_left [n] hm)
    have hn : Framed n := hframed n (List.mem_append_right before (List.mem_singleton_self n))
    -- the last node decides: a heading may restart the count, and a statement may join it
    rw [List.reverse_append, List.reverse_singleton, List.singleton_append]
    cases htag : n.tag with
    | heading level =>
      have hlandmark : n.landmark? o Node.headingTitle =
          some (.heading level n.headingTitle) := landmark?_heading htag
      have hlevel : 1 ≤ level := (hn.level level htag).1
      have hrestarts := restartsCount_of_heading (o := o) htag
      have htakes : n.takesNumber o = false := takesNumber_of_ne (by simp [htag])
      rw [behind_concat_of_some hlandmark]
      show (if level - 1 < o.depthLimit then [] else (behind o before).counted) = _
      by_cases hreset : level ≤ o.depthLimit
      · rw [if_pos (by omega), List.takeWhile_cons_of_neg (by simp [hrestarts, hreset])]
        rfl
      · rw [if_neg (by omega), List.takeWhile_cons_of_pos (by simp [hrestarts, hreset]),
          Node.kindsTaken_cons_of_neg htakes, ih]
    | block st =>
      have hrestarts : n.restartsCount o = false := restartsCount_of_ne (by simp [htag])
      rw [List.takeWhile_cons_of_pos (by simp [hrestarts])]
      cases htakes : n.takesNumber o with
      | true =>
        rw [behind_concat_of_some (landmark?_of_takesNumber htag htakes),
          Node.kindsTaken_cons_of_pos htakes htag, ← ih]
        rfl
      | false =>
        rw [behind_concat_of_none (landmark?_of_takesNumber_eq_false htag htakes),
          Node.kindsTaken_cons_of_neg htakes, ← ih]
    | _ =>
      have hlandmark : n.landmark? o Node.headingTitle = none :=
        landmark?_of_ne (by simp [htag]) (by simp [htag])
      have hrestarts : n.restartsCount o = false := restartsCount_of_ne (by simp [htag])
      have htakes : n.takesNumber o = false := takesNumber_of_ne (by simp [htag])
      rw [behind_concat_of_none hlandmark, List.takeWhile_cons_of_pos (by simp [hrestarts]),
        Node.kindsTaken_cons_of_neg htakes, ← ih]

/-- The walk comes behind these nodes with the counters of the headings and statements among
them. -/
def Reaches (o : NumberingOptions) (s : Numbering) (before : List Node) : Prop :=
  s.counters = (behind o before).counters

variable {s s' : Numbering} {n : Node}

theorem Reaches.pass {l : Landmark} (h : s.Reaches o before)
    (hn : n.landmark? o Node.headingTitle = some l) :
    (s.pass o l).Reaches o (before ++ [n]) := by
  rw [Reaches, behind_concat_of_some hn, counters_pass, counters_pass, h]

theorem Reaches.skip (h : s.Reaches o before) (hn : n.landmark? o Node.headingTitle = none) :
    s.Reaches o (before ++ [n]) := by
  rw [Reaches, behind_concat_of_none hn]
  exact h

theorem counters_foldl_pass (s : Numbering) (ls : List Landmark) :
    (ls.foldl (Numbering.pass o) s).counters = ls.foldl (Numbering.pass o) s.counters := by
  induction ls generalizing s with
  | nil => rfl
  | cons l ls ih => rw [List.foldl_cons, ih, List.foldl_cons, counters_pass]

theorem Reaches.below {labels : Dict Target} {fileId : Nat} {enclosing : List (Option Target)}
    {ms : List Node} (h : s.Reaches o (before ++ [n]))
    (hbelow : Settles o labels fileId enclosing s n.children ms s') :
    s'.Reaches o (before ++ n :: descendantsOf n.children) := by
  have hsplit : before ++ n :: descendantsOf n.children =
      before ++ [n] ++ descendantsOf n.children := by simp
  rw [Reaches, hsplit, counters_of_settles hbelow, behind_append, counters_foldl_pass, ← h]
  rfl

theorem Reaches.statementComponents_eq {p : Place} {st : Statement} (h : s.Reaches o p.before)
    (hframed : ∀ n ∈ p.before, Framed n) (htag : p.node.tag = .block st) :
    s.statementComponents o st.kind = p.numberComponents o := by
  have hcounters : s.counters = (behind o p.before).counters := h
  have hcomponents : s.components = p.components o := by
    show s.counters.components = _
    rw [hcounters, ← components_behind]
    rfl
  have hcounted : s.counted = Node.kindsTaken o (p.sinceRestart o) := by
    show s.counters.counted = _
    rw [hcounters, Place.sinceRestart, ← counted_behind hframed]
    rfl
  have hcount : s.count o st.kind = p.count o := by
    rw [Numbering.count, hcounted, ← Place.countP_countsWith htag]
    rfl
  rw [statementComponents, Place.numberComponents, hcomponents, hcount]

end Numbering

/-! ## Statements in order -/

/-- The statements at the places, and those among nodes and below them, belong together in order. -/
def Paired (r : Place → Node → Prop) (ps : List Place) (ms : List Node) : Prop :=
  List.Forall₂ r (ps.filter (·.node.isStatement)) ((descendantsOf ms).filter (·.isStatement))

section Paired

variable {r : Place → Node → Prop} {above before ns ms : List Node} {n m : Node}

theorem Paired.cons (hn : n.isStatement = true) (hm : m.isStatement = true)
    (h : r ⟨n, above, before⟩ m)
    (below : Paired r (placesOf (n :: above) (before ++ [n]) n.children) m.children)
    (behind : Paired r (placesOf above (before ++ n :: descendantsOf n.children) ns) ms) :
    Paired r (placesOf above before (n :: ns)) (m :: ms) := by
  rw [Paired, Node.placesOf_cons, Node.descendantsOf_cons, List.filter_cons_of_pos (by exact hn),
    List.filter_cons_of_pos (by exact hm), List.filter_append, List.filter_append]
  exact .cons h (List.rel_append below behind)

theorem Paired.skip (hn : n.isStatement = false) (hm : m.isStatement = false)
    (below : Paired r (placesOf (n :: above) (before ++ [n]) n.children) m.children)
    (behind : Paired r (placesOf above (before ++ n :: descendantsOf n.children) ns) ms) :
    Paired r (placesOf above before (n :: ns)) (m :: ms) := by
  rw [Paired, Node.placesOf_cons, Node.descendantsOf_cons, List.filter_cons_of_neg (by simp [hn]),
    List.filter_cons_of_neg (by simp [hm]), List.filter_append, List.filter_append]
  exact List.rel_append below behind

theorem Paired.skip_leaf (hn : n.isStatement = false) (hnil : n.children = [])
    (hm : m.isStatement = false) (hbelow : AllOf (·.isStatement = false) m.children)
    (behind : Paired r (placesOf above (before ++ [n]) ns) ms) :
    Paired r (placesOf above before (n :: ns)) (m :: ms) := by
  refine .skip hn hm ?_ (by rwa [hnil])
  have hnone : (descendantsOf m.children).filter (·.isStatement) = [] :=
    List.filter_eq_nil_iff.2 fun c hc => by simp [hbelow c hc]
  rw [hnil, Paired, hnone]
  exact .nil

end Paired

/-! ## Statements in a resolved tree -/

/-- The numbers that a heading shows: the words in its places for them. -/
def Node.shownNumbers (heading : Node) : List String :=
  (heading.children.filter (·.hasRole .blockNumber)).map Node.textContent

/-- The places for numbers among these nodes show the number of the innermost statement around. -/
theorem placeTexts_of_settles {o : NumberingOptions} {labels : Dict Target} {fileId : Nat}
    {enclosing : List (Option Target)} {s s' : Numbering} {ns ms : List Node}
    (h : Settles o labels fileId enclosing s ns ms s') :
    (ms.filter (·.hasRole .blockNumber)).map Node.textContent =
      (ns.filter (·.hasRole .blockNumber)).map fun _ => shownNumber enclosing := by
  -- any other node is no place, and is none behind both walks
  have hskip {n m : Node} {ns ms : List Node} {t : String} (hn : n.tag ≠ .span .blockNumber)
      (hm : m.tag ≠ .span .blockNumber)
      (ih : (ms.filter (·.hasRole .blockNumber)).map Node.textContent =
        (ns.filter (·.hasRole .blockNumber)).map fun _ => t) :
      ((m :: ms).filter (·.hasRole .blockNumber)).map Node.textContent =
        ((n :: ns).filter (·.hasRole .blockNumber)).map fun _ => t := by
    rw [List.filter_cons_of_neg (by simpa [Node.hasRole] using hm),
      List.filter_cons_of_neg (by simpa [Node.hasRole] using hn), ih]
  induction h with
  | nil => rfl
  | heading _ tag _ _ _ behind =>
    exact hskip (by simp [tag]) (by simp [Node.numberedHeading, tag]) behind
  | numbered _ tag _ _ _ _ _ behind =>
    exact hskip (by simp [tag]) (by simp [Node.setStatementNumber, Node.setAttr]) behind
  | unnumbered _ tag _ _ _ _ _ behind =>
    exact hskip (by simp [tag]) (by simp [Node.clearAnchor]) behind
  | @place enclosing _ _ n _ _ fresh tag _ behind =>
    have hrole : n.hasRole .blockNumber = true := by simp [Node.hasRole, tag]
    have htext : (n.setText (shownNumber enclosing)).textContent = shownNumber enclosing := by
      have hnil : (n.setText (shownNumber enclosing)).children = [] :=
        fresh.children_eq_nil (.inr tag)
      rw [Node.textContent_eq, hnil]
      exact String.append_empty
    rw [List.filter_cons_of_pos (by exact hrole), List.filter_cons_of_pos (by exact hrole),
      List.map_cons, List.map_cons, behind, htext]
  | label _ tag _ behind => exact hskip (by simp [tag]) (by simp [tag]) behind
  | reference _ tag _ behind => exact hskip (by simp [tag]) (by simp [tag]) behind
  | «section» _ tag _ _ _ _ behind => exact hskip (by simp [tag]) (by simp [tag]) behind
  | plain _ tag _ _ _ _ behind =>
    have hne : ∀ n : Node, n.tag.isPlain = true → n.tag ≠ .span .blockNumber := by
      intro n hplain htag
      rw [htag] at hplain
      exact absurd hplain Bool.false_ne_true
    exact hskip (hne _ tag) (hne _ tag) behind

theorem Statement.filter_headingParts (st : Statement) :
    st.headingParts.filter (·.hasRole .blockNumber) =
      if st.kind.isProof then [] else [Node.span .blockNumber] := by
  have hnone {α : Type} {f : α → Node} (a : Option α)
      (h : ∀ a, (f a).hasRole .blockNumber = false) :
      (a.map f).toList.filter (·.hasRole .blockNumber) = [] := by
    cases a with
    | none => rfl
    | some a => exact List.filter_cons_of_neg (by simp [h])
  have hsubject (subject : Subject) : subject.node.hasRole .blockNumber = false := by
    cases subject <;> rfl
  have hkind : ((Node.span .blockLabel).setAttr "type" st.kind.name).hasRole .blockNumber = false :=
    rfl
  simp only [headingParts, List.filter_append]
  rw [hnone st.label fun _ => rfl, hnone st.subject hsubject, hnone st.name fun _ => rfl,
    hnone st.references fun _ => rfl, List.filter_cons_of_neg (by simp [hkind])]
  split <;> rfl

theorem exists_heading_of_settles {o : NumberingOptions} {labels : Dict Target} {fileId : Nat}
    {enclosing : List (Option Target)} {s s' : Numbering} {n : Node} {ms : List Node}
    {st : Statement} (hn : n.BeginsWith st.heading)
    (h : Settles o labels fileId enclosing s n.children ms s') :
    ∃ heading rest, ms = heading :: rest ∧ heading.hasRole .blockHeading = true ∧
      heading.shownNumbers = if st.kind.isProof then [] else [shownNumber enclosing] := by
  obtain ⟨tail, rest, hchildren⟩ := hn
  rw [hchildren] at h
  have htag : st.heading.tag = .span .blockHeading := rfl
  cases h with
  | @plain _ _ _ _ _ cs _ ms _ _ _ below behind =>
    refine ⟨{ st.heading with tail := tail, children := cs }, ms, rfl, rfl, ?_⟩
    have hplaces := placeTexts_of_settles below
    rw [Node.shownNumbers, hplaces]
    show (st.headingParts.filter (·.hasRole .blockNumber)).map _ = _
    rw [st.filter_headingParts]
    split <;> rfl
  | heading _ tag => exact absurd (htag.symm.trans tag) nofun
  | numbered _ tag => exact absurd (htag.symm.trans tag) nofun
  | unnumbered _ tag => exact absurd (htag.symm.trans tag) nofun
  | place _ tag => exact absurd (htag.symm.trans tag) (by decide)
  | label _ tag => exact absurd (htag.symm.trans tag) nofun
  | reference _ tag => exact absurd (htag.symm.trans tag) nofun
  | «section» _ tag => exact absurd (htag.symm.trans tag) nofun

/-- Both walks make this of the statement at a place. -/
inductive SettlesAt (o : NumberingOptions) (labels : Dict Target) (fileId : Nat) (p : Place) :
    Node → Prop
  | numbered {enclosing cs st} {s s' : Numbering} (fresh : Fresh p.node)
      (tag : p.node.tag = .block st) (takes : p.node.takesNumber o = true)
      (reaches : s.Reaches o p.before)
      (below : Settles o labels fileId (some (s.statementTarget o st.kind) :: enclosing)
        (s.pass o (.statement st.kind)) p.node.children cs s') :
      SettlesAt o labels fileId p
        (Node.setStatementNumber (dotted (s.statementComponents o st.kind))
          { p.node with tag := .block { st with numbered := true }, children := cs })
  | unnumbered {enclosing cs st} {s s' : Numbering} (fresh : Fresh p.node)
      (tag : p.node.tag = .block st) (takes : p.node.takesNumber o = false)
      (below : Settles o labels fileId (none :: enclosing) s p.node.children cs s') :
      SettlesAt o labels fileId p
        (Node.clearAnchor
          { p.node with tag := .block { st with numbered := false }, children := cs })

/-- Both walks go through the statements one by one and come to each with the counters of its
place. -/
theorem paired_of_settles {o : NumberingOptions} {labels : Dict Target} {fileId : Nat}
    {enclosing : List (Option Target)} {s s' : Numbering} {above before ns ms : List Node}
    (h : Settles o labels fileId enclosing s ns ms s') (hs : s.Reaches o before) :
    Paired (SettlesAt o labels fileId) (placesOf above before ns) ms := by
  induction h generalizing above before with
  | nil => exact .nil
  | @heading _ s _ _ n _ _ level _ tag hbelow _ below behind =>
    have hpass := hs.pass (landmark?_heading tag)
    have hn : n.isStatement = false := isStatement_of_ne (by simp [tag])
    refine .skip hn hn ?_ (behind (hpass.below hbelow))
    -- the span with the number is in front of the content
    rw [Paired, Node.descendantsOf_numberedHeading, List.filter_cons_of_neg (by rintro ⟨⟩)]
    exact below hpass
  | @numbered _ s _ _ n cs _ _ st st' fresh tag restrict isNumbered hbelow _ below behind =>
    have hpass := hs.pass (landmark?_numbered tag restrict isNumbered)
    rw [restrict_eq tag] at restrict
    subst restrict
    have htakes : n.takesNumber o = true := isNumbered
    refine .cons (isStatement_of_block tag) rfl ?_ (below hpass) (behind (hpass.below hbelow))
    have hsettles := SettlesAt.numbered (p := ⟨n, above, before⟩) fresh tag htakes hs hbelow
    rwa [← htakes] at hsettles
  | @unnumbered _ s _ _ n cs _ _ st st' fresh tag restrict notNumbered hbelow _ below behind =>
    have hskip := hs.skip (landmark?_unnumbered tag restrict notNumbered)
    rw [restrict_eq tag] at restrict
    subst restrict
    have htakes : n.takesNumber o = false := notNumbered
    refine .cons (isStatement_of_block tag) rfl ?_ (below hskip) (behind (hskip.below hbelow))
    have hsettles := SettlesAt.unnumbered (p := ⟨n, above, before⟩) fresh tag htakes hbelow
    rwa [← htakes] at hsettles
  | @place enclosing _ _ n _ _ fresh tag _ behind =>
    have hn : n.isStatement = false := isStatement_of_ne (by simp [tag])
    have hnil : n.children = [] := fresh.children_eq_nil (.inr tag)
    have hskip := hs.skip (landmark?_of_ne (n := n) (by simp [tag]) (by simp [tag]))
    have hbelow : AllOf (·.isStatement = false) (n.setText (shownNumber enclosing)).children := by
      show AllOf _ n.children
      rw [hnil]
      exact Node.allOf_nil
    exact .skip_leaf hn hnil hn hbelow (behind hskip)
  | @label enclosing s _ n _ _ fresh tag _ behind =>
    have hn : n.isStatement = false := isStatement_of_ne (by simp [tag])
    have hnil : n.children = [] := fresh.children_eq_nil (.inl tag)
    have hskip := hs.skip (landmark?_of_ne (n := n) (by simp [tag]) (by simp [tag]))
    have hrecord : (s.recordLabel enclosing n).Reaches o (before ++ [n]) :=
      (Numbering.counters_recordLabel s enclosing n).trans hskip
    exact .skip_leaf hn hnil hn (by simp [hnil]) (behind hrecord)
  | @reference _ _ _ n _ _ fresh tag _ behind =>
    have hn : n.isStatement = false := isStatement_of_ne (by simp [tag])
    have hnil : n.children = [] := fresh.leaf (by rw [tag]; rfl)
    have hskip := hs.skip (landmark?_of_ne (n := n) (by simp [tag]) (by simp [tag]))
    have hspan : AllOf (·.isStatement = false) [numberSpan (labels.get? n.key)] := by
      rw [Node.allOf_cons, children_numberSpan]
      exact ⟨isStatement_of_ne (by simp), Node.allOf_nil, Node.allOf_nil⟩
    exact .skip_leaf hn hnil hn hspan (behind hskip)
  | @«section» _ _ _ _ n before' _ _ _ tag _ hbelow _ below behind =>
    have hn : n.isStatement = false := isStatement_of_ne (by simp [tag])
    have hskip := hs.skip (landmark?_of_ne (n := n) (by simp [tag]) (by simp [tag]))
    exact .skip hn (isStatement_of_ne (by simp [tag])) (below hskip) (behind (hskip.below hbelow))
  | @plain _ _ _ _ n _ _ _ _ tag _ hbelow _ below behind =>
    have hn : n.isStatement = false := isStatement_of_ne (Tag.ne_of_isPlain tag).2
    have hskip := hs.skip (landmark?_plain tag)
    exact .skip hn hn (below hskip) (behind (hskip.below hbelow))

/-! ## What a statement shows -/

/-- A statement of a resolved tree is as its place in the tree that was read says. -/
structure NumberedAs (o : NumberingOptions) (p : Place) (m : Node) : Prop where
  tag : m.tag = (p.node.setNumbered (p.node.takesNumber o)).tag
  id : m.attr? "id" = if p.node.takesNumber o then some (p.number o) else none
  anchor : m.flags.anchor = p.node.takesNumber o
  /-- It begins with its heading. Where the statement took a number, this shows the number;
  otherwise its place for a number, which a proof does not have, is empty. -/
  heading : ∃ heading rest, m.children = heading :: rest ∧ heading.hasRole .blockHeading = true ∧
    heading.shownNumbers =
      if p.node.takesNumber o then [p.number o]
      else if p.node.kind?.any Kind.isProof then [] else [""]

theorem SettlesAt.numberedAs {o : NumberingOptions} {labels : Dict Target} {fileId : Nat}
    {p : Place} {m : Node} (h : SettlesAt o labels fileId p m) (hn : Framed p.node)
    (hbefore : ∀ n ∈ p.before, Framed n) : NumberedAs o p m := by
  cases h with
  | @numbered enclosing cs st s _ fresh tag takes reaches below =>
    have hnumber : dotted (s.statementComponents o st.kind) = p.number o := by
      rw [reaches.statementComponents_eq hbefore tag]
      rfl
    have htarget : s.statementTarget o st.kind = ⟨p.number o, p.number o⟩ := by
      rw [Numbering.statementTarget, hnumber]
    rw [htarget] at below
    obtain ⟨heading, rest, hchildren, hrole, hshown⟩ :=
      exists_heading_of_settles (hn.begins st tag) below
    -- a proof takes no number
    have hproof : st.kind.isProof = false := by
      rw [Bool.eq_false_iff]
      intro hproof
      rw [takesNumber_of_block tag, hn.proof st tag hproof] at takes
      exact Bool.false_ne_true takes
    rw [hproof] at hshown
    refine ⟨?_, ?_, ?_, heading, rest, hchildren, hrole, ?_⟩
    · simp [Node.setNumbered, Node.setStatementNumber, Node.setAttr, tag, takes]
    · rw [if_pos takes, id_setStatementNumber, hnumber]
    · rw [takes]
      rfl
    · rw [if_pos takes]
      exact hshown
  | @unnumbered enclosing cs st _ _ fresh tag takes below =>
    obtain ⟨heading, rest, hchildren, hrole, hshown⟩ :=
      exists_heading_of_settles (hn.begins st tag) below
    refine ⟨?_, ?_, ?_, heading, rest, hchildren, hrole, ?_⟩
    · simp [Node.setNumbered, Node.clearAnchor, tag, takes]
    · rw [if_neg (by simp [takes])]
      exact fresh.no_id
    · rw [takes]
      rfl
    · rw [if_neg (by simp [takes]), kind?_of_block tag, hshown]
      rfl

theorem NumberedAs.isNumbered_eq {o : NumberingOptions} {p : Place} {m : Node}
    (h : NumberedAs o p m) : m.isNumbered = p.node.takesNumber o := by
  have htag := h.tag
  unfold Node.setNumbered at htag
  cases hp : p.node.tag with
  | block st =>
    rw [hp] at htag
    rw [isNumbered_of_block htag]
  | _ =>
    have htakes : p.node.takesNumber o = false := takesNumber_of_ne (by simp [hp])
    have hnumbered : m.isNumbered = false := isNumbered_of_ne (by simp [htag, hp])
    rw [hnumbered, htakes]

theorem exists_id_of_paired {o : NumberingOptions} {ps : List Place} {ms : List Node} {m : Node}
    (h : Paired (NumberedAs o) ps ms) (hm : m ∈ descendantsOf ms)
    (hnumbered : m.isNumbered = true) : ∃ number, m.attr? "id" = some number := by
  have hmem : m ∈ (descendantsOf ms).filter (·.isStatement) :=
    List.mem_filter.2 ⟨hm, isStatement_of_isNumbered hnumbered⟩
  rw [Paired] at h
  generalize ps.filter (·.node.isStatement) = ps at h
  generalize (descendantsOf ms).filter (·.isStatement) = ms at h hmem
  induction h with
  | nil => exact absurd hmem List.not_mem_nil
  | @cons p k _ _ hpk _ ih =>
    rcases List.mem_cons.1 hmem with rfl | hmem
    · have hid := hpk.id
      rw [if_pos (by rw [← hpk.isNumbered_eq, hnumbered])] at hid
      exact ⟨p.number o, hid⟩
    · exact ih hmem

/-- The statements of a resolved tree are as their places say. -/
theorem paired_resolve (o : NumberingOptions) (fileId : Nat) {root : Node}
    (hfresh : AllOf Fresh [root]) (hframed : AllOf Framed root.children) :
    Paired (NumberedAs o) root.places (resolve o fileId root).root.children := by
  have hsettles : Paired (SettlesAt o (resolve o fileId root).labels fileId) root.places
      (resolve o fileId root).root.children :=
    paired_of_settles (settles_resolve o fileId hfresh) rfl
  have hplaces : ∀ p ∈ root.places.filter (·.node.isStatement),
      Framed p.node ∧ ∀ n ∈ p.before, Framed n := by
    intro p hp
    obtain ⟨rest, hrest⟩ := Node.exists_rest_of_mem_places (List.mem_filter.1 hp).1
    rw [Node.descendants_eq] at hrest
    have hmem : ∀ n ∈ p.before ++ p.node :: rest, Framed n := hrest ▸ hframed
    exact ⟨hmem p.node (by simp), fun n hn => hmem n (by simp [hn])⟩
  exact ((List.forall₂_and_left _ _).2 ⟨hplaces, hsettles⟩).imp fun p m ⟨⟨hn, hbefore⟩, h⟩ =>
    h.numberedAs hn hbefore

/-- Every statement of a document takes a number or not, and the number that it takes is shown, as
its place in the tree says. -/
theorem statements_are_numbered (source : List Char) (fileId resolverId : Nat) (sections : Bool)
    (o : NumberingOptions) :
    let tree := (Document.parse source fileId).tree sections
    List.Forall₂ (NumberedAs o) (tree.places.filter (·.node.isStatement))
      ((resolve o resolverId tree).root.descendants.filter (·.isStatement)) := by
  intro tree
  have hpaired := paired_resolve o resolverId (fresh_tree source fileId sections)
    (framed_tree source fileId sections)
  rw [Node.descendants_eq]
  exact hpaired

end Treatise
