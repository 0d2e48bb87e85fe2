import Treatise.Proofs.Numbering.Counting
import Treatise.Proofs.Tree.Forest
import Treatise.Resolution

/-!
# The walks over a document

What the numbering of a document does at every kind of node, said once.

* **`Numbers`** — the steps of the walk as a relation with one rule for each kind of node;
  `numbers_numberNodes` says that the walk follows them.
* **`landmarks`** — what the walk counts, in document order.
* **`resolveNode_of_ne`** — the second walk changes references only.
-/

namespace Treatise

open Node (descendantsOf holdLabel AllOf)

/-! ## Numbering one node -/

section Steps

variable {o : NumberingOptions} {enclosing : List (Option Target)} {n : Node} {s : Numbering}

@[simp] theorem numberNodes_nil : numberNodes o enclosing [] s = ([], s) := rfl

theorem numberNodes_cons (ns : List Node) :
    numberNodes o enclosing (n :: ns) s =
      ((numberNode o enclosing n s).1 ::
          (numberNodes o enclosing ns (numberNode o enclosing n s).2).1,
        (numberNodes o enclosing ns (numberNode o enclosing n s).2).2) := rfl

theorem numberNode_heading {level : Nat} (h : n.tag = .heading level) :
    numberNode o enclosing n s =
      let r := numberNodes o enclosing n.children (s.pass o (.heading level n.headingTitle))
      (Node.setSectionNumber (dotted (Numbering.nextComponents s.components level))
        { n with children := r.1 }, r.2) := by
  obtain ⟨tag, attrs, flags, text, tail, children⟩ := n
  subst h
  rfl

/-- The number of the next statement of a kind, as what a label in the statement points to. -/
def Numbering.statementTarget (o : NumberingOptions) (kind : Kind) (s : Numbering) : Target :=
  ⟨dotted (s.statementComponents o kind), dotted (s.statementComponents o kind)⟩

theorem numberNode_numbered {st st' : Statement} (h : n.tag = .block st)
    (hst : st.restrict o (holdLabel n.children) = st') (hnumbered : st'.numbered = true) :
    numberNode o enclosing n s =
      let r := numberNodes o (some (s.statementTarget o st'.kind) :: enclosing) n.children
        (s.pass o (.statement st'.kind))
      (Node.setStatementNumber (dotted (s.statementComponents o st'.kind))
        { n with tag := .block st', children := r.1 }, r.2) := by
  obtain ⟨tag, attrs, flags, text, tail, children⟩ := n
  subst h
  rw [numberNode, hst, if_pos hnumbered, Numbering.statementNumber_eq]
  rfl

theorem numberNode_unnumbered {st st' : Statement} (h : n.tag = .block st)
    (hst : st.restrict o (holdLabel n.children) = st') (hnumbered : st'.numbered = false) :
    numberNode o enclosing n s =
      let r := numberNodes o (none :: enclosing) n.children s
      (Node.clearAnchor { n with tag := .block st', children := r.1 }, r.2) := by
  obtain ⟨tag, attrs, flags, text, tail, children⟩ := n
  subst h
  rw [numberNode, hst, if_neg (by simp [hnumbered])]

theorem numberNode_place (h : n.tag = .span .blockNumber) :
    numberNode o enclosing n s = (n.setText (shownNumber enclosing), s) := by
  obtain ⟨tag, attrs, flags, text, tail, children⟩ := n
  subst h
  rfl

theorem numberNode_label (h : n.tag = .label) :
    numberNode o enclosing n s = (n, s.recordLabel enclosing n) := by
  obtain ⟨tag, attrs, flags, text, tail, children⟩ := n
  subst h
  rfl

theorem numberNode_section (h : n.tag = .section) :
    numberNode o enclosing n s =
      let r := numberNodes o enclosing n.children s
      (Node.refreshSection { n with children := r.1 }, r.2) := by
  obtain ⟨tag, attrs, flags, text, tail, children⟩ := n
  subst h
  rfl

/-- A node that numbering only looks into. -/
def Tag.isPlain : Tag → Bool
  | heading _ | block _ | span .blockNumber | label | «section» => false
  | _ => true

/-- A node that numbering only looks into is neither a heading nor a statement. -/
theorem Tag.ne_of_isPlain {tag : Tag} (h : tag.isPlain = true) :
    (∀ level, tag ≠ .heading level) ∧ ∀ st, tag ≠ .block st := by
  constructor
  · rintro level rfl
    exact absurd h Bool.false_ne_true
  · rintro st rfl
    exact absurd h Bool.false_ne_true

theorem Tag.ne_label_of_isPlain {tag : Tag} (h : tag.isPlain = true) : tag ≠ .label := by
  rintro rfl
  exact absurd h Bool.false_ne_true

theorem numberNode_plain (h : n.tag.isPlain = true) :
    numberNode o enclosing n s =
      let r := numberNodes o enclosing n.children s
      ({ n with children := r.1 }, r.2) := by
  obtain ⟨tag, attrs, flags, text, tail, children⟩ := n
  cases tag with
  | span role =>
    cases role with
    | blockNumber => exact absurd h Bool.false_ne_true
    | _ => rfl
  | heading | block | label | «section» => exact absurd h Bool.false_ne_true
  | _ => rfl

/-- Numbering has nothing to do at a plain node without children. -/
theorem numberNode_of_children_nil (h : n.tag.isPlain = true) (hnil : n.children = []) :
    numberNode o enclosing n s = (n, s) := by
  obtain ⟨tag, attrs, flags, text, tail, children⟩ := n
  subst hnil
  exact numberNode_plain h

end Steps

/-! ## The walk as a relation -/

/-- Numbering takes nodes in a state to nodes and the state behind them. There is one rule for each
kind of node. -/
inductive Numbers (o : NumberingOptions) :
    List (Option Target) → Numbering → List Node → List Node → Numbering → Prop
  | nil {enclosing s} : Numbers o enclosing s [] [] s
  | heading {enclosing s s₁ s₂ n cs ns ms level} (tag : n.tag = .heading level)
      (below : Numbers o enclosing (s.pass o (.heading level n.headingTitle)) n.children cs s₁)
      (behind : Numbers o enclosing s₁ ns ms s₂) :
      Numbers o enclosing s (n :: ns)
        (Node.setSectionNumber (dotted (Numbering.nextComponents s.components level))
          { n with children := cs } :: ms) s₂
  | numbered {enclosing s s₁ s₂ n cs ns ms st st'} (tag : n.tag = .block st)
      (restrict : st.restrict o (holdLabel n.children) = st') (isNumbered : st'.numbered = true)
      (below : Numbers o (some (s.statementTarget o st'.kind) :: enclosing)
        (s.pass o (.statement st'.kind)) n.children cs s₁)
      (behind : Numbers o enclosing s₁ ns ms s₂) :
      Numbers o enclosing s (n :: ns)
        (Node.setStatementNumber (dotted (s.statementComponents o st'.kind))
          { n with tag := .block st', children := cs } :: ms) s₂
  | unnumbered {enclosing s s₁ s₂ n cs ns ms st st'} (tag : n.tag = .block st)
      (restrict : st.restrict o (holdLabel n.children) = st') (notNumbered : st'.numbered = false)
      (below : Numbers o (none :: enclosing) s n.children cs s₁)
      (behind : Numbers o enclosing s₁ ns ms s₂) :
      Numbers o enclosing s (n :: ns)
        (Node.clearAnchor { n with tag := .block st', children := cs } :: ms) s₂
  | place {enclosing s s₁ n ns ms} (tag : n.tag = .span .blockNumber)
      (behind : Numbers o enclosing s ns ms s₁) :
      Numbers o enclosing s (n :: ns) (n.setText (shownNumber enclosing) :: ms) s₁
  | label {enclosing s s₁ n ns ms} (tag : n.tag = .label)
      (behind : Numbers o enclosing (s.recordLabel enclosing n) ns ms s₁) :
      Numbers o enclosing s (n :: ns) (n :: ms) s₁
  | section {enclosing s s₁ s₂ n cs ns ms} (tag : n.tag = .section)
      (below : Numbers o enclosing s n.children cs s₁) (behind : Numbers o enclosing s₁ ns ms s₂) :
      Numbers o enclosing s (n :: ns) (Node.refreshSection { n with children := cs } :: ms) s₂
  | plain {enclosing s s₁ s₂ n cs ns ms} (tag : n.tag.isPlain = true)
      (below : Numbers o enclosing s n.children cs s₁) (behind : Numbers o enclosing s₁ ns ms s₂) :
      Numbers o enclosing s (n :: ns) ({ n with children := cs } :: ms) s₂

theorem numbers_numberNodes (o : NumberingOptions) (enclosing : List (Option Target))
    (ns : List Node) (s : Numbering) :
    Numbers o enclosing s ns (numberNodes o enclosing ns s).1 (numberNodes o enclosing ns s).2 := by
  induction ns using Node.forest_induction generalizing enclosing s with
  | nil => exact .nil
  | cons n ns below behind =>
    rw [numberNodes_cons]
    -- most tags are plain, so that only the others are told apart
    by_cases hplain : n.tag.isPlain = true
    · rw [numberNode_plain hplain]
      exact .plain hplain (below _ _) (behind _ _)
    · cases htag : n.tag with
      | heading level =>
        rw [numberNode_heading htag]
        exact .heading htag (below _ _) (behind _ _)
      | block st =>
        cases hnumbered : (st.restrict o (holdLabel n.children)).numbered with
        | true =>
          rw [numberNode_numbered htag rfl hnumbered]
          exact .numbered htag rfl hnumbered (below _ _) (behind _ _)
        | false =>
          rw [numberNode_unnumbered htag rfl hnumbered]
          exact .unnumbered htag rfl hnumbered (below _ _) (behind _ _)
      | span role =>
        cases role with
        | blockNumber =>
          rw [numberNode_place htag]
          exact .place htag (behind _ _)
        | _ => exact absurd (by rw [htag]; rfl) hplain
      | label =>
        rw [numberNode_label htag]
        exact .label htag (behind _ _)
      | «section» =>
        rw [numberNode_section htag]
        exact .section htag (below _ _) (behind _ _)
      | _ => exact absurd (by rw [htag]; rfl) hplain

/-! ## What is counted -/

namespace Numbering

variable (o : NumberingOptions) (s : Numbering)

/-- The state without the labels, which count for nothing. -/
def counters : Numbering := { s with labels := ∅ }

theorem counters_pass (l : Landmark) : (s.pass o l).counters = s.counters.pass o l := by
  cases l <;> rfl

theorem counters_recordLabel (enclosing : List (Option Target)) (n : Node) :
    (s.recordLabel enclosing n).counters = s.counters := by
  unfold recordLabel
  split <;> rfl

theorem components_recordLabel (enclosing : List (Option Target)) (n : Node) :
    (s.recordLabel enclosing n).components = s.components := by
  unfold recordLabel
  split <;> rfl

theorem given_counters (ls : List Landmark) : given o s.counters ls = given o s ls := by
  induction ls generalizing s with
  | nil => rfl
  | cons l ls ih =>
    rw [given, given, ← counters_pass, ih]
    cases l <;> rfl

theorem given_recordLabel (enclosing : List (Option Target)) (n : Node) (ls : List Landmark) :
    given o (s.recordLabel enclosing n) ls = given o s ls := by
  rw [← given_counters, counters_recordLabel, given_counters]

end Numbering

/-- The landmark that a node is. `title` reads the title of a heading. -/
def Node.landmark? (o : NumberingOptions) (title : Node → String) (n : Node) : Option Landmark :=
  match n.tag with
  | .heading level => some (.heading level (title n))
  | .block st =>
    let st := st.restrict o (holdLabel n.children)
    if st.numbered then some (.statement st.kind) else none
  | _ => none

/-- The landmarks of nodes in document order. -/
def landmarks (o : NumberingOptions) (title : Node → String) (ns : List Node) : List Landmark :=
  (descendantsOf ns).filterMap (Node.landmark? o title)

section Landmarks

variable {o : NumberingOptions} {title : Node → String} {n : Node} {ns : List Node}

@[simp] theorem landmarks_nil : landmarks o title [] = [] := rfl

theorem landmarks_append (ns ms : List Node) :
    landmarks o title (ns ++ ms) = landmarks o title ns ++ landmarks o title ms := by
  rw [landmarks, Node.descendantsOf_append, List.filterMap_append]
  rfl

theorem landmarks_cons :
    landmarks o title (n :: ns) =
      (n.landmark? o title).toList ++ (landmarks o title n.children ++ landmarks o title ns) := by
  cases h : n.landmark? o title <;> simp [landmarks, h]

theorem landmarks_cons_of_some {l : Landmark} (h : n.landmark? o title = some l) :
    landmarks o title (n :: ns) = l :: (landmarks o title n.children ++ landmarks o title ns) := by
  simp [landmarks, h]

theorem landmarks_cons_of_none (h : n.landmark? o title = none) :
    landmarks o title (n :: ns) = landmarks o title n.children ++ landmarks o title ns := by
  simp [landmarks, h]

theorem landmark?_heading {level : Nat} (h : n.tag = .heading level) :
    n.landmark? o title = some (.heading level (title n)) := by
  rw [Node.landmark?, h]

theorem landmark?_numbered {st st' : Statement} (h : n.tag = .block st)
    (hst : st.restrict o (holdLabel n.children) = st') (hnumbered : st'.numbered = true) :
    n.landmark? o title = some (.statement st'.kind) := by
  simp only [Node.landmark?, h, hst, hnumbered, if_true]

theorem landmark?_unnumbered {st st' : Statement} (h : n.tag = .block st)
    (hst : st.restrict o (holdLabel n.children) = st') (hnumbered : st'.numbered = false) :
    n.landmark? o title = none := by
  simp [Node.landmark?, h, hst, hnumbered]

theorem landmark?_of_ne (hheading : ∀ level, n.tag ≠ .heading level)
    (hblock : ∀ st, n.tag ≠ .block st) : n.landmark? o title = none := by
  unfold Node.landmark?
  split
  · next level h => exact absurd h (hheading level)
  · next st h => exact absurd h (hblock st)
  · rfl

theorem landmark?_plain (h : n.tag.isPlain = true) : n.landmark? o title = none :=
  landmark?_of_ne (Tag.ne_of_isPlain h).1 (Tag.ne_of_isPlain h).2

theorem landmarks_cons_of_leaf (hnil : n.children = []) (hheading : ∀ level, n.tag ≠ .heading level)
    (hblock : ∀ st, n.tag ≠ .block st) : landmarks o title (n :: ns) = landmarks o title ns := by
  rw [landmarks_cons_of_none (landmark?_of_ne hheading hblock), hnil, landmarks_nil,
    List.nil_append]

end Landmarks

/-! ## Resolving one node -/

section NumberSpan

variable (target : Option Target)

@[simp] theorem tag_numberSpan : (numberSpan target).tag = .span .referenceNumber := by
  cases target <;> rfl

@[simp] theorem children_numberSpan : (numberSpan target).children = [] := by
  cases target <;> rfl

@[simp] theorem tail_numberSpan : (numberSpan target).tail = "" := by
  cases target <;> rfl

theorem id_numberSpan : (numberSpan target).attr? "id" = none := by
  cases target with
  | none => rfl
  | some target =>
    rw [show (numberSpan (some target)).attr? "id" =
      ((Node.span .referenceNumber).attrs.insert "href" ("#" ++ target.anchor)).get? "id" from rfl,
      Dict.get?_insert, if_neg (by decide)]
    rfl

end NumberSpan

section Resolve

variable {labels : Dict Target} {fileId : Nat} {n : Node}

@[simp] theorem resolveNodes_nil : resolveNodes labels fileId [] = ([], []) := rfl

theorem resolveNodes_cons (ns : List Node) :
    resolveNodes labels fileId (n :: ns) =
      ((resolveNode labels fileId n).1 :: (resolveNodes labels fileId ns).1,
        (resolveNode labels fileId n).2 ++ (resolveNodes labels fileId ns).2) := rfl

theorem resolveNode_reference (h : n.tag = .reference) :
    resolveNode labels fileId n = resolveReference labels fileId n := by
  obtain ⟨tag, attrs, flags, text, tail, children⟩ := n
  subst h
  rfl

theorem resolveNode_of_ne (h : n.tag ≠ .reference) :
    resolveNode labels fileId n =
      ({ n with children := (resolveNodes labels fileId n.children).1 },
        (resolveNodes labels fileId n.children).2) := by
  obtain ⟨tag, attrs, flags, text, tail, children⟩ := n
  cases tag with
  | reference => exact absurd rfl h
  | _ => rfl

theorem fst_resolveNodes (ns : List Node) :
    (resolveNodes labels fileId ns).1 = ns.map fun n => (resolveNode labels fileId n).1 := by
  induction ns with
  | nil => rfl
  | cons n ns ih => rw [resolveNodes_cons, ih, List.map_cons]

end Resolve

/-- Resolving changes nothing about a node but its children. -/
theorem resolveNode_eq (labels : Dict Target) (fileId : Nat) (n : Node) :
    (resolveNode labels fileId n).1 =
      { n with children := (resolveNode labels fileId n).1.children } := by
  by_cases h : n.tag = .reference
  · rw [resolveNode_reference h]
    rfl
  · rw [resolveNode_of_ne h]

section Parts

variable (labels : Dict Target) (fileId : Nat) (n : Node)

@[simp] theorem tag_resolveNode : (resolveNode labels fileId n).1.tag = n.tag := by
  rw [resolveNode_eq]

@[simp] theorem text_resolveNode : (resolveNode labels fileId n).1.text = n.text := by
  rw [resolveNode_eq]

@[simp] theorem tail_resolveNode : (resolveNode labels fileId n).1.tail = n.tail := by
  rw [resolveNode_eq]

theorem headingLevel?_resolveNode :
    (resolveNode labels fileId n).1.headingLevel? = n.headingLevel? := by
  rw [Node.headingLevel?, Node.headingLevel?, tag_resolveNode]

end Parts

theorem children_resolveNode_of_ne {labels : Dict Target} {fileId : Nat} {n : Node}
    (h : n.tag ≠ .reference) :
    (resolveNode labels fileId n).1.children = (resolveNodes labels fileId n.children).1 := by
  rw [resolveNode_of_ne h]

theorem snd_resolveNode_of_ne {labels : Dict Target} {fileId : Nat} {n : Node}
    (h : n.tag ≠ .reference) :
    (resolveNode labels fileId n).2 = (resolveNodes labels fileId n.children).2 := by
  rw [resolveNode_of_ne h]

theorem resolveNode_of_children_nil {labels : Dict Target} {fileId : Nat} {n : Node}
    (h : n.tag ≠ .reference) (hnil : n.children = []) :
    (resolveNode labels fileId n).1 = n := by
  rw [resolveNode_of_ne h, hnil, resolveNodes_nil, ← hnil, Node.eta]

end Treatise
