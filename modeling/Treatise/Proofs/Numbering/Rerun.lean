import Treatise.Proofs.Contents
import Treatise.Proofs.Numbering.Titles

/-!
# Numbering a document again

A document that has its numbers and references is numbered again. Nothing that the first run left in
the tree is counted twice: the second run finds each number in its place, writes the same one, and
records the same labels.

* **`reruns_of_settles`** — the second run over nodes counts as the first did, gives the same
  issues, and leaves the nodes as they are, if resolving leaves the titles of all headings as they
  are.
* **`resolve_resolve`** — the second run over a document returns the same labels and the same
  issues; it leaves the tree and the table of contents as they are if, and only if, no reference in
  a heading shows anything.

The title of a section and its entry in the table of contents are those of its heading, read before
references are resolved. So a reference in a heading is not in the title after the first run, but it
is after the second.
-/

namespace Treatise

open Node (Fresh AllOf descendantsOf holdLabel)

/-! ## States that agree -/

/-- Two states that are alike, but for the table of contents. -/
structure Numbering.Agrees (t s : Numbering) : Prop where
  components : t.components = s.components
  counted : t.counted = s.counted
  labels : t.labels = s.labels

namespace Numbering.Agrees

variable {o : NumberingOptions} {t s : Numbering} (h : Agrees t s)

include h

theorem pass_heading (level : Nat) (title title' : String) :
    Agrees (t.pass o (.heading level title)) (s.pass o (.heading level title')) := by
  refine ⟨?_, ?_, h.labels⟩
  · show nextComponents t.components level = nextComponents s.components level
    rw [h.components]
  · show (if level - 1 < o.depthLimit then [] else t.counted) =
      if level - 1 < o.depthLimit then [] else s.counted
    rw [h.counted]

theorem pass_statement (kind : Kind) :
    Agrees (t.pass o (.statement kind)) (s.pass o (.statement kind)) :=
  ⟨h.components, congrArg (kind :: ·) h.counted, h.labels⟩

theorem statementComponents_eq (kind : Kind) :
    t.statementComponents o kind = s.statementComponents o kind := by
  rw [statementComponents, statementComponents, count, count, h.components, h.counted]

theorem recordLabel (enclosing : List (Option Target)) (n : Node) :
    Agrees (t.recordLabel enclosing n) (s.recordLabel enclosing n) := by
  have htarget : t.labelTarget enclosing = s.labelTarget enclosing := by
    rw [labelTarget, labelTarget, sectionNumber, sectionNumber, h.components]
  unfold Numbering.recordLabel
  split
  · exact ⟨h.components, h.counted, by rw [h.labels, htarget]⟩
  · exact h

end Numbering.Agrees

/-! ## Nodes that have their numbers -/

section Numbered

variable {o : NumberingOptions} {enclosing : List (Option Target)} {t : Numbering} {n : Node}

theorem Node.setSectionNumber_numberedHeading (n : Node) (number : String) (cs : List Node) :
    (n.numberedHeading number cs).setSectionNumber number = n.numberedHeading number cs := by
  have hspan : markSection number (sectionSpan number n.text) = sectionSpan number n.text := by
    have hattrs : ((∅ : Attributes).insert "id" (sectionAnchor number)).insert "id"
        (sectionAnchor number) = (∅ : Attributes).insert "id" (sectionAnchor number) :=
      Dict.insert_insert _ _ _ _
    show (⟨_, ((∅ : Attributes).insert "id" (sectionAnchor number)).insert "id"
        (sectionAnchor number), _, _, _, _⟩ : Node) = _
    rw [hattrs]
    rfl
  show { n.numberedHeading number cs with
    children := markSection number (sectionSpan number n.text) :: cs } = _
  rw [hspan]
  rfl

theorem numberNode_numberedHeading {level : Nat} (tag : n.tag = .heading level) {number : String}
    (hnumber : dotted (Numbering.nextComponents t.components level) = number) (cs : List Node) :
    numberNode o enclosing (n.numberedHeading number cs) t =
      let r := numberNodes o enclosing cs
        (t.pass o (.heading level ({ n with children := cs } : Node).headingTitle))
      (n.numberedHeading number r.1, r.2) := by
  rw [numberNode_heading (n := n.numberedHeading number cs) tag, hnumber,
    Node.headingTitle_numberedHeading]
  refine Prod.ext ?_ rfl
  exact Node.setSectionNumber_numberedHeading n number _

theorem Node.setStatementNumber_twice (n : Node) (number : String) (st : Statement)
    (cs : List Node) :
    ({ n.setStatementNumber number with tag := .block st, children := cs } : Node).setStatementNumber
        number =
      ({ n with tag := .block st, children := cs } : Node).setStatementNumber number := by
  have hattrs : (n.attrs.insert "id" number).insert "id" number = n.attrs.insert "id" number :=
    Dict.insert_insert _ _ _ _
  show (⟨_, (n.attrs.insert "id" number).insert "id" number, _, _, _, _⟩ : Node) = _
  rw [hattrs]
  rfl

theorem numberNode_setStatementNumber {st : Statement} {cs : List Node}
    (restrict : st.restrict o (holdLabel cs) = st) (isNumbered : st.numbered = true)
    {number : String} (hnumber : dotted (t.statementComponents o st.kind) = number) :
    numberNode o enclosing
        (Node.setStatementNumber number { n with tag := .block st, children := cs }) t =
      let r := numberNodes o (some (t.statementTarget o st.kind) :: enclosing) cs
        (t.pass o (.statement st.kind))
      (Node.setStatementNumber number { n with tag := .block st, children := r.1 }, r.2) := by
  rw [numberNode_numbered rfl restrict isNumbered, hnumber]
  refine Prod.ext ?_ rfl
  exact Node.setStatementNumber_twice _ _ _ _

theorem numberNode_clearAnchor {st : Statement} {cs : List Node}
    (restrict : st.restrict o (holdLabel cs) = st) (notNumbered : st.numbered = false) :
    numberNode o enclosing (Node.clearAnchor { n with tag := .block st, children := cs }) t =
      let r := numberNodes o (none :: enclosing) cs t
      (Node.clearAnchor { n with tag := .block st, children := r.1 }, r.2) := by
  rw [numberNode_unnumbered rfl restrict notNumbered]
  rfl

/-- The number that a reference shows takes no number itself. -/
theorem numberNode_resolvedReference (tag : n.tag = .reference) (target : Option Target) :
    numberNode o enclosing { n with children := [numberSpan target] } t =
      ({ n with children := [numberSpan target] }, t) := by
  have hspan : (numberSpan target).tag.isPlain = true := by
    rw [tag_numberSpan]
    rfl
  have hnodes : numberNodes o enclosing [numberSpan target] t = ([numberSpan target], t) := by
    rw [numberNodes_cons, numberNode_of_children_nil hspan (children_numberSpan _),
      numberNodes_nil]
  rw [numberNode_plain (by simp [tag, Tag.isPlain]), hnodes]

/-- A statement is restricted once and for all. -/
theorem Statement.restrict_restrict (o : NumberingOptions) (labeled : Bool) (st : Statement) :
    (st.restrict o labeled).restrict o labeled = st.restrict o labeled := by
  unfold Statement.restrict
  split
  · rfl
  · rfl

end Numbered

/-! ## Sections that have their titles -/

namespace Node

theorem setAttr_of_attr? {n : Node} {key value : String} (h : n.attr? key = some value) :
    n.setAttr key value = n := by
  show ({ n with attrs := n.attrs.insert key value } : Node) = n
  rw [Dict.insert_of_get? h, eta]

/-- A section that says all this about a heading says no more. -/
theorem describeSection_of_attrs {n h : Node}
    (hlevel : ∀ level, h.headingLevel? = some level → n.attr? "level" = some (Nat.repr level))
    (hnumber : ∀ number, h.headingNumber? = some number → n.attr? "number" = some number)
    (htitle : n.attr? "title" = some h.headingTitle) : n.describeSection h = n := by
  unfold describeSection
  cases hl : h.headingLevel? with
  | none =>
    cases hn : h.headingNumber? with
    | none => simp only [setAttr_of_attr? htitle]
    | some number => simp only [setAttr_of_attr? (hnumber number hn), setAttr_of_attr? htitle]
  | some level =>
    cases hn : h.headingNumber? with
    | none => simp only [setAttr_of_attr? (hlevel level hl), setAttr_of_attr? htitle]
    | some number =>
      simp only [setAttr_of_attr? (hlevel level hl), setAttr_of_attr? (hnumber number hn),
        setAttr_of_attr? htitle]

end Node

section Refreshed

variable {labels : Dict Target} {fileId : Nat}

theorem headingNumber?_resolveNode {n : Node} (h : n.tag ≠ .reference) :
    (resolveNode labels fileId n).1.headingNumber? = n.headingNumber? := by
  have hrole : (fun c : Node => c.hasRole .sectionNumber) ∘
      (fun c => (resolveNode labels fileId c).1) = (·.hasRole .sectionNumber) := by
    funext c
    simp [Node.hasRole]
  rw [Node.headingNumber?, Node.headingNumber?, children_resolveNode_of_ne h, fst_resolveNodes,
    List.find?_map, hrole, Option.map_map]
  cases n.children.find? (·.hasRole .sectionNumber) with
  | none => rfl
  | some c => exact congrArg some (text_resolveNode labels fileId c)

/-- The first heading among resolved nodes. -/
theorem find?_heading_resolveNodes (ns : List Node) :
    (resolveNodes labels fileId ns).1.find? (·.headingLevel?.isSome) =
      (ns.find? (·.headingLevel?.isSome)).map fun h => (resolveNode labels fileId h).1 := by
  have hlevel : (fun c : Node => c.headingLevel?.isSome) ∘
      (fun c => (resolveNode labels fileId c).1) = (·.headingLevel?.isSome) := by
    funext c
    simp [headingLevel?_resolveNode]
  rw [fst_resolveNodes, List.find?_map, hlevel]

/-- A section is refreshed once and for all, if its headings keep their titles. -/
theorem refreshSection_settledSection {n : Node} {before : List Node}
    (h : ∀ h ∈ before, h.headingLevel?.isSome = true →
      (resolveNode labels fileId h).1.headingTitle = h.headingTitle) :
    (n.settledSection before (resolveNodes labels fileId before).1).refreshSection =
      n.settledSection before (resolveNodes labels fileId before).1 := by
  cases hfind : before.find? (·.headingLevel?.isSome) with
  | none =>
    rw [Node.refreshSection, Node.children_settledSection, find?_heading_resolveNodes, hfind]
    rfl
  | some heading =>
    -- the first heading describes the section, and it is the same one behind the resolution
    have hmem : heading ∈ before := List.mem_of_find?_eq_some hfind
    have hheading : heading.headingLevel?.isSome = true :=
      List.find?_some (p := fun n : Node => n.headingLevel?.isSome) hfind
    obtain ⟨level, htag⟩ := Node.isSome_headingLevel?.1 hheading
    have hrefresh : Node.refreshSection { n with children := before } =
        Node.describeSection { n with children := before } heading := by
      rw [Node.refreshSection, hfind]
    have hattr : ∀ key,
        (n.settledSection before (resolveNodes labels fileId before).1).attr? key =
          (Node.describeSection { n with children := before } heading).attr? key := by
      intro key
      rw [← hrefresh]
      rfl
    rw [Node.refreshSection, Node.children_settledSection, find?_heading_resolveNodes, hfind]
    refine Node.describeSection_of_attrs ?_ ?_ ?_
    · intro l hl
      rw [headingLevel?_resolveNode] at hl
      rw [hattr, Node.level_describeSection _ _ hl]
    · intro number hnumber
      rw [headingNumber?_resolveNode (by simp [htag])] at hnumber
      rw [hattr, Node.number_describeSection _ _ hnumber]
    · rw [hattr, Node.title_describeSection, h heading hmem hheading]

end Refreshed

/-! ## Labels stay where they are -/

theorem holdLabel_cons (n : Node) (ns : List Node) :
    holdLabel (n :: ns) = (n.tag == .label || (holdLabel n.children || holdLabel ns)) := by
  simp [holdLabel]

section Rerun

variable {labels : Dict Target} {fileId : Nat} {o : NumberingOptions}
  {enclosing : List (Option Target)} {s s' : Numbering} {ns ms : List Node}

/-- Numbering and resolving leave the labels where they are. -/
theorem holdLabel_of_settles (h : Settles o labels fileId enclosing s ns ms s') :
    holdLabel ms = holdLabel ns := by
  induction h with
  | nil => rfl
  | heading _ _ _ _ below behind =>
    have hspan : ∀ number cs n, holdLabel (Node.numberedHeading n number cs).children =
        holdLabel cs := by
      intro number cs n
      exact (holdLabel_cons _ _).trans rfl
    rw [holdLabel_cons, holdLabel_cons, hspan, below, behind]
    rfl
  | numbered _ tag _ _ _ _ below behind | unnumbered _ tag _ _ _ _ below behind =>
    rw [holdLabel_cons, holdLabel_cons, ← below, behind, tag]
    rfl
  | place _ _ _ behind =>
    rw [holdLabel_cons, holdLabel_cons, behind]
    rfl
  | label _ _ _ behind => rw [holdLabel_cons, holdLabel_cons, behind]
  | @reference _ _ _ n _ _ fresh tag _ behind =>
    have hnil : n.children = [] := fresh.leaf (by rw [tag]; rfl)
    have hspan : holdLabel [numberSpan (labels.get? n.key)] = false := by
      rw [holdLabel_cons, tag_numberSpan, children_numberSpan]
      rfl
    rw [holdLabel_cons, holdLabel_cons n, behind, hspan, hnil]
    rfl
  | «section» _ _ _ _ _ below behind =>
    rw [holdLabel_cons, holdLabel_cons, behind, ← below, Node.tag_settledSection]
    rfl
  | plain _ _ _ _ _ below behind =>
    rw [holdLabel_cons, holdLabel_cons, behind, ← below]

/-! ## The second run -/

/-- The title that a heading has when its references are resolved. -/
def resolvedTitle (labels : Dict Target) (fileId : Nat) (n : Node) : String :=
  (resolveNode labels fileId n).1.headingTitle

/-- A heading has the same title before and after its references are resolved. -/
def KeepsTitle (labels : Dict Target) (fileId : Nat) (n : Node) : Prop :=
  n.headingLevel?.isSome = true → resolvedTitle labels fileId n = n.headingTitle

/-- What the second run over nodes is like. The first run took `ns` to `ms` and to the state `s'`;
the second starts in the state `t`. -/
structure Reruns (o : NumberingOptions) (labels : Dict Target) (fileId : Nat)
    (enclosing : List (Option Target)) (ns ms : List Node) (s' t : Numbering) : Prop where
  agrees : (numberNodes o enclosing ms t).2.Agrees s'
  counters : (numberNodes o enclosing ms t).2.counters =
    (landmarks o (resolvedTitle labels fileId) ns).foldl (Numbering.pass o) t.counters
  issues : (resolveNodes labels fileId (numberNodes o enclosing ms t).1).2 =
    (resolveNodes labels fileId ms).2
  same : AllOf (KeepsTitle labels fileId) ns → (numberNodes o enclosing ms t).1 = ms

/-- The second run over a first node and then over the nodes behind it. -/
theorem Reruns.cons {n m m' : Node} {t t' : Numbering}
    (behind : Reruns o labels fileId enclosing ns ms s' t')
    (hnode : numberNode o enclosing m t = (m', t'))
    (hcounters : t'.counters =
      (landmarks o (resolvedTitle labels fileId) [n]).foldl (Numbering.pass o) t.counters)
    (hissues : (resolveNode labels fileId m').2 = (resolveNode labels fileId m).2)
    (hsame : AllOf (KeepsTitle labels fileId) n.children → m' = m) :
    Reruns o labels fileId enclosing (n :: ns) (m :: ms) s' t := by
  have hnodes : numberNodes o enclosing (m :: ms) t =
      (m' :: (numberNodes o enclosing ms t').1, (numberNodes o enclosing ms t').2) := by
    rw [numberNodes_cons, hnode]
  refine ⟨?_, ?_, ?_, ?_⟩
  · rw [hnodes]
    exact behind.agrees
  · rw [hnodes]
    have hlandmarks : landmarks o (resolvedTitle labels fileId) (n :: ns) =
        landmarks o (resolvedTitle labels fileId) [n] ++
          landmarks o (resolvedTitle labels fileId) ns := landmarks_append [n] ns
    rw [hlandmarks, List.foldl_append, ← hcounters]
    exact behind.counters
  · rw [hnodes]
    show (resolveNode labels fileId m').2 ++ (resolveNodes labels fileId _).2 =
      (resolveNode labels fileId m).2 ++ (resolveNodes labels fileId ms).2
    rw [hissues, behind.issues]
  · intro htitles
    rw [Node.allOf_cons] at htitles
    rw [hnodes, hsame htitles.2.1]
    exact congrArg _ (behind.same htitles.2.2)

/-- The second run over a first node that is put around the nodes below it, as `put` says. -/
theorem Reruns.parent {inner : List (Option Target)} {n : Node} {cs : List Node}
    {t t₁ : Numbering} (put : List Node → Node)
    (below : Reruns o labels fileId inner n.children cs s t₁)
    (behind : ∀ {t}, t.Agrees s → Reruns o labels fileId enclosing ns ms s' t)
    (hnode : numberNode o enclosing (put cs) t =
      (put (numberNodes o inner cs t₁).1, (numberNodes o inner cs t₁).2))
    (hcounters : t₁.counters =
      (n.landmark? o (resolvedTitle labels fileId)).toList.foldl (Numbering.pass o) t.counters)
    (hissues : ∀ cs, (resolveNode labels fileId (put cs)).2 = (resolveNodes labels fileId cs).2) :
    Reruns o labels fileId enclosing (n :: ns) (put cs :: ms) s' t := by
  refine (behind below.agrees).cons hnode ?_ ?_ fun htitles => congrArg put (below.same htitles)
  · rw [landmarks_cons, landmarks_nil, List.append_nil, List.foldl_append, ← hcounters]
    exact below.counters
  · rw [hissues, hissues]
    exact below.issues

/-- The second run over a first node that was empty, gave no landmark and is as it was. -/
theorem Reruns.leaf {n m : Node} {t t' : Numbering}
    (behind : Reruns o labels fileId enclosing ns ms s' t')
    (hnode : numberNode o enclosing m t = (m, t')) (hcounters : t'.counters = t.counters)
    (hlandmark : n.landmark? o (resolvedTitle labels fileId) = none) (hnil : n.children = []) :
    Reruns o labels fileId enclosing (n :: ns) (m :: ms) s' t := by
  refine behind.cons hnode ?_ rfl fun _ => rfl
  rw [landmarks_cons_of_none hlandmark, hnil, hcounters]
  rfl

/-- The labels of a statement are where they were, so it is restricted no further. -/
theorem restrict_of_settles (h : Settles o labels fileId enclosing s ns ms s')
    {st st' : Statement} (restrict : st.restrict o (holdLabel ns) = st') :
    st'.restrict o (holdLabel ms) = st' := by
  rw [holdLabel_of_settles h, ← restrict, Statement.restrict_restrict]

/-- The headings among resolved nodes keep their titles, if those that they come from do. -/
theorem TitlesFrom.keepsTitle (h : TitlesFrom labels fileId ms ns)
    (htitles : AllOf (KeepsTitle labels fileId) ns) : ∀ n ∈ ms, KeepsTitle labels fileId n := by
  intro n hn hlevel
  obtain ⟨k, hk, hklevel, hbefore, hafter⟩ := h n hn hlevel
  rw [resolvedTitle, hbefore, hafter]
  exact htitles k (Node.mem_descendantsOf_of_mem hk) hklevel

/-- The second run over nodes counts as the first did and finds every number in its place. -/
theorem reruns_of_settles (h : Settles o labels fileId enclosing s ns ms s') {t : Numbering}
    (ht : t.Agrees s) : Reruns o labels fileId enclosing ns ms s' t := by
  induction h generalizing t with
  | nil => exact ⟨ht, rfl, rfl, fun _ => rfl⟩
  | @heading enclosing s _ _ n _ _ level _ tag _ _ below behind =>
    have hbelow := below (ht.pass_heading (o := o) level (resolvedTitle labels fileId n)
      n.headingTitle)
    have hnumber : dotted (Numbering.nextComponents t.components level) =
        dotted (Numbering.nextComponents s.components level) := by rw [ht.components]
    have htitle : ({ n with children := (resolveNodes labels fileId n.children).1 } : Node) =
        (resolveNode labels fileId n).1 := by rw [resolveNode_of_ne (by simp [tag])]
    -- the second run finds a number in front of the heading and reads its title behind it, with
    -- what the references in it show by now
    have hnode : numberNode o enclosing (n.numberedHeading
        (dotted (Numbering.nextComponents s.components level))
        (resolveNodes labels fileId n.children).1) t = _ :=
      numberNode_numberedHeading tag hnumber _
    rw [htitle] at hnode
    refine Reruns.parent (n.numberedHeading _) hbelow behind hnode ?_ fun cs => ?_
    · rw [landmark?_heading tag]
      exact Numbering.counters_pass ..
    · exact snd_resolveNode_of_ne (by simp [Node.numberedHeading, tag])
  | @numbered enclosing s _ _ n cs _ _ st st' _ tag restrict isNumbered hsettles _ below behind =>
    -- the labels inside are where they were, so the statement takes its number again
    have hbelow := below (ht.pass_statement (o := o) st'.kind)
    have hnumber : dotted (t.statementComponents o st'.kind) =
        dotted (s.statementComponents o st'.kind) := by rw [ht.statementComponents_eq]
    have htarget : t.statementTarget o st'.kind = s.statementTarget o st'.kind := by
      rw [Numbering.statementTarget, hnumber]
      rfl
    have hnode : numberNode o enclosing (Node.setStatementNumber
        (dotted (s.statementComponents o st'.kind))
        { n with tag := .block st', children := cs }) t = _ :=
      numberNode_setStatementNumber (restrict_of_settles hsettles restrict) isNumbered hnumber
    rw [htarget] at hnode
    refine Reruns.parent
      (fun cs => Node.setStatementNumber _ { n with tag := .block st', children := cs })
      hbelow behind hnode ?_ fun cs => ?_
    · rw [landmark?_numbered tag restrict isNumbered]
      exact Numbering.counters_pass ..
    · exact snd_resolveNode_of_ne (by simp [Node.setStatementNumber, Node.setAttr])
  | @unnumbered enclosing s _ _ n cs _ _ st st' _ tag restrict notNumbered hsettles _ below
      behind =>
    have hnode : numberNode o enclosing (Node.clearAnchor
        { n with tag := .block st', children := cs }) t = _ :=
      numberNode_clearAnchor (restrict_of_settles hsettles restrict) notNumbered
    refine Reruns.parent (fun cs => Node.clearAnchor { n with tag := .block st', children := cs })
      (below ht) behind hnode ?_ fun cs => ?_
    · rw [landmark?_unnumbered tag restrict notNumbered]
      rfl
    · exact snd_resolveNode_of_ne (by simp [Node.clearAnchor])
  | place fresh tag _ behind =>
    exact (behind ht).leaf (numberNode_place tag) rfl
      (landmark?_of_ne (by simp [tag]) (by simp [tag])) (fresh.children_eq_nil (.inr tag))
  | @label enclosing _ _ n _ _ fresh tag _ behind =>
    exact (behind (ht.recordLabel enclosing n)).leaf (numberNode_label tag)
      (Numbering.counters_recordLabel ..) (landmark?_of_ne (by simp [tag]) (by simp [tag]))
      (fresh.children_eq_nil (.inl tag))
  | reference fresh tag _ behind =>
    exact (behind ht).leaf (numberNode_resolvedReference tag _) rfl
      (landmark?_of_ne (by simp [tag]) (by simp [tag])) (fresh.leaf (by rw [tag]; rfl))
  | @«section» enclosing _ _ _ n before _ _ _ tag titles _ _ below behind =>
    have hbelow := below ht
    have hnode : numberNode o enclosing
        (n.settledSection before (resolveNodes labels fileId before).1) t = _ :=
      numberNode_section (by simp [tag])
    refine (behind hbelow.agrees).cons hnode ?_ ?_ ?_
    · rw [landmarks_cons_of_none (landmark?_of_ne (by simp [tag]) (by simp [tag])), landmarks_nil,
        List.append_nil]
      exact hbelow.counters
    · rw [snd_resolveNode_of_ne (by simp [tag]), snd_resolveNode_of_ne (by simp [tag]),
        Node.children_refreshSection]
      exact hbelow.issues
    · -- the section is described again, by a heading that has the title it had
      intro htitles
      rw [Node.children_settledSection, hbelow.same htitles]
      refine Eq.trans (congrArg Node.refreshSection ?_)
        (refreshSection_settledSection (titles.keepsTitle htitles))
      exact Node.eta (n.settledSection before _)
  | @plain enclosing _ _ _ n cs _ _ _ tag notReference _ _ below behind =>
    have hnode : numberNode o enclosing { n with children := cs } t = _ := numberNode_plain tag
    refine Reruns.parent (fun cs => { n with children := cs }) (below ht) behind hnode ?_ fun cs => ?_
    · rw [landmark?_plain tag]
      rfl
    · exact snd_resolveNode_of_ne notReference

end Rerun

/-! ## References that are resolved -/

theorem resolveReference_twice (labels : Dict Target) (fileId : Nat) (n : Node) :
    resolveReference labels fileId (resolveReference labels fileId n).1 =
      resolveReference labels fileId n := by
  have hspan : (numberSpan (labels.get? n.key)).hasRole .referenceNumber = true := by
    rw [Node.hasRole, tag_numberSpan]
    rfl
  have hchildren : (n.children.filter (!·.hasRole .referenceNumber) ++
      [numberSpan (labels.get? n.key)]).filter (!·.hasRole .referenceNumber) =
        n.children.filter (!·.hasRole .referenceNumber) := by
    simp [hspan]
  show (({ n with children := (n.children.filter (!·.hasRole .referenceNumber) ++
      [numberSpan (labels.get? n.key)]).filter (!·.hasRole .referenceNumber) ++
        [numberSpan (labels.get? n.key)] } : Node), _) = _
  rw [hchildren]
  rfl

/-- Resolving references that are resolved changes nothing and gives the same issues. -/
theorem resolveNodes_twice (labels : Dict Target) (fileId : Nat) (ns : List Node) :
    resolveNodes labels fileId (resolveNodes labels fileId ns).1 =
      resolveNodes labels fileId ns := by
  induction ns using Node.forest_induction with
  | nil => rfl
  | cons n ns below behind =>
    have hnode : resolveNode labels fileId (resolveNode labels fileId n).1 =
        resolveNode labels fileId n := by
      by_cases h : n.tag = .reference
      · rw [resolveNode_reference (n := (resolveNode labels fileId n).1) (by simp [h]),
          resolveNode_reference h, resolveReference_twice]
      · rw [resolveNode_of_ne (n := (resolveNode labels fileId n).1) (by simp [h]),
          children_resolveNode_of_ne h, below, resolveNode_of_ne h]
    rw [resolveNodes_cons ns, resolveNodes_cons, hnode, behind]

/-! ## Titles in the table of contents -/

theorem Numbering.Agrees.given_eq {o : NumberingOptions} {t s : Numbering} (h : t.Agrees s)
    (ls : List Landmark) : given o t ls = given o s ls := by
  induction ls generalizing t s with
  | nil => rfl
  | cons l ls ih =>
    cases l with
    | heading level title =>
      rw [given, given, ih (h.pass_heading level title title), give, give, h.components]
    | statement kind =>
      rw [given, given, ih (h.pass_statement kind), give, give, h.statementComponents_eq]

/-- Only headings have titles. -/
theorem landmark?_congr {o : NumberingOptions} {title title' : Node → String} {n : Node}
    (h : n.headingLevel?.isSome = true → title n = title' n) :
    n.landmark? o title = n.landmark? o title' := by
  cases htag : n.tag with
  | heading level =>
    rw [landmark?_heading htag, landmark?_heading htag, h (Node.isSome_headingLevel?.2 ⟨_, htag⟩)]
  | _ => simp only [Node.landmark?, htag]

/-- The number of a heading does not depend on what the titles are. -/
theorem section_mem_given (o : NumberingOptions) (s : Numbering) {h : Node} {ds : List Node}
    (hmem : h ∈ ds) (hheading : h.headingLevel?.isSome = true) :
    ∃ cs, ∀ title, .section cs (title h) ∈
      Numbering.given o s (ds.filterMap (Node.landmark? o title)) := by
  obtain ⟨level, htag⟩ := Node.isSome_headingLevel?.1 hheading
  induction ds generalizing s with
  | nil => simp at hmem
  | cons d ds ih =>
    by_cases hd : h = d
    · subst hd
      refine ⟨Numbering.nextComponents s.components level, fun title => ?_⟩
      rw [List.filterMap_cons_some (landmark?_heading htag), Numbering.given]
      exact List.mem_cons_self
    · -- whatever title the first heading has, the numbers behind it are the same
      have hmem : h ∈ ds := (List.mem_cons.1 hmem).resolve_left hd
      have hlandmark : (∃ level, d.tag = .heading level) ∨
          ∃ l, ∀ title, d.landmark? o title = l := by
        unfold Node.landmark?
        cases d.tag with
        | heading level => exact .inl ⟨level, rfl⟩
        | _ => exact .inr ⟨_, fun _ => rfl⟩
      rcases hlandmark with ⟨level', htag'⟩ | ⟨l, hl⟩
      · obtain ⟨cs, hcs⟩ := ih (s.pass o (.heading level' "")) hmem
        refine ⟨cs, fun title => ?_⟩
        have hagrees : (s.pass o (.heading level' (title d))).Agrees
            (s.pass o (.heading level' "")) :=
          Numbering.Agrees.pass_heading ⟨rfl, rfl, rfl⟩ level' _ _
        rw [List.filterMap_cons_some (landmark?_heading htag'), Numbering.given,
          hagrees.given_eq]
        exact List.mem_cons_of_mem _ (hcs title)
      · cases l with
        | none =>
          obtain ⟨cs, hcs⟩ := ih s hmem
          refine ⟨cs, fun title => ?_⟩
          rw [List.filterMap_cons_none (hl title)]
          exact hcs title
        | some l =>
          obtain ⟨cs, hcs⟩ := ih (s.pass o l) hmem
          refine ⟨cs, fun title => ?_⟩
          rw [List.filterMap_cons_some (hl title), Numbering.given]
          exact List.mem_cons_of_mem _ (hcs title)

/-- The table of contents has the title of every heading. -/
theorem titles_eq_of_contents_eq {o : NumberingOptions} {s : Numbering} {ns : List Node}
    {title title' : Node → String}
    (h : ((landmarks o title ns).foldl (Numbering.pass o) s).contents =
      ((landmarks o title' ns).foldl (Numbering.pass o) s).contents)
    {n : Node} (hn : n ∈ descendantsOf ns) (hheading : n.headingLevel?.isSome = true) :
    title n = title' n := by
  obtain ⟨cs, hcs⟩ := section_mem_given o s hn hheading
  rw [Numbering.contents_foldl_pass, Numbering.contents_foldl_pass] at h
  have htitle := Contents.titleAt?_foldl_note (hcs title) s.contents
  have htitle' := Contents.titleAt?_foldl_note (hcs title') s.contents
  unfold landmarks at h
  rw [h] at htitle
  exact Option.some.inj (htitle.symm.trans htitle')

/-! ## Documents -/

section Document

variable (o : NumberingOptions) (fileId : Nat) {root : Node} (hfresh : AllOf Fresh [root])

include hfresh

/-- The second run over a document. -/
theorem reruns_resolve :
    Reruns o (resolve o fileId root).labels fileId [] root.children
      (resolve o fileId root).root.children (numberDocument o root).2 (.initial o) :=
  reruns_of_settles (settles_resolve o fileId hfresh) ⟨rfl, rfl, rfl⟩

theorem labels_resolve_resolve :
    (resolve o fileId (resolve o fileId root).root).labels = (resolve o fileId root).labels :=
  (reruns_resolve o fileId hfresh).agrees.labels

theorem issues_resolve_resolve :
    (resolve o fileId (resolve o fileId root).root).issues = (resolve o fileId root).issues := by
  have hissues := (reruns_resolve o fileId hfresh).issues
  have htwice := resolveNodes_twice (resolve o fileId root).labels fileId
    (numberDocument o root).1.children
  rw [show (resolve o fileId (resolve o fileId root).root).issues =
      (resolveNodes (resolve o fileId (resolve o fileId root).root).labels fileId
        (numberNodes o [] (resolve o fileId root).root.children (.initial o)).1).2 from rfl,
    labels_resolve_resolve o fileId hfresh, hissues]
  exact congrArg Prod.snd htwice

theorem contents_resolve_resolve :
    (resolve o fileId (resolve o fileId root).root).contents =
      ((landmarks o (resolvedTitle (resolve o fileId root).labels fileId) root.children).foldl
        (Numbering.pass o) (.initial o)).contents := by
  have hcounters := (reruns_resolve o fileId hfresh).counters
  show (numberNodes o [] (resolve o fileId root).root.children (.initial o)).2.counters.contents = _
  rw [hcounters]
  rfl

/-- The second run changes nothing if every heading keeps its title, and otherwise it changes the
table of contents. -/
theorem resolve_resolve_iff_keepsTitle :
    ((resolve o fileId (resolve o fileId root).root).root = (resolve o fileId root).root ∧
      (resolve o fileId (resolve o fileId root).root).contents =
        (resolve o fileId root).contents) ↔
      AllOf (KeepsTitle (resolve o fileId root).labels fileId) root.children := by
  constructor
  · -- the table of contents alone tells a title that has changed
    rintro ⟨-, hcontents⟩ n hn hheading
    rw [contents_resolve o fileId hfresh, contents_resolve_resolve o fileId hfresh] at hcontents
    exact titles_eq_of_contents_eq hcontents hn hheading
  · intro htitles
    constructor
    · have hsame := (reruns_resolve o fileId hfresh).same htitles
      have htwice := resolveNodes_twice (resolve o fileId root).labels fileId
        (numberDocument o root).1.children
      rw [show (resolve o fileId (resolve o fileId root).root).root =
          { (resolve o fileId root).root with
            children :=
              (resolveNodes (resolve o fileId (resolve o fileId root).root).labels fileId
                (numberNodes o [] (resolve o fileId root).root.children (.initial o)).1).1 }
          from rfl, labels_resolve_resolve o fileId hfresh, hsame]
      have hchildren : (resolveNodes (resolve o fileId root).labels fileId
          (resolve o fileId root).root.children).1 = (resolve o fileId root).root.children :=
        congrArg Prod.fst htwice
      rw [hchildren, Node.eta]
    · rw [contents_resolve o fileId hfresh, contents_resolve_resolve o fileId hfresh]
      have hlandmarks : landmarks o (resolvedTitle (resolve o fileId root).labels fileId)
          root.children = landmarks o Node.headingTitle root.children :=
        List.filterMap_congr fun n hn => landmark?_congr (htitles n hn)
      rw [hlandmarks]

end Document

/-- A reference shows nothing if its label is known and has an empty number. -/
theorem text_numberSpan_eq_empty_iff {target : Option Target} :
    (numberSpan target).text = "" ↔ ∃ t, target = some t ∧ t.number = "" := by
  cases target with
  | none => exact ⟨fun h => absurd h (by decide), fun ⟨t, h, _⟩ => by cases h⟩
  | some t => exact ⟨fun h => ⟨t, rfl, h⟩, fun ⟨t', h, hnumber⟩ => by cases h; exact hnumber⟩

/-- A second run over the tree of a source returns the same labels and the same issues. It leaves
the tree and the table of contents as they are if, and only if, no reference in a heading shows
anything: its label has to be known and to have an empty number, as a label has that stands before
the first heading where statements are numbered through. -/
theorem resolve_resolve (source : List Char) (fileId : Nat) (sections : Bool)
    (o : NumberingOptions) :
    let tree := (Document.parse source fileId).tree sections
    let first := resolve o fileId tree
    let second := resolve o fileId first.root
    second.labels = first.labels ∧ second.issues = first.issues ∧
      ((second.root = first.root ∧ second.contents = first.contents) ↔
        ∀ heading ∈ tree.descendants, heading.headingLevel?.isSome = true →
          ∀ n ∈ heading.descendants, n.tag = .reference →
            ∃ t, first.labels.get? n.key = some t ∧ t.number = "") := by
  intro tree first second
  have hfresh : AllOf Fresh [tree] := fresh_tree source fileId sections
  have hlabels : ∀ key t, first.labels.get? key = some t → t.IsDotted :=
    isDotted_of_numbers (numbers_numberNodes o [] tree.children (.initial o)) (by simp)
      (by intro key t h; cases h)
  refine ⟨labels_resolve_resolve o fileId hfresh, issues_resolve_resolve o fileId hfresh,
    (resolve_resolve_iff_keepsTitle o fileId hfresh).trans ?_⟩
  have hchildren : AllOf Fresh tree.children := ((Node.allOf_cons _ _).1 hfresh).2.1
  rw [Node.descendants_eq]
  refine forall₂_congr fun n hn => imp_congr_right fun hheading => ?_
  obtain ⟨level, htag⟩ := Node.isSome_headingLevel?.1 hheading
  rw [resolvedTitle, headingTitle_resolveNode_iff _ fileId hlabels (hchildren n hn)
    (hchildren.children hn) htag]
  simp only [text_numberSpan_eq_empty_iff]

end Treatise
