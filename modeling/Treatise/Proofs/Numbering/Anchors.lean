import Treatise.Proofs.Numbering.Keeps
import Treatise.Proofs.Numbering.Rerun
import Treatise.Proofs.Numbering.Statements

/-!
# Anchors over several runs

A document may be numbered again, with other options. A run takes the number of a statement away, if
by its options only those get one that have a label; no run gives it back.

* **`Node.Steady`** — a node as every run finds it and leaves it: `steady_resolve`.
* **`RunsTo`** — what one run makes of a statement, whatever the tree was before
  (`runsAs_of_numbers`), and **`RunsToAll`** — what many runs make of it.
* **`id_after_runs`** — after any runs the number of a statement, its anchor and what its heading
  shows agree. Its `id` stays when a later run takes the number away; so the statements with an `id`
  are those that took a number in the first run.
-/

namespace Treatise

open Node (Fresh AllOf Framed descendantsOf holdLabel)

/-! ## What a run expects of a tree -/

namespace Node

/-- The node begins with the heading of a statement, in which there is one place for the number. -/
def HasPlace (n : Node) : Prop :=
  ∃ heading rest place, n.children = heading :: rest ∧ heading.tag = .span .blockHeading ∧
    heading.children.filter (·.hasRole .blockNumber) = [place]

/-- A node as every run finds it and leaves it. -/
structure Steady (n : Node) : Prop where
  leaf : n.tag = .label ∨ n.tag = .span .blockNumber → n.children = []
  reference : n.tag = .reference →
    ∀ c ∈ n.children, c.tag = .span .referenceNumber ∧ c.children = []
  place : ∀ st, n.tag = .block st → st.kind.isProof = false → n.HasPlace
  proof : ∀ st, n.tag = .block st → st.kind.isProof = true → st.numbered = false

/-- A node of a kind of which nothing is asked. -/
theorem Steady.of_tag {n : Node} (hlabel : n.tag ≠ .label) (hplace : n.tag ≠ .span .blockNumber)
    (hreference : n.tag ≠ .reference) (hblock : ∀ st, n.tag ≠ .block st) : Steady n :=
  ⟨fun h => h.elim (absurd · hlabel) (absurd · hplace), fun h => absurd h hreference,
    fun st h => absurd h (hblock st), fun st h => absurd h (hblock st)⟩

/-- What is asked of a node that is no statement does not depend on its attributes and words. -/
theorem Steady.congr {n m : Node} (h : Steady n) (htag : m.tag = n.tag)
    (hblock : ∀ st, n.tag ≠ .block st) (hreference : n.tag ≠ .reference)
    (hnil : n.children = [] → m.children = []) : Steady m := by
  refine ⟨fun hleaf => hnil (h.leaf (htag ▸ hleaf)), ?_, ?_, ?_⟩
  · exact fun href => absurd (htag ▸ href) hreference
  · exact fun st hst => absurd (htag ▸ hst) (hblock st)
  · exact fun st hst => absurd (htag ▸ hst) (hblock st)

theorem hasPlace_of_beginsWith {n : Node} {st : Statement} (h : n.BeginsWith st.heading)
    (hproof : st.kind.isProof = false) : n.HasPlace := by
  obtain ⟨tail, rest, hchildren⟩ := h
  refine ⟨_, rest, Node.span .blockNumber, hchildren, rfl, ?_⟩
  show st.headingParts.filter _ = _
  rw [st.filter_headingParts, hproof]
  rfl

/-- A document that was read is as every run finds it. -/
theorem steady_of_fresh {ns : List Node} (hfresh : AllOf Fresh ns) (hframed : AllOf Framed ns) :
    AllOf Steady ns := by
  intro n hn
  have hnfresh := hfresh n hn
  have hnframed := hframed n hn
  refine ⟨hnfresh.children_eq_nil, fun href c hc => ?_, fun st hst hproof => ?_, hnframed.proof⟩
  · rw [hnfresh.leaf (by rw [href]; rfl)] at hc
    exact absurd hc List.not_mem_nil
  · exact hasPlace_of_beginsWith (hnframed.begins st hst) hproof

end Node

open Node (Steady HasPlace)

/-! ## Headings -/

section Heading

variable {labels : Dict Target} {fileId : Nat} (number : String)

/-- The number in front of a heading is nothing that `p` looks for. -/
theorem filter_setSectionNumber {p : Node → Bool}
    (hp : ∀ m : Node, m.tag = .span .sectionNumber → p m = false) (n : Node) :
    (descendantsOf (n.setSectionNumber number).children).filter p =
      (descendantsOf n.children).filter p := by
  unfold Node.setSectionNumber
  split
  · show (descendantsOf (Node.modifyFirst _ _ n.children)).filter p = _
    induction n.children with
    | nil => rfl
    | cons c cs ih =>
      by_cases hc : c.hasRole .sectionNumber = true
      · have htag : c.tag = .span .sectionNumber := by simpa [Node.hasRole] using hc
        have hmark : p (Node.markSection number c) = false := hp _ htag
        rw [Node.modifyFirst, if_pos hc, Node.descendantsOf_cons, Node.descendantsOf_cons,
          List.filter_cons_of_neg (by simp [hmark]), List.filter_cons_of_neg (by simp [hp c htag])]
        rfl
      · rw [Node.modifyFirst, if_neg hc]
        simp only [Node.descendantsOf_cons, List.filter_cons, List.filter_append, ih]
  · show (descendantsOf (_ :: n.children)).filter p = _
    rw [Node.descendantsOf_cons, List.filter_cons_of_neg]
    · rfl
    · rw [hp _ rfl]
      exact Bool.false_ne_true

theorem allOf_setSectionNumber {p : Node → Prop}
    (hp : ∀ m : Node, m.tag = .span .sectionNumber → p m) {n : Node} (h : AllOf p n.children) :
    AllOf p (n.setSectionNumber number).children := by
  unfold Node.setSectionNumber
  split
  · revert h
    show AllOf _ n.children → AllOf _ (Node.modifyFirst _ _ n.children)
    induction n.children with
    | nil => exact id
    | cons c cs ih =>
      intro h
      obtain ⟨hc, hbelow, hcs⟩ := (Node.allOf_cons _ _).1 h
      unfold Node.modifyFirst
      split
      · next hrole =>
        have htag : c.tag = .span .sectionNumber := by simpa [Node.hasRole] using hrole
        exact (Node.allOf_cons _ _).2 ⟨hp _ htag, hbelow, hcs⟩
      · exact (Node.allOf_cons _ _).2 ⟨hc, hbelow, ih hcs⟩
  · exact (Node.allOf_cons _ _).2 ⟨hp _ rfl, Node.allOf_nil, h⟩

theorem resolveNodes_modifyFirst (cs : List Node) :
    (resolveNodes labels fileId
        (Node.modifyFirst (·.hasRole .sectionNumber) (Node.markSection number) cs)).1 =
      Node.modifyFirst (·.hasRole .sectionNumber) (Node.markSection number)
        (resolveNodes labels fileId cs).1 := by
  have hrole : ∀ c : Node, (resolveNode labels fileId c).1.hasRole .sectionNumber =
      c.hasRole .sectionNumber := by
    intro c
    rw [Node.hasRole, Node.hasRole, tag_resolveNode]
  induction cs with
  | nil => rfl
  | cons c cs ih =>
    by_cases hc : c.hasRole .sectionNumber = true
    · have htag : c.tag ≠ .reference := by
        rw [show c.tag = .span .sectionNumber by simpa [Node.hasRole] using hc]
        simp
      rw [Node.modifyFirst, if_pos hc, resolveNodes_cons, resolveNodes_cons, Node.modifyFirst,
        if_pos (by rw [hrole, hc]), resolveNode_of_ne htag,
        resolveNode_of_ne (n := Node.markSection number c) htag]
      rfl
    · rw [Node.modifyFirst, if_neg hc, resolveNodes_cons, resolveNodes_cons, Node.modifyFirst,
        if_neg (by rwa [hrole]), ih]

/-- It makes no difference whether a heading gets its number before its references are resolved or
afterwards. -/
theorem resolveNode_setSectionNumber {n : Node} (h : n.tag ≠ .reference) :
    (resolveNode labels fileId (n.setSectionNumber number)).1 =
      (resolveNode labels fileId n).1.setSectionNumber number := by
  have hany : (resolveNodes labels fileId n.children).1.any (·.hasRole .sectionNumber) =
      n.children.any (·.hasRole .sectionNumber) := by
    rw [fst_resolveNodes, List.any_map]
    refine congrArg (n.children.any ·) (funext fun c => ?_)
    rw [Function.comp_apply, Node.hasRole, Node.hasRole, tag_resolveNode]
  rw [resolveNode_of_ne (by rwa [tag_setSectionNumber]), resolveNode_of_ne h]
  unfold Node.setSectionNumber
  simp only [hany]
  split
  · simp only [resolveNodes_modifyFirst]
  · rfl

end Heading

/-! ## What a run makes of a statement -/

/-- The statements among nodes and below these, in document order. -/
def Node.statementsOf (ns : List Node) : List Node := (descendantsOf ns).filter (·.isStatement)

section StatementsOf

variable {n : Node}

theorem statementsOf_cons_of_pos (h : n.isStatement = true) (ns : List Node) :
    Node.statementsOf (n :: ns) =
      n :: (Node.statementsOf n.children ++ Node.statementsOf ns) := by
  rw [Node.statementsOf, Node.descendantsOf_cons, List.filter_cons_of_pos h, List.filter_append]
  rfl

theorem statementsOf_cons_of_neg (h : n.isStatement = false) (ns : List Node) :
    Node.statementsOf (n :: ns) = Node.statementsOf n.children ++ Node.statementsOf ns := by
  rw [Node.statementsOf, Node.descendantsOf_cons, List.filter_cons_of_neg (by simp [h]),
    List.filter_append]
  rfl

theorem tag_ne_label_of_isStatement (h : n.isStatement = true) : (n.tag == .label) = false := by
  rw [beq_eq_false_iff_ne]
  intro htag
  rw [isStatement_of_ne (by simp [htag])] at h
  exact Bool.false_ne_true h

end StatementsOf

/-- The statement has its number as `id`, and its heading shows this number. -/
def Node.ShowsAnchor (n : Node) : Prop :=
  ∃ heading rest number, n.children = heading :: rest ∧ heading.hasRole .blockHeading = true ∧
    heading.shownNumbers = [number] ∧ n.attr? "id" = some number

/-- What a run makes of a statement. -/
structure RunsTo (o : NumberingOptions) (n m : Node) : Prop where
  isNumbered : m.isNumbered = n.takesNumber o
  labels : holdLabel m.children = holdLabel n.children
  anchor : m.flags.anchor = m.isNumbered
  shows : m.isNumbered = true → m.ShowsAnchor
  /-- A statement that takes no number keeps the `id` that it has. -/
  id : m.isNumbered = false → m.attr? "id" = n.attr? "id"

/-- What a run makes of nodes. -/
structure RunsAs (o : NumberingOptions) (ns ms : List Node) : Prop where
  steady : AllOf Steady ms
  labels : holdLabel ms = holdLabel ns
  statements : List.Forall₂ (RunsTo o) (Node.statementsOf ns) (Node.statementsOf ms)

section RunsAs

variable {o : NumberingOptions} {n m : Node} {ns ms : List Node}

theorem RunsAs.nil : RunsAs o [] [] := ⟨Node.allOf_nil, rfl, .nil⟩

theorem RunsAs.cons (hn : n.isStatement = false) (hm : m.isStatement = false)
    (hlabel : (m.tag == .label) = (n.tag == .label)) (hsteady : Steady m)
    (below : RunsAs o n.children m.children) (behind : RunsAs o ns ms) :
    RunsAs o (n :: ns) (m :: ms) where
  steady := (Node.allOf_cons m ms).2 ⟨hsteady, below.steady, behind.steady⟩
  labels := by rw [holdLabel_cons, holdLabel_cons, hlabel, below.labels, behind.labels]
  statements := by
    rw [statementsOf_cons_of_neg hn, statementsOf_cons_of_neg hm]
    exact List.rel_append below.statements behind.statements

theorem RunsAs.cons_statement (hn : n.isStatement = true) (hm : m.isStatement = true)
    (hsteady : Steady m) (hrun : RunsTo o n m) (below : RunsAs o n.children m.children)
    (behind : RunsAs o ns ms) : RunsAs o (n :: ns) (m :: ms) where
  steady := (Node.allOf_cons m ms).2 ⟨hsteady, below.steady, behind.steady⟩
  labels := by
    rw [holdLabel_cons, holdLabel_cons, tag_ne_label_of_isStatement hn,
      tag_ne_label_of_isStatement hm, below.labels, behind.labels]
  statements := by
    rw [statementsOf_cons_of_pos hn, statementsOf_cons_of_pos hm]
    exact .cons hrun (List.rel_append below.statements behind.statements)

/-- Numbers of references hold neither labels nor statements. -/
theorem RunsAs.of_leaves (hns : ∀ c ∈ ns, c.tag = .span .referenceNumber ∧ c.children = [])
    (hms : ∀ c ∈ ms, c.tag = .span .referenceNumber ∧ c.children = []) : RunsAs o ns ms := by
  have hall : ∀ ks : List Node, (∀ c ∈ ks, c.tag = .span .referenceNumber ∧ c.children = []) →
      AllOf (·.tag = .span .referenceNumber) ks := by
    intro ks hks
    induction ks with
    | nil => exact Node.allOf_nil
    | cons k ks ih =>
      obtain ⟨⟨htag, hnil⟩, hks⟩ := List.forall_mem_cons.1 hks
      exact (Node.allOf_cons _ _).2 ⟨htag, by rw [hnil]; exact Node.allOf_nil, ih hks⟩
  have hlabel : ∀ ks, AllOf (·.tag = .span .referenceNumber) ks → holdLabel ks = false := by
    intro ks hks
    rw [holdLabel, List.any_eq_false]
    intro k hk
    simp [hks k hk]
  have hnone : ∀ ks, AllOf (·.tag = .span .referenceNumber) ks → Node.statementsOf ks = [] := by
    intro ks hks
    rw [Node.statementsOf, List.filter_eq_nil_iff]
    intro k hk
    simp [isStatement_of_ne (n := k) (by simp [hks k hk])]
  refine ⟨fun k hk => ?_, ?_, ?_⟩
  · have htag := hall ms hms k hk
    exact .of_tag (by simp [htag]) (by simp [htag]) (by simp [htag]) (by simp [htag])
  · rw [hlabel _ (hall ms hms), hlabel _ (hall ns hns)]
  · rw [hnone _ (hall ns hns), hnone _ (hall ms hms)]
    exact .nil

/-- The number of a heading is no part of what counts here. -/
theorem RunsAs.setSectionNumber (h : RunsAs o ns m.children) (number : String) :
    RunsAs o ns (m.setSectionNumber number).children where
  steady := allOf_setSectionNumber number
    (fun k hk => .of_tag (by simp [hk]) (by simp [hk]) (by simp [hk]) (by simp [hk])) h.steady
  labels := by
    have hfilter := filter_setSectionNumber number (p := (·.tag == .label)) (by simp +contextual) m
    have hany : ∀ ks : List Node, holdLabel ks =
        ((descendantsOf ks).filter (·.tag == .label)).any fun _ => true := by
      intro ks
      rw [List.any_filter, holdLabel]
      simp
    rw [hany, hfilter, ← hany, h.labels]
  statements := by
    have hfilter : Node.statementsOf (m.setSectionNumber number).children =
        Node.statementsOf m.children :=
      filter_setSectionNumber number (fun k hk => isStatement_of_ne (by simp [hk])) m
    rw [hfilter]
    exact h.statements

end RunsAs

/-! ## One run -/

section Run

variable {o : NumberingOptions} {labels : Dict Target} {fileId : Nat}
  {enclosing : List (Option Target)} {s s' : Numbering} {n : Node} {cs ns ms : List Node}

/-- The places for numbers among nodes show the number of the innermost statement around. -/
theorem places_of_numbers (h : Numbers o enclosing s ns ms s') (hns : AllOf Steady ns) :
    (resolveNodes labels fileId ms).1.filter (·.hasRole .blockNumber) =
      (ns.filter (·.hasRole .blockNumber)).map (·.setText (shownNumber enclosing)) := by
  -- any other node is no place, and is none behind the walks
  have hskip {n m : Node} {ns ms : List Node} {t : String} (hn : n.tag ≠ .span .blockNumber)
      (hm : m.tag = n.tag ∨ ∃ st, m.tag = .block st)
      (ih : (resolveNodes labels fileId ms).1.filter (·.hasRole .blockNumber) =
        (ns.filter (·.hasRole .blockNumber)).map (·.setText t)) :
      (resolveNodes labels fileId (m :: ms)).1.filter (·.hasRole .blockNumber) =
        ((n :: ns).filter (·.hasRole .blockNumber)).map (·.setText t) := by
    have hm : (resolveNode labels fileId m).1.hasRole .blockNumber = false := by
      rw [Node.hasRole, tag_resolveNode]
      rcases hm with hm | ⟨st, hm⟩ <;> simp [hm, hn]
    rw [resolveNodes_cons, List.filter_cons_of_neg (by simp [hm]),
      List.filter_cons_of_neg (by simpa [Node.hasRole] using hn), ih]
  induction h with
  | nil => rfl
  | heading tag _ _ _ behind =>
    exact hskip (by simp [tag]) (.inl (tag_setSectionNumber _ _))
      (behind ((Node.allOf_cons _ _).1 hns).2.2)
  | numbered tag _ _ _ _ _ behind | unnumbered tag _ _ _ _ _ behind =>
    exact hskip (by simp [tag]) (.inr ⟨_, rfl⟩) (behind ((Node.allOf_cons _ _).1 hns).2.2)
  | @place enclosing _ _ n _ _ tag _ behind =>
    obtain ⟨hn, -, hns⟩ := (Node.allOf_cons _ _).1 hns
    have hresolved : (resolveNode labels fileId (n.setText (shownNumber enclosing))).1 =
        n.setText (shownNumber enclosing) :=
      resolveNode_of_children_nil (by simp [Node.setText, tag]) (hn.leaf (.inr tag))
    have hrole : n.hasRole .blockNumber = true := by simp [Node.hasRole, tag]
    rw [resolveNodes_cons, hresolved, List.filter_cons_of_pos (by exact hrole),
      List.filter_cons_of_pos (by exact hrole), List.map_cons, behind hns]
  | label tag _ behind =>
    exact hskip (by simp [tag]) (.inl rfl) (behind ((Node.allOf_cons _ _).1 hns).2.2)
  | «section» tag _ _ _ behind =>
    exact hskip (by simp [tag]) (.inl (Node.tag_refreshSection _))
      (behind ((Node.allOf_cons _ _).1 hns).2.2)
  | @plain _ _ _ _ n _ _ _ tag _ _ _ behind =>
    have hne : n.tag ≠ .span .blockNumber := by
      intro htag
      rw [htag] at tag
      exact Bool.false_ne_true tag
    exact hskip hne (.inl rfl) (behind ((Node.allOf_cons _ _).1 hns).2.2)

/-- A statement keeps its heading, in which the place shows the number of the statement. -/
theorem exists_heading_of_numbers (hn : n.HasPlace) (h : Numbers o enclosing s n.children cs s')
    (hbelow : AllOf Steady n.children) :
    ∃ heading rest place, (resolveNodes labels fileId cs).1 = heading :: rest ∧
      heading.tag = .span .blockHeading ∧
      heading.children.filter (·.hasRole .blockNumber) = [place] ∧
      heading.shownNumbers = [shownNumber enclosing] := by
  obtain ⟨heading, rest, place, hchildren, htag, hplace⟩ := hn
  rw [hchildren] at h hbelow
  obtain ⟨-, hinside, -⟩ := (Node.allOf_cons _ _).1 hbelow
  have hmem : place ∈ heading.children.filter (·.hasRole .blockNumber) := by simp [hplace]
  obtain ⟨hmem, hrole⟩ := List.mem_filter.1 hmem
  have hempty : place.children = [] :=
    (hinside place (Node.mem_descendantsOf_of_mem hmem)).leaf
      (.inr (by simpa [Node.hasRole] using hrole))
  -- the heading of a statement is a plain node, so only what is in it changes
  cases h with
  | @plain _ _ _ _ _ hs _ rs _ below behind =>
    have hplaces : (resolveNodes labels fileId hs).1.filter (·.hasRole .blockNumber) =
        [place.setText (shownNumber enclosing)] := by
      rw [places_of_numbers below hinside, hplace]
      rfl
    refine ⟨{ heading with children := (resolveNodes labels fileId hs).1 },
      (resolveNodes labels fileId rs).1, place.setText (shownNumber enclosing), ?_, htag, hplaces, ?_⟩
    · rw [resolveNodes_cons, resolveNode_of_ne (n := { heading with children := hs }) (by simp [htag])]
    · rw [Node.shownNumbers]
      show ((resolveNodes labels fileId hs).1.filter _).map _ = _
      rw [hplaces, List.map_cons, List.map_nil, Node.textContent_eq]
      show [shownNumber enclosing ++ Node.textContentOf place.children] = _
      rw [hempty, Node.textContentOf, String.append_empty]
  | heading tag => simp [htag] at tag
  | numbered tag => simp [htag] at tag
  | unnumbered tag => simp [htag] at tag
  | place tag => exact absurd (htag.symm.trans tag) (by decide)
  | label tag => simp [htag] at tag
  | «section» tag => simp [htag] at tag

/-- Numbers of references are left as they are. -/
theorem eq_of_numbers_leaves (h : Numbers o enclosing s ns ms s')
    (hns : ∀ c ∈ ns, c.tag = .span .referenceNumber ∧ c.children = []) : ms = ns := by
  induction h with
  | nil => rfl
  | plain _ below _ _ behind =>
    obtain ⟨⟨-, hnil⟩, hns⟩ := List.forall_mem_cons.1 hns
    rw [hnil] at below
    cases below
    rw [behind hns, ← hnil, Node.eta]
  | _ => simp_all

/-- A reference shows one number only. -/
theorem resolveNode_of_steady (href : n.tag = .reference) (hn : Steady n)
    (h : Numbers o enclosing s n.children cs s') :
    (resolveNode labels fileId { n with children := cs }).1 =
      { n with children := [numberSpan (labels.get? n.key)] } := by
  have hcs : cs = n.children := eq_of_numbers_leaves h (hn.reference href)
  have hnone : n.children.filter (!·.hasRole .referenceNumber) = [] := by
    rw [List.filter_eq_nil_iff]
    intro c hc
    simp [Node.hasRole, (hn.reference href c hc).1]
  rw [hcs, Node.eta, resolveNode_reference href, resolveReference, hnone]
  rfl

/-- What a run makes of a statement with the nodes below it: `m` is the statement with its new
description and `target` what it took, if it took a number. -/
theorem RunsTo.of_numbers {m : Node} {st st' : Statement} {target : Option Target}
    (hn : Steady n) (hbelow : AllOf Steady n.children) (tag : n.tag = .block st)
    (restrict : st.restrict o (holdLabel n.children) = st') (hm : m.tag = .block st')
    (hchildren : m.children = (resolveNodes labels fileId cs).1)
    (hcs : Numbers o (target :: enclosing) s n.children cs s')
    (below : RunsAs o n.children (resolveNodes labels fileId cs).1)
    (hanchor : m.flags.anchor = st'.numbered)
    (htarget : st'.numbered = true → ∃ t, target = some t ∧ m.attr? "id" = some t.number)
    (hid : st'.numbered = false → m.attr? "id" = n.attr? "id") :
    RunsTo o n m ∧ Steady m := by
  rw [restrict_eq tag] at restrict
  have hnumbered : m.isNumbered = st'.numbered := isNumbered_of_block hm
  have htakes : st'.numbered = n.takesNumber o := by rw [← restrict]
  have hkind : st'.kind = st.kind := by rw [← restrict]
  -- a proof takes no number, and any other statement shows in its place what it takes
  have hproof : st.kind.isProof = true → st'.numbered = false := by
    intro hproof
    rw [htakes, takesNumber_of_block tag, hn.proof st tag hproof, Bool.false_and]
  have hplace : st.kind.isProof = false → ∃ heading rest place, m.children = heading :: rest ∧
      heading.tag = .span .blockHeading ∧ heading.children.filter (·.hasRole .blockNumber) = [place] ∧
      heading.shownNumbers = [shownNumber (target :: enclosing)] := by
    intro hproof
    rw [hchildren]
    exact exists_heading_of_numbers (hn.place st tag hproof) hcs hbelow
  refine ⟨⟨hnumbered.trans htakes, by rw [hchildren, below.labels], by rw [hanchor, hnumbered], ?_,
    fun h => hid (hnumbered ▸ h)⟩, ?_⟩
  · intro h
    rw [hnumbered] at h
    obtain ⟨t, rfl, ht⟩ := htarget h
    have hkindProof : st.kind.isProof = false := by
      rw [Bool.eq_false_iff]
      intro hkindProof
      rw [hproof hkindProof] at h
      exact Bool.false_ne_true h
    obtain ⟨heading, rest, -, hms, hheading, -, hshown⟩ := hplace hkindProof
    exact ⟨heading, rest, t.number, hms, by simp [Node.hasRole, hheading], hshown, ht⟩
  · refine ⟨by simp [hm], by simp [hm], fun k hk hkproof => ?_, fun k hk hkproof => ?_⟩
    · rw [hm] at hk
      cases hk
      obtain ⟨heading, rest, place, hms, hheading, hone, -⟩ := hplace (by rw [← hkind, hkproof])
      exact ⟨heading, rest, place, hms, hheading, hone⟩
    · rw [hm] at hk
      cases hk
      exact hproof (by rw [← hkind, hkproof])

theorem RunsAs.cons_heading {level : Nat} (tag : n.tag = .heading level) (number : String)
    (below : RunsAs o n.children (resolveNodes labels fileId cs).1) (behind : RunsAs o ns ms) :
    RunsAs o (n :: ns)
      ((resolveNode labels fileId (Node.setSectionNumber number { n with children := cs })).1 ::
        ms) := by
  have hresolved : (resolveNode labels fileId { n with children := cs }).1 =
      { n with children := (resolveNodes labels fileId cs).1 } := by
    rw [resolveNode_of_ne (n := { n with children := cs }) (by simp [tag])]
  rw [resolveNode_setSectionNumber _ (by simp [tag]), hresolved]
  have htag := (tag_setSectionNumber number
    { n with children := (resolveNodes labels fileId cs).1 }).trans tag
  have hbelow : RunsAs o n.children
      ({ n with children := (resolveNodes labels fileId cs).1 } : Node).children := below
  refine .cons (isStatement_of_ne (by simp [tag])) (isStatement_of_ne (by simp [htag]))
    (by rw [htag, tag]) (.of_tag ?_ ?_ ?_ ?_) (hbelow.setSectionNumber _) behind
  all_goals simp [htag]

/-- A node of a plain kind; a reference gets its number, whatever number it had before. -/
theorem RunsAs.cons_plain (tag : n.tag.isPlain = true) (hn : Steady n)
    (hcs : Numbers o enclosing s n.children cs s')
    (below : RunsAs o n.children (resolveNodes labels fileId cs).1) (behind : RunsAs o ns ms) :
    RunsAs o (n :: ns) ((resolveNode labels fileId { n with children := cs }).1 :: ms) := by
  have hplain : n.isStatement = false := isStatement_of_ne (Tag.ne_of_isPlain tag).2
  by_cases href : n.tag = .reference
  · have hone : ∀ c ∈ [numberSpan (labels.get? n.key)],
        c.tag = .span .referenceNumber ∧ c.children = [] := by simp
    rw [resolveNode_of_steady href hn hcs]
    exact .cons hplain hplain rfl ⟨by simp [href], fun _ => hone, by simp [href], by simp [href]⟩
      (.of_leaves (hn.reference href) hone) behind
  · rw [resolveNode_of_ne (n := { n with children := cs }) href]
    refine .cons hplain hplain rfl (.of_tag ?_ ?_ href (Tag.ne_of_isPlain tag).2) below behind
    · intro h
      rw [show n.tag = .label from h] at tag
      exact Bool.false_ne_true tag
    · intro h
      rw [show n.tag = .span .blockNumber from h] at tag
      exact Bool.false_ne_true tag

/-- Labels and places for numbers hold nothing, before a run and after it. -/
theorem RunsAs.cons_leaf (tag : n.tag = .label ∨ n.tag = .span .blockNumber) (hn : Steady n)
    {m : Node} (htag : m.tag = n.tag) (hchildren : m.children = n.children)
    (behind : RunsAs o ns ms) : RunsAs o (n :: ns) ((resolveNode labels fileId m).1 :: ms) := by
  have hnil : n.children = [] := hn.leaf tag
  have hnil' : m.children = [] := hchildren.trans hnil
  have hreference : m.tag ≠ .reference := by rcases tag with tag | tag <;> simp [htag, tag]
  have hblock : ∀ st, n.tag ≠ .block st := by rcases tag with tag | tag <;> simp [tag]
  rw [resolveNode_of_children_nil hreference hnil']
  refine .cons (isStatement_of_ne hblock) (isStatement_of_ne (htag ▸ hblock)) (by rw [htag])
    (hn.congr htag hblock (htag ▸ hreference) fun _ => hnil') ?_ behind
  rw [hnil, hnil']
  exact .nil

/-- What a run makes of the nodes of a tree. -/
theorem runsAs_of_numbers (h : Numbers o enclosing s ns ms s') (hns : AllOf Steady ns) :
    RunsAs o ns (resolveNodes labels fileId ms).1 := by
  induction h with
  | nil => exact .nil
  | heading tag _ _ below behind =>
    obtain ⟨-, hchildren, hns⟩ := (Node.allOf_cons _ _).1 hns
    rw [resolveNodes_cons]
    exact .cons_heading tag _ (below hchildren) (behind hns)
  | @numbered enclosing s _ _ n cs _ _ st st' tag restrict isNumbered hcs _ below behind =>
    obtain ⟨hn, hchildren, hns⟩ := (Node.allOf_cons _ _).1 hns
    rw [resolveNodes_cons, resolveNode_of_ne (by simp [Node.setStatementNumber, Node.setAttr])]
    -- the statement takes a number, which its place shows and its `id` is
    obtain ⟨hrun, hsteady⟩ := RunsTo.of_numbers hn hchildren tag restrict
      (m := { Node.setStatementNumber (dotted (s.statementComponents o st'.kind))
        { n with tag := .block st', children := cs } with
          children := (resolveNodes labels fileId cs).1 })
      rfl rfl hcs (below hchildren) isNumbered.symm
      (fun _ => ⟨_, rfl, id_setStatementNumber _ _⟩)
      (fun h => by rw [h] at isNumbered; exact absurd isNumbered Bool.false_ne_true)
    exact .cons_statement (isStatement_of_block tag) rfl hsteady hrun (below hchildren) (behind hns)
  | @unnumbered _ _ _ _ n cs _ _ st st' tag restrict notNumbered hcs _ below behind =>
    obtain ⟨hn, hchildren, hns⟩ := (Node.allOf_cons _ _).1 hns
    rw [resolveNodes_cons, resolveNode_of_ne (by simp [Node.clearAnchor])]
    -- the statement takes no number, and an `id` that it has stays
    obtain ⟨hrun, hsteady⟩ := RunsTo.of_numbers hn hchildren tag restrict
      (m := { Node.clearAnchor { n with tag := .block st', children := cs } with
          children := (resolveNodes labels fileId cs).1 })
      rfl rfl hcs (below hchildren) notNumbered.symm
      (fun h => by rw [notNumbered] at h; exact absurd h Bool.false_ne_true) (fun _ => rfl)
    exact .cons_statement (isStatement_of_block tag) rfl hsteady hrun (below hchildren) (behind hns)
  | place tag _ behind =>
    obtain ⟨hn, -, hns⟩ := (Node.allOf_cons _ _).1 hns
    rw [resolveNodes_cons]
    exact .cons_leaf (.inr tag) hn rfl rfl (behind hns)
  | label tag _ behind =>
    obtain ⟨hn, -, hns⟩ := (Node.allOf_cons _ _).1 hns
    rw [resolveNodes_cons]
    exact .cons_leaf (.inl tag) hn rfl rfl (behind hns)
  | @«section» _ _ _ _ n cs _ _ tag _ _ below behind =>
    obtain ⟨-, hchildren, hns⟩ := (Node.allOf_cons _ _).1 hns
    rw [resolveNodes_cons, resolveNode_of_ne (by simp [tag]), Node.children_refreshSection]
    have htag := (Node.tag_refreshSection { n with children := cs }).trans tag
    refine .cons (isStatement_of_ne (by simp [tag])) (isStatement_of_ne (by simp [tag]))
      (by simp) (.of_tag ?_ ?_ ?_ ?_) (below hchildren) (behind hns)
    all_goals simp [tag]
  | plain tag hcs _ below behind =>
    obtain ⟨hn, hchildren, hns⟩ := (Node.allOf_cons _ _).1 hns
    rw [resolveNodes_cons]
    exact .cons_plain tag hn hcs (below hchildren) (behind hns)

end Run

/-- What a run makes of a document, whether it was resolved before or not. -/
theorem runsAs_resolve (o : NumberingOptions) (fileId : Nat) {root : Node}
    (h : AllOf Steady root.children) :
    RunsAs o root.children (resolve o fileId root).root.children :=
  runsAs_of_numbers (numbers_numberNodes o [] root.children (.initial o)) h

/-! ## Many runs -/

/-- The document after runs with these options, each on what the run before left. -/
def resolveAll (fileId : Nat) (os : List NumberingOptions) (root : Node) : Node :=
  os.foldl (fun root o => (resolve o fileId root).root) root

/-- The statement was announced as numbered, and no options take its number away. -/
def Node.keepsNumber (os : List NumberingOptions) (n : Node) : Bool :=
  n.isNumbered && os.all fun o => !o.onlyReferenced || holdLabel n.children

/-- What runs make of a statement. -/
structure RunsToAll (os : List NumberingOptions) (n m : Node) : Prop where
  isNumbered : m.isNumbered = n.keepsNumber os
  labels : holdLabel m.children = holdLabel n.children
  anchor : os ≠ [] → m.flags.anchor = m.isNumbered
  shows : os ≠ [] → m.isNumbered = true → m.ShowsAnchor
  /-- A statement has an `id` from the first run on, or it had one before. -/
  id : (m.attr? "id").isSome = ((n.attr? "id").isSome || os.head?.any (n.takesNumber ·))

theorem takesNumber_eq {o : NumberingOptions} {n : Node} :
    n.takesNumber o = (n.isNumbered && (!o.onlyReferenced || holdLabel n.children)) := by
  unfold Node.takesNumber Node.isNumbered
  cases n.statement? <;> rfl

theorem RunsToAll.nil (n : Node) : RunsToAll [] n n :=
  ⟨by simp [Node.keepsNumber], rfl, absurd rfl, absurd rfl, by simp⟩

theorem Node.ShowsAnchor.isSome {n : Node} (h : n.ShowsAnchor) : (n.attr? "id").isSome = true := by
  obtain ⟨_, _, number, _, _, _, hid⟩ := h
  rw [hid]
  rfl

/-- One more run. -/
theorem RunsToAll.concat {os : List NumberingOptions} {o : NumberingOptions} {n k m : Node}
    (h : RunsToAll os n k) (hrun : RunsTo o k m) : RunsToAll (os ++ [o]) n m := by
  have htakes : k.takesNumber o = n.keepsNumber (os ++ [o]) := by
    rw [takesNumber_eq, h.isNumbered, h.labels, Node.keepsNumber, Node.keepsNumber, List.all_append,
      Bool.and_assoc, List.all_cons, List.all_nil, Bool.and_true]
  refine ⟨hrun.isNumbered.trans htakes, hrun.labels.trans h.labels, fun _ => hrun.anchor,
    fun _ => hrun.shows, ?_⟩
  have hnumbered : m.isNumbered = n.keepsNumber (os ++ [o]) := hrun.isNumbered.trans htakes
  cases hm : m.isNumbered with
  | false =>
    rw [hrun.id hm, h.id]
    cases os with
    | nil =>
      -- the first run gives no number
      have hnone : n.takesNumber o = false := by
        rw [takesNumber_eq]
        rw [hm] at hnumbered
        simpa [Node.keepsNumber] using hnumbered.symm
      simp [hnone]
    | cons o' os => rfl
  | true =>
    rw [(hrun.shows hm).isSome]
    rw [hm] at hnumbered
    cases os with
    | nil =>
      have htakes : n.takesNumber o = true := by
        rw [takesNumber_eq]
        simpa [Node.keepsNumber] using hnumbered.symm
      simp [htakes]
    | cons o' os =>
      -- a number that the last run gives was given by all runs before
      have hk : k.isNumbered = true := by
        rw [h.isNumbered]
        rw [Node.keepsNumber, List.all_append, ← Bool.and_assoc] at hnumbered
        exact (Bool.and_eq_true_iff.1 hnumbered.symm).1
      rw [List.cons_append, List.head?_cons, ← List.head?_cons (l := os), ← h.id,
        (h.shows (List.cons_ne_nil _ _) hk).isSome]

theorem forall₂_comp {α β γ : Type} {r : α → β → Prop} {r' : β → γ → Prop} {r'' : α → γ → Prop}
    (hr : ∀ a b c, r a b → r' b c → r'' a c) {as : List α} {bs : List β} {cs : List γ}
    (h : List.Forall₂ r as bs) (h' : List.Forall₂ r' bs cs) : List.Forall₂ r'' as cs := by
  induction h generalizing cs with
  | nil =>
    cases h'
    exact .nil
  | cons hab _ ih =>
    cases h' with
    | cons hbc h' => exact .cons (hr _ _ _ hab hbc) (ih h')

/-- What many runs make of a document. -/
theorem runsToAll_resolveAll (fileId : Nat) (os : List NumberingOptions) {root : Node}
    (h : AllOf Steady root.children) :
    AllOf Steady (resolveAll fileId os root).children ∧
      List.Forall₂ (RunsToAll os) (Node.statementsOf root.children)
        (Node.statementsOf (resolveAll fileId os root).children) := by
  induction os using List.reverseRecOn with
  | nil => exact ⟨h, List.forall₂_same.2 fun n _ => .nil n⟩
  | append_singleton os o ih =>
    obtain ⟨hsteady, hall⟩ := ih
    have hrun := runsAs_resolve o fileId hsteady
    rw [resolveAll, List.foldl_append]
    exact ⟨hrun.steady, forall₂_comp (fun _ _ _ hn hk => hn.concat hk) hall hrun.statements⟩

/-! ## Documents -/

/-- What a property of all statements is, seen from the statements that they were. -/
theorem forall_iff_of_forall₂ {α β : Type} {r : α → β → Prop} {p : α → Prop} {q : β → Prop}
    (hpq : ∀ a b, r a b → (p a ↔ q b)) {as : List α} {bs : List β} (h : List.Forall₂ r as bs) :
    (∀ a ∈ as, p a) ↔ ∀ b ∈ bs, q b := by
  induction h with
  | nil => simp
  | cons hab _ ih => rw [List.forall_mem_cons, List.forall_mem_cons, hpq _ _ hab, ih]

/-- What runs make of a statement that was read: `o` are the options of the first run and `os` those
of the others. -/
structure AnchoredAs (o : NumberingOptions) (os : List NumberingOptions) (n m : Node) : Prop where
  isNumbered : m.isNumbered = n.keepsNumber (o :: os)
  anchor : m.flags.anchor = m.isNumbered
  shows : m.isNumbered = true → m.ShowsAnchor
  /-- The `id` is there if the first run gave a number. -/
  id : (m.attr? "id").isSome = n.takesNumber o

theorem AnchoredAs.numbered_iff_id_iff {o : NumberingOptions} {os : List NumberingOptions}
    {n m : Node} (h : AnchoredAs o os n m) :
    (m.isNumbered = true ↔ (m.attr? "id").isSome = true) ↔
      o.onlyReferenced = true ∨ (∀ o' ∈ os, o'.onlyReferenced = false) ∨
        (n.isNumbered = true → holdLabel n.children = true) := by
  rw [h.isNumbered, h.id, Node.keepsNumber, takesNumber_eq, List.all_cons]
  -- with a label nothing is taken away, and without one whatever the first run has left
  cases n.isNumbered <;> cases holdLabel n.children <;> cases o.onlyReferenced <;> simp

/-- After any runs over a document, a statement is numbered if, and only if, it was announced as
numbered and no options of any run take its number away. It is numbered if, and only if, it is an
anchor, and then it has the number that its heading shows as its `id`. It has an `id` if, and only
if, it took a number in the first run. So the statements with an `id` are the numbered ones if, and
only if, the first run already takes away what a later run does, or no run after the first takes
anything away, or every statement that was announced as numbered has a label. -/
theorem id_after_runs (source : List Char) (fileId resolverId : Nat) (sections : Bool)
    (o : NumberingOptions) (os : List NumberingOptions) :
    let tree := (Document.parse source fileId).tree sections
    let root := resolveAll resolverId (o :: os) tree
    List.Forall₂ (AnchoredAs o os) (tree.descendants.filter (·.isStatement))
      (root.descendants.filter (·.isStatement)) ∧
    ((∀ m ∈ root.descendants.filter (·.isStatement),
        m.isNumbered = true ↔ (m.attr? "id").isSome = true) ↔
      o.onlyReferenced = true ∨ (∀ o' ∈ os, o'.onlyReferenced = false) ∨
        ∀ n ∈ tree.descendants.filter (·.isStatement),
          n.isNumbered = true → holdLabel n.children = true) := by
  intro tree root
  have hfresh : AllOf Fresh tree.children :=
    ((Node.allOf_cons _ _).1 (fresh_tree source fileId sections)).2.1
  have hsteady := Node.steady_of_fresh hfresh (framed_tree source fileId sections)
  obtain ⟨-, hall⟩ := runsToAll_resolveAll resolverId (o :: os) hsteady
  have hnoId : ∀ n ∈ Node.statementsOf tree.children, n.attr? "id" = none := fun n hn =>
    (hfresh n (List.mem_filter.1 hn).1).no_id
  have hstatements : List.Forall₂ (AnchoredAs o os) (Node.statementsOf tree.children)
      (Node.statementsOf root.children) := by
    refine ((List.forall₂_and_left _ _).2 ⟨hnoId, hall⟩).imp fun n m ⟨hid, h⟩ => ?_
    exact ⟨h.isNumbered, h.anchor (List.cons_ne_nil _ _), h.shows (List.cons_ne_nil _ _), by
      rw [h.id, hid]
      simp⟩
  rw [Node.descendants_eq, Node.descendants_eq]
  refine ⟨hstatements, ?_⟩
  refine (forall_iff_of_forall₂ (fun n m h => h.numbered_iff_id_iff.symm) hstatements).symm.trans ?_
  simp only [forall_or_left]
  rfl

end Treatise
