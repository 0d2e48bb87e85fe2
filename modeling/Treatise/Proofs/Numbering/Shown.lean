import Mathlib.Data.List.Basic
import Treatise.Proofs.Numbering.Settled
import Treatise.Proofs.Tree.Reading

/-!
# The numbers that a tree shows

A tree that was read carries no number. Once it is numbered and its references are resolved, the
numbers that it shows are those that its landmarks were given.

* **`flatMap_shown`** — what an observation of nodes that sees only numbers reads off the resolved
  tree, in document order, is what the given numbers say.
* **`sections_increase_and_anchors_differ`** — section numbers increase, statements have numbers of
  their own, and no two nodes have the same `id`.
-/

namespace Treatise

open Node (Fresh AllOf descendantsOf)

/-! ## Observations -/

/-- What `f` sees of the nodes of a resolved tree is what `g` says about the numbers given to them,
and `f` sees nothing of other nodes. -/
structure Shows {α : Type} (f : Node → List α) (g : GivenNumber → List α) : Prop where
  heading : ∀ {n m : Node} {level : Nat} {cs : List Nat} {title : String},
    n.tag = .heading level → n.attr? "id" = none → n.headingNumber? = some (dotted cs) →
    m.tag = .span .sectionNumber → m.attr? "id" = some (sectionAnchor (dotted cs)) →
    f n ++ f m = g (.section cs title)
  statement : ∀ {n : Node} {st : Statement} {cs : List Nat},
    n.tag = .block st → st.numbered = true → n.attr? "id" = some (dotted cs) →
    f n = g (.statement st.kind cs)
  other : ∀ {n : Node}, n.attr? "id" = none → (∀ level, n.tag ≠ .heading level) →
    (∀ st, n.tag = .block st → st.numbered = false) → f n = []

section Shown

variable {α : Type} {f : Node → List α} {g : GivenNumber → List α} {labels : Dict Target}
  {fileId : Nat}

/-- A node that takes no number shows none. -/
theorem Shows.eq_nil_of_fresh (hf : Shows f g) {n m : Node} (hn : Fresh n) (htag : m.tag = n.tag)
    (hid : m.attr? "id" = n.attr? "id") (hheading : ∀ level, n.tag ≠ .heading level)
    (hblock : ∀ st, n.tag ≠ .block st) : f m = [] := by
  refine hf.other (by rw [hid, hn.no_id]) ?_ ?_
  · intro level h
    exact hheading level (by rw [← htag, h])
  · intro st h
    exact absurd (by rw [← htag, h]) (hblock st)

theorem flatMap_descendantsOf_cons (f : Node → List α) (n : Node) (ns : List Node) :
    (descendantsOf (n :: ns)).flatMap f =
      f n ++ ((descendantsOf n.children).flatMap f ++ (descendantsOf ns).flatMap f) := by
  rw [Node.descendantsOf_cons, List.flatMap_cons, List.flatMap_append]

/-- What an observation of nodes that sees only numbers reads off the resolved tree is what the
given numbers say. -/
theorem flatMap_shown (hf : Shows f g) {o : NumberingOptions} {enclosing : List (Option Target)}
    {s s' : Numbering} {ns ms : List Node}
    (h : Settles o labels fileId enclosing s ns ms s') :
    (descendantsOf ms).flatMap f =
      (Numbering.given o s (landmarks o Node.headingTitle ns)).flatMap g := by
  induction h with
  | nil => rfl
  | @heading _ s _ _ n _ _ level fresh tag hbelow _ below behind =>
    -- the heading and the number in front of it are seen together
    have hshown : f (n.numberedHeading (dotted (Numbering.nextComponents s.components level))
          (resolveNodes labels fileId n.children).1) ++
        f (Node.sectionSpan (dotted (Numbering.nextComponents s.components level)) n.text) =
          g (.section (Numbering.nextComponents s.components level) n.headingTitle) :=
      hf.heading tag fresh.no_id rfl rfl rfl
    rw [Node.descendantsOf_cons, Node.descendantsOf_numberedHeading, List.flatMap_cons,
      List.cons_append, List.flatMap_cons, List.flatMap_append, below, behind,
      ← List.append_assoc, hshown]
    rw [landmarks_cons_of_some (landmark?_heading tag), Numbering.given,
      given_of_settles hbelow, List.flatMap_cons, List.flatMap_append]
    rfl
  | @numbered _ s _ _ n cs _ _ _ st' _ tag restrict isNumbered hbelow _ below behind =>
    have hshown : f (Node.setStatementNumber (dotted (s.statementComponents o st'.kind))
        { n with tag := .block st', children := cs }) =
          g (.statement st'.kind (s.statementComponents o st'.kind)) :=
      hf.statement rfl isNumbered (id_setStatementNumber _ _)
    rw [flatMap_descendantsOf_cons, behind, hshown,
      landmarks_cons_of_some (landmark?_numbered tag restrict isNumbered), Numbering.given,
      given_of_settles hbelow, List.flatMap_cons, List.flatMap_append, ← below]
    rfl
  | @unnumbered _ _ _ _ n cs _ _ _ st' fresh tag restrict notNumbered hbelow _ below behind =>
    rw [flatMap_descendantsOf_cons, behind, hf.other]
    · rw [landmarks_cons_of_none (landmark?_unnumbered tag restrict notNumbered),
        given_of_settles hbelow, List.flatMap_append, ← below]
      rfl
    · exact fresh.no_id
    · simp [Node.clearAnchor]
    · simp [Node.clearAnchor, notNumbered]
  | @place enclosing _ _ n _ _ fresh tag _ behind =>
    have hnil := fresh.children_eq_nil (.inr tag)
    rw [flatMap_descendantsOf_cons, behind,
      hf.eq_nil_of_fresh (m := n.setText (shownNumber enclosing)) fresh rfl rfl (by simp [tag])
        (by simp [tag]),
      landmarks_cons_of_leaf hnil (by simp [tag]) (by simp [tag])]
    simp [Node.setText, hnil]
  | label fresh tag _ behind =>
    have hnil := fresh.children_eq_nil (.inl tag)
    rw [flatMap_descendantsOf_cons, behind,
      hf.eq_nil_of_fresh fresh rfl rfl (by simp [tag]) (by simp [tag]),
      Numbering.given_recordLabel, landmarks_cons_of_leaf hnil (by simp [tag]) (by simp [tag])]
    simp [hnil]
  | @reference _ _ _ n _ _ fresh tag _ behind =>
    -- a reference is empty before it is resolved, and shows only what it refers to then
    have hnil : n.children = [] := fresh.leaf (by rw [tag]; rfl)
    have hspan : f (numberSpan (labels.get? n.key)) = [] :=
      hf.other (id_numberSpan _) (by simp) (by simp)
    rw [flatMap_descendantsOf_cons, behind,
      hf.eq_nil_of_fresh (m := { n with children := [numberSpan (labels.get? n.key)] }) fresh rfl
        rfl (by simp [tag]) (by simp [tag]),
      landmarks_cons_of_leaf hnil (by simp [tag]) (by simp [tag])]
    simp [hspan]
  | «section» fresh tag _ hbelow _ below behind =>
    rw [flatMap_descendantsOf_cons, behind,
      hf.eq_nil_of_fresh fresh (Node.tag_settledSection ..) (Node.id_settledSection ..)
        (by simp [tag]) (by simp [tag]),
      landmarks_cons_of_none (landmark?_of_ne (by simp [tag]) (by simp [tag])),
      given_of_settles hbelow, List.flatMap_append, ← below, List.nil_append,
      Node.children_settledSection]
  | @plain _ _ _ _ n cs _ _ fresh tag _ hbelow _ below behind =>
    obtain ⟨hheading, hblock⟩ := Tag.ne_of_isPlain tag
    rw [flatMap_descendantsOf_cons, behind,
      hf.eq_nil_of_fresh (m := { n with children := cs }) fresh rfl rfl hheading hblock,
      landmarks_cons_of_none (landmark?_of_ne hheading hblock), given_of_settles hbelow,
      List.flatMap_append, ← below]
    rfl

end Shown

/-! ## The numbers of a document -/

theorem flatMap_resolve {α : Type} {f : Node → List α} {g : GivenNumber → List α}
    (hf : Shows f g) (o : NumberingOptions) (fileId : Nat) {root : Node}
    (hfresh : AllOf Fresh [root]) :
    (descendantsOf (resolve o fileId root).root.children).flatMap f =
      (givenNumbers o root).flatMap g :=
  flatMap_shown hf (settles_resolve o fileId hfresh)

/-- The numbers of the headings below a node. -/
def Node.headingNumbers (root : Node) : List (Option String) :=
  root.descendants.filterMap fun n => n.headingLevel?.map fun _ => n.headingNumber?

/-- The kinds and numbers of the numbered statements below a node. -/
def Node.statementNumbers (root : Node) : List (Kind × Option String) :=
  root.descendants.filterMap fun n =>
    (n.statement?.filter (·.numbered)).map fun st => (st.kind, n.attr? "id")

/-- The `id` attributes in a tree. -/
def Node.ids (root : Node) : List String := (descendantsOf [root]).filterMap (·.attr? "id")

theorem shows_headingNumbers :
    Shows (fun n => (n.headingLevel?.map fun _ => n.headingNumber?).toList)
      (fun g => (g.section?.map fun cs => some (dotted cs)).toList) where
  heading hn _ hnumber hm _ := by
    simp [Node.headingLevel?, hn, hm, hnumber, GivenNumber.section?]
  statement hn _ _ := by simp [Node.headingLevel?, hn, GivenNumber.section?]
  other _ hn _ := by
    simp [Node.headingLevel?]

theorem shows_statementNumbers :
    Shows (fun n => ((n.statement?.filter (·.numbered)).map fun st => (st.kind, n.attr? "id")).toList)
      (fun g => (g.statement?.map fun (kind, cs) => (kind, some (dotted cs))).toList) where
  heading hn _ _ hm _ := by simp [Node.statement?, hn, hm, GivenNumber.statement?]
  statement hn hnumbered hid := by
    simp [Node.statement?, hn, hid, hnumbered, Option.filter, GivenNumber.statement?]
  other {n} _ _ hn := by
    cases htag : n.tag with
    | block st => simp [Node.statement?, htag, hn st htag, Option.filter]
    | _ => simp [Node.statement?, htag]

theorem shows_ids : Shows (fun n => (n.attr? "id").toList) (fun g => [g.anchor]) where
  heading _ hn _ _ hm := by simp [hn, hm, GivenNumber.anchor]
  statement _ _ hn := by simp [hn, GivenNumber.anchor]
  other hn _ _ := by simp [hn]

section Document

variable (o : NumberingOptions) (fileId : Nat) {root : Node} (hfresh : AllOf Fresh [root])

include hfresh

theorem headingNumbers_resolve :
    (resolve o fileId root).root.headingNumbers =
      ((givenNumbers o root).filterMap (·.section?)).map fun cs => some (dotted cs) := by
  rw [Node.headingNumbers, List.filterMap_eq_flatMap_toList, Node.descendants_eq,
    flatMap_resolve shows_headingNumbers o fileId hfresh, ← List.filterMap_eq_flatMap_toList,
    List.map_filterMap]

theorem statementNumbers_resolve :
    (resolve o fileId root).root.statementNumbers =
      ((givenNumbers o root).filterMap (·.statement?)).map
        fun (kind, cs) => (kind, some (dotted cs)) := by
  rw [Node.statementNumbers, List.filterMap_eq_flatMap_toList, Node.descendants_eq,
    flatMap_resolve shows_statementNumbers o fileId hfresh, ← List.filterMap_eq_flatMap_toList,
    List.map_filterMap]

theorem ids_resolve :
    (resolve o fileId root).root.ids = (givenNumbers o root).map (·.anchor) := by
  have hroot : (resolve o fileId root).root.attr? "id" = none :=
    ((Node.allOf_cons _ _).1 hfresh).1.no_id
  have hids : (descendantsOf (resolve o fileId root).root.children).filterMap (·.attr? "id") =
      (givenNumbers o root).flatMap fun g => [g.anchor] := by
    rw [List.filterMap_eq_flatMap_toList, flatMap_resolve shows_ids o fileId hfresh]
  rw [Node.ids, Node.descendantsOf_cons, Node.descendantsOf_nil, List.append_nil,
    List.filterMap_cons_none (f := fun n : Node => n.attr? "id") hroot, hids,
    List.map_eq_flatMap]

end Document

namespace GivenNumber

variable {o : NumberingOptions} {g h : GivenNumber}

theorem Apart.section_lt (hapart : Apart o g h) {cs ds : List Nat} (hg : g.section? = some cs)
    (hh : h.section? = some ds) : cs < ds := by
  cases g with
  | statement kind number => cases hg
  | «section» cs' title =>
    cases h with
    | statement kind number => cases hh
    | «section» ds' title' =>
      cases hg
      cases hh
      exact hapart

theorem Apart.statement_ne (hapart : Apart o g h) {p q : Kind × List Nat}
    (hg : g.statement? = some p) (hh : h.statement? = some q) (hnumber : p.2 = q.2) :
    o.byKind = true ∧ p.1 ≠ q.1 := by
  cases g with
  | «section» cs title => cases hg
  | statement kind number =>
    cases h with
    | «section» ds title => cases hh
    | statement kind' number' =>
      cases hg
      cases hh
      exact hapart hnumber

end GivenNumber

/-- Different numbers have different anchors, where all statements are counted together. -/
theorem GivenNumber.Apart.anchor_ne {o : NumberingOptions} (ho : o.byKind = false)
    {g h : GivenNumber} (hapart : Apart o g h) : g.anchor ≠ h.anchor := by
  intro heq
  cases g with
  | «section» cs title =>
    cases h with
    | «section» ds title' =>
      obtain rfl : cs = ds := dotted_injective (sectionAnchor_injective heq)
      exact List.lt_irrefl _ hapart
    | statement kind number => exact sectionAnchor_ne_dotted _ _ heq
  | statement kind number =>
    cases h with
    | «section» ds title => exact sectionAnchor_ne_dotted _ _ heq.symm
    | statement kind' number' =>
      have hbyKind := (hapart (dotted_injective heq)).1
      rw [ho] at hbyKind
      exact absurd hbyKind Bool.false_ne_true

/-- The section numbers of a document increase in the lexicographic order, statements have numbers
of their own, or of their own among those of their kind, and where all statements are counted
together no two nodes have the same `id`. -/
theorem sections_increase_and_anchors_differ (source : List Char) (fileId : Nat) (sections : Bool)
    (o : NumberingOptions) :
    let root := (resolve o fileId ((Document.parse source fileId).tree sections)).root
    (∃ numbers : List (List Nat),
      root.headingNumbers = numbers.map (fun cs => some (dotted cs)) ∧
        numbers.Pairwise (· < ·)) ∧
    (∃ numbers : List (Kind × List Nat),
      root.statementNumbers = numbers.map (fun (kind, cs) => (kind, some (dotted cs))) ∧
        numbers.Nodup ∧ (o.byKind = false → (numbers.map Prod.snd).Nodup)) ∧
    (o.byKind = false → root.ids.Nodup) := by
  intro root
  have hfresh := fresh_tree source fileId sections
  have hapart := Numbering.pairwise_given o (.initial o)
    (landmarks o Node.headingTitle ((Document.parse source fileId).tree sections).children)
  refine ⟨⟨_, headingNumbers_resolve o fileId hfresh, ?_⟩,
    ⟨_, statementNumbers_resolve o fileId hfresh, ?_, ?_⟩, ?_⟩
  · rw [List.pairwise_filterMap]
    refine hapart.imp fun {g h} hgh cs hcs ds hds => ?_
    exact hgh.section_lt hcs hds
  · rw [List.Nodup, List.pairwise_filterMap]
    refine hapart.imp fun hgh p hp q hq hpq => ?_
    exact (hgh.statement_ne hp hq (congrArg Prod.snd hpq)).2 (congrArg Prod.fst hpq)
  · intro ho
    rw [List.Nodup, List.pairwise_map, List.pairwise_filterMap]
    refine hapart.imp fun hgh p hp q hq hpq => ?_
    -- equal numbers are possible only where each kind is counted on its own
    have hbyKind := (hgh.statement_ne hp hq hpq).1
    rw [ho] at hbyKind
    exact Bool.false_ne_true hbyKind
  · intro ho
    rw [ids_resolve o fileId hfresh, List.Nodup, List.pairwise_map]
    exact hapart.imp fun hgh => hgh.anchor_ne ho

end Treatise
