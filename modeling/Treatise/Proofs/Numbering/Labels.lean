import Treatise.Proofs.Dictionaries
import Treatise.Proofs.Numbering.Keeps
import Treatise.Proofs.Numbering.Statements

/-!
# What labels point to

The target of a label can be read off its place in the resolved tree: the innermost statement around
it that has a number or, where there is none, the section number behind the headings before it.

* **`Place.labelTarget`** — the target of the label at a place.
* **`records_of_settles`** — the walk records the labels with these targets, in document order.
* **`getLast?_sectionNumbers`** — around a label in a heading, the section number is that of the
  heading.
-/

namespace Treatise

open Node (Fresh AllOf Framed descendantsOf placesOf)
open Treatise.Numbering (nextComponents)

/-! ## The labels of a tree -/

/-- The key of a label. -/
def Node.labelKey? (n : Node) : Option String := if n.tag = .label then n.attr? "key" else none

/-- A statement that has a number, as what labels inside it point to. -/
def Node.target? (n : Node) : Option Target := (n.attr? "id").map fun number => ⟨number, number⟩

/-- What the label at a place points to. -/
def Place.labelTarget (o : NumberingOptions) (p : Place) : Target :=
  ((p.above.find? (·.isNumbered)).bind Node.target?).getD
    ⟨dotted (p.components o), sectionAnchor (dotted (p.components o))⟩

/-- The entry of the label at a place, if one is there. -/
def Place.labelRecord? (o : NumberingOptions) (p : Place) : Option (String × Target) :=
  p.node.labelKey?.map fun key => (key, p.labelTarget o)

/-! ## The walk -/

/-- What the walk records over nodes at some place, from one state to another. -/
structure Records (o : NumberingOptions) (above before ms : List Node) (s s' : Numbering) :
    Prop where
  components : s'.components = sectionBehind o (before ++ descendantsOf ms)
  labels : s'.labels = s.labels.insertAll ((placesOf above before ms).filterMap (·.labelRecord? o))

/-- The statements around a place are those around it in the walk. -/
def Encloses (above : List Node) (enclosing : List (Option Target)) : Prop :=
  enclosing.findSome? id = (above.find? (·.isNumbered)).bind Node.target?

section Records

variable {o : NumberingOptions} {above before ms : List Node} {m : Node} {s s₁ s₂ s₃ : Numbering}
  {enclosing : List (Option Target)}

theorem sectionBehind_append_of_ne (h : ∀ level, m.tag ≠ .heading level) :
    sectionBehind o (before ++ [m]) = sectionBehind o before := by
  rw [sectionBehind, List.filterMap_append, List.filterMap_cons_none (Node.headingLevel?_of_ne h),
    List.filterMap_nil, List.append_nil]
  rfl

theorem sectionBehind_append_of_heading {level : Nat} (h : m.tag = .heading level) :
    sectionBehind o (before ++ [m]) = nextComponents (sectionBehind o before) level := by
  rw [sectionBehind, List.filterMap_append,
    List.filterMap_cons_some (Node.headingLevel?_eq_some_iff.2 h), List.filterMap_nil,
    List.foldl_append]
  rfl

theorem Records.nil (h : s.components = sectionBehind o before) : Records o above before [] s s :=
  ⟨by rw [Node.descendantsOf_nil, List.append_nil]; exact h, rfl⟩

/-- A node that is no label, and then what is below it and behind it. -/
theorem Records.cons (hm : m.tag ≠ .label) (hlabels : s₁.labels = s.labels)
    (below : Records o (m :: above) (before ++ [m]) m.children s₁ s₂)
    (behind : s₂.components = sectionBehind o (before ++ m :: descendantsOf m.children) →
      Records o above (before ++ m :: descendantsOf m.children) ms s₂ s₃) :
    Records o above before (m :: ms) s s₃ := by
  have hrecord : Place.labelRecord? o ⟨m, above, before⟩ = none := by
    rw [Place.labelRecord?, Node.labelKey?, if_neg hm, Option.map_none]
  have hsection := below.components
  rw [List.append_assoc, List.singleton_append] at hsection
  have hbehind := behind hsection
  refine ⟨?_, ?_⟩
  · rw [hbehind.components, Node.descendantsOf_cons, List.append_assoc, List.cons_append]
  · rw [hbehind.labels, below.labels, hlabels, Node.placesOf_cons, List.filterMap_cons_none hrecord,
      List.filterMap_append]
    simp only [Dict.insertAll, List.foldl_append]

/-- A node with nothing below it that is neither a label nor a heading. -/
theorem Records.cons_leaf (hs : s.components = sectionBehind o before) (hm : m.tag ≠ .label)
    (hheading : ∀ level, m.tag ≠ .heading level) (hnil : m.children = [])
    (behind : s.components = sectionBehind o (before ++ [m]) →
      Records o above (before ++ [m]) ms s s₁) :
    Records o above before (m :: ms) s s₁ := by
  have hsection : s.components = sectionBehind o (before ++ [m]) := by
    rw [sectionBehind_append_of_ne hheading, hs]
  have hbelow : Records o (m :: above) (before ++ [m]) m.children s s := by
    rw [hnil]
    exact .nil hsection
  exact .cons hm rfl hbelow fun _ => by rw [hnil]; exact behind hsection

theorem Records.cons_label (hnil : m.children = [])
    (hlabels : s₁.labels = s.labels.insertAll (Place.labelRecord? o ⟨m, above, before⟩).toList)
    (behind : Records o above (before ++ [m]) ms s₁ s₂) :
    Records o above before (m :: ms) s s₂ := by
  refine ⟨?_, ?_⟩
  · rw [behind.components, Node.descendantsOf_cons, hnil, List.append_assoc]
    rfl
  · rw [behind.labels, hlabels, Node.placesOf_cons_of_nil hnil, List.filterMap_cons]
    cases Place.labelRecord? o ⟨m, above, before⟩ <;> rfl

theorem Encloses.skip (h : Encloses above enclosing) (hm : m.isNumbered = false) :
    Encloses (m :: above) enclosing := by
  rw [Encloses, List.find?_cons_of_neg (by simp [hm])]
  exact h

theorem labels_recordLabel (hs : s.components = sectionBehind o before)
    (henclosing : Encloses above enclosing) (hm : m.tag = .label) :
    (s.recordLabel enclosing m).labels =
      s.labels.insertAll (Place.labelRecord? o ⟨m, above, before⟩).toList := by
  have htarget : s.labelTarget enclosing = Place.labelTarget o ⟨m, above, before⟩ := by
    have hcomponents : s.components = Place.components o ⟨m, above, before⟩ := hs
    rw [Numbering.labelTarget, henclosing, Place.labelTarget, Numbering.sectionNumber, hcomponents]
    cases (above.find? (·.isNumbered)).bind Node.target? <;> rfl
  rw [Place.labelRecord?, Node.labelKey?, if_pos hm, ← htarget, Numbering.recordLabel]
  cases m.attr? "key" <;> rfl

theorem Records.cons_plain (hs : s.components = sectionBehind o before)
    (henclosing : Encloses above enclosing) (hlabel : m.tag ≠ .label)
    (hheading : ∀ level, m.tag ≠ .heading level) (hblock : ∀ st, m.tag ≠ .block st)
    (below : s.components = sectionBehind o (before ++ [m]) → Encloses (m :: above) enclosing →
      Records o (m :: above) (before ++ [m]) m.children s s₁)
    (behind : s₁.components = sectionBehind o (before ++ m :: descendantsOf m.children) →
      Records o above (before ++ m :: descendantsOf m.children) ms s₁ s₂) :
    Records o above before (m :: ms) s s₂ := by
  have hsection : s.components = sectionBehind o (before ++ [m]) := by
    rw [sectionBehind_append_of_ne hheading, hs]
  exact .cons hlabel rfl (below hsection (henclosing.skip (isNumbered_of_ne hblock))) behind

theorem Records.cons_statement {st : Statement} (hs : s₁.components = sectionBehind o before)
    (hm : m.tag = .block st) (hlabels : s₁.labels = s.labels)
    (below : s₁.components = sectionBehind o (before ++ [m]) →
      Records o (m :: above) (before ++ [m]) m.children s₁ s₂)
    (behind : s₂.components = sectionBehind o (before ++ m :: descendantsOf m.children) →
      Records o above (before ++ m :: descendantsOf m.children) ms s₂ s₃) :
    Records o above before (m :: ms) s s₃ := by
  have hsection : s₁.components = sectionBehind o (before ++ [m]) := by
    rw [sectionBehind_append_of_ne (by simp [hm]), hs]
  exact .cons (by simp [hm]) hlabels (below hsection) behind

end Records

/-- Numbering records the labels in document order, each with the target of its place in the
resolved tree. -/
theorem records_of_settles {labels : Dict Target} {fileId : Nat} {o : NumberingOptions}
    {enclosing : List (Option Target)} {s s' : Numbering} {above before ns ms : List Node}
    (h : Settles o labels fileId enclosing s ns ms s')
    (hs : s.components = sectionBehind o before) (henclosing : Encloses above enclosing) :
    Records o above before ms s s' := by
  induction h generalizing above before with
  | nil => exact .nil hs
  | @heading enclosing s s₁ _ n _ _ level _ tag _ _ below behind =>
    generalize hm : n.numberedHeading (dotted (nextComponents s.components level))
      (resolveNodes labels fileId n.children).1 = m
    have htag : m.tag = .heading level := by
      rw [← hm]
      exact tag
    have hchildren : m.children = Node.sectionSpan (dotted (nextComponents s.components level))
        n.text :: (resolveNodes labels fileId n.children).1 := by
      rw [← hm]
      rfl
    have hsection : nextComponents s.components level = sectionBehind o (before ++ [m]) := by
      rw [sectionBehind_append_of_heading htag, hs]
    have hinside : Encloses (m :: above) enclosing :=
      henclosing.skip (isNumbered_of_ne (by simp [htag]))
    -- the number in front of the heading is no label
    have hbelow : Records o (m :: above) (before ++ [m]) m.children
        (s.pass o (.heading level n.headingTitle)) s₁ := by
      rw [hchildren]
      exact .cons_leaf hsection nofun nofun rfl fun hs => below hs hinside
    have hlabels : (s.pass o (.heading level n.headingTitle)).labels = s.labels := rfl
    exact .cons (by simp [htag]) hlabels hbelow fun hs => behind hs henclosing
  | @numbered enclosing s s₁ _ n cs _ _ _ st' _ _ _ isNumbered _ _ below behind =>
    generalize hm : Node.setStatementNumber (dotted (s.statementComponents o st'.kind))
      { n with tag := .block st', children := cs } = m
    have htag : m.tag = .block st' := by
      rw [← hm]
      rfl
    have hchildren : m.children = cs := by
      rw [← hm]
      rfl
    -- inside the statement its own number comes first, in the tree and in the walk
    have hinside : Encloses (m :: above) (some (s.statementTarget o st'.kind) :: enclosing) := by
      have hid : m.attr? "id" = some (dotted (s.statementComponents o st'.kind)) := by
        rw [← hm, id_setStatementNumber]
      have hnumbered : m.isNumbered = true := by
        rw [isNumbered_of_block htag, isNumbered]
      rw [Encloses, List.find?_cons_of_pos (by exact hnumbered), Option.bind_some, Node.target?,
        hid]
      rfl
    have hsection : (s.pass o (.statement st'.kind)).components = sectionBehind o before := hs
    refine .cons_statement hsection htag rfl (fun hs => ?_) fun hs => behind hs henclosing
    rw [hchildren]
    exact below hs hinside
  | @unnumbered enclosing s s₁ _ n cs _ _ _ st' _ _ _ notNumbered _ _ below behind =>
    generalize hm : Node.clearAnchor { n with tag := .block st', children := cs } = m
    have htag : m.tag = .block st' := by
      rw [← hm]
      rfl
    have hchildren : m.children = cs := by
      rw [← hm]
      rfl
    -- a statement without a number hides none of those around it
    have hinside : Encloses (m :: above) (none :: enclosing) := by
      have hnumbered : m.isNumbered = false := by
        rw [isNumbered_of_block htag, notNumbered]
      exact henclosing.skip hnumbered
    refine .cons_statement hs htag rfl (fun hs => ?_) fun hs => behind hs henclosing
    rw [hchildren]
    exact below hs hinside
  | @place enclosing _ _ n _ _ fresh tag _ behind =>
    have hnil : (n.setText (shownNumber enclosing)).children = [] :=
      fresh.children_eq_nil (.inr tag)
    exact .cons_leaf hs (by simp [Node.setText, tag]) (by simp [Node.setText, tag]) hnil fun hs =>
      behind hs henclosing
  | @label enclosing s _ n _ _ fresh tag _ behind =>
    have hnil : n.children = [] := fresh.children_eq_nil (.inl tag)
    refine .cons_label hnil (labels_recordLabel hs henclosing tag) (behind ?_ henclosing)
    rw [Numbering.components_recordLabel, sectionBehind_append_of_ne (by simp [tag]), hs]
  | reference _ tag _ behind =>
    refine .cons_plain hs henclosing (by simp [tag]) (by simp [tag]) (by simp [tag])
      (fun hs _ => ?_) fun hs => behind hs henclosing
    exact .cons_leaf hs (by simp) (by simp) (children_numberSpan _) .nil
  | «section» _ tag _ _ _ below behind =>
    exact .cons_plain hs henclosing (by simp [tag]) (by simp [tag]) (by simp [tag]) below
      fun hs => behind hs henclosing
  | @plain _ _ _ _ n _ _ _ _ tag _ _ _ below behind =>
    obtain ⟨hheading, hblock⟩ := Tag.ne_of_isPlain tag
    exact .cons_plain hs henclosing (Tag.ne_label_of_isPlain tag) hheading hblock below fun hs =>
      behind hs henclosing

/-- Both walks keep the labels. -/
theorem labelKeys_of_settles {labels : Dict Target} {fileId : Nat} {o : NumberingOptions}
    {enclosing : List (Option Target)} {s s' : Numbering} {ns ms : List Node}
    (h : Settles o labels fileId enclosing s ns ms s') :
    (descendantsOf ms).filterMap (·.labelKey?) = (descendantsOf ns).filterMap (·.labelKey?) := by
  refine filterMap_of_settles h (fun n m htag hattrs => ?_) fun n hleaf => ?_
  · rw [Node.labelKey?, Node.labelKey?, htag, Node.attr?, Node.attr?, hattrs]
  · rw [Node.labelKey?, if_neg]
    intro htag
    rw [htag] at hleaf
    cases hleaf

/-! ## Numbers of headings -/

theorem getLast?_sectionNumbers (cs : List Nat) {levels : List Nat} (h : levels ≠ []) :
    (sectionNumbers cs levels).getLast? = some (levels.foldl nextComponents cs) := by
  induction levels using List.reverseRecOn with
  | nil => exact absurd rfl h
  | append_singleton levels level =>
    rw [sectionNumbers_append, sectionNumbers, sectionNumbers, List.getLast?_concat,
      List.foldl_append]
    rfl

theorem filterMap_headingLevel?_filter (ns : List Node) :
    (ns.filter (·.headingLevel?.isSome)).filterMap (·.headingLevel?) =
      ns.filterMap (·.headingLevel?) := by
  rw [List.filterMap_filter]
  refine congrArg (List.filterMap · ns) (funext fun n => ?_)
  cases n.headingLevel? <;> rfl

section Document

variable (o : NumberingOptions) (fileId : Nat) {root : Node} (hfresh : AllOf Fresh [root])

include hfresh

/-- The labels of a document are those of the places in its resolved tree. -/
theorem labels_resolve :
    (resolve o fileId root).labels =
      Dict.insertAll ∅ ((resolve o fileId root).root.places.filterMap (·.labelRecord? o)) := by
  have hencloses : Encloses [] [] := rfl
  exact (records_of_settles (settles_resolve o fileId hfresh) rfl hencloses).labels

/-- A key points to what the last label with the key points to. -/
theorem get?_labels_resolve (key : String) :
    (resolve o fileId root).labels.get? key =
      ((resolve o fileId root).root.places.filter (·.node.labelKey? == some key)).getLast?.map
        (·.labelTarget o) := by
  have hrecords (ps : List Place) : (ps.filterMap (·.labelRecord? o)).filter (·.1 == key) =
      (ps.filter (·.node.labelKey? == some key)).map fun p => (key, p.labelTarget o) := by
    induction ps with
    | nil => rfl
    | cons p ps ih =>
      cases hkey : p.node.labelKey? with
      | none =>
        rw [List.filterMap_cons_none (by rw [Place.labelRecord?, hkey]; rfl), ih,
          List.filter_cons_of_neg (by simp [hkey])]
      | some k =>
        have hrecord : p.labelRecord? o = some (k, p.labelTarget o) := by
          rw [Place.labelRecord?, hkey, Option.map_some]
        rw [List.filterMap_cons_some hrecord]
        by_cases hk : k = key
        · rw [List.filter_cons_of_pos (by simp [hk]), List.filter_cons_of_pos (by simp [hkey, hk]),
            List.map_cons, ih, hk]
        · rw [List.filter_cons_of_neg (by simp [hk]), List.filter_cons_of_neg (by simp [hkey, hk]),
            ih]
  rw [labels_resolve o fileId hfresh, Dict.get?_insertAll, hrecords, List.getLast?_map,
    Option.map_map]
  exact Option.or_none

theorem isSome_get?_labels_resolve (key : String) :
    ((resolve o fileId root).labels.get? key).isSome = true ↔
      key ∈ (resolve o fileId root).root.descendants.filterMap (·.labelKey?) := by
  rw [get?_labels_resolve o fileId hfresh, Option.isSome_map, List.getLast?_isSome,
    ← Node.map_node_places, List.filterMap_map, List.mem_filterMap]
  constructor
  · intro hne
    obtain ⟨p, hp⟩ := List.exists_mem_of_ne_nil _ hne
    obtain ⟨hp, hkey⟩ := List.mem_filter.1 hp
    exact ⟨p, hp, beq_iff_eq.1 hkey⟩
  · rintro ⟨p, hp, hkey⟩
    exact List.ne_nil_of_mem (List.mem_filter.2 ⟨hp, beq_iff_eq.2 hkey⟩)

/-- The labels of the resolved tree are those of the tree that was read. -/
theorem labelKeys_resolve :
    (resolve o fileId root).root.descendants.filterMap (·.labelKey?) =
      root.descendants.filterMap (·.labelKey?) := by
  rw [Node.descendants_eq, Node.descendants_eq]
  exact labelKeys_of_settles (settles_resolve o fileId hfresh)

/-- A heading of a resolved tree holds no headings. -/
theorem noHeading_of_heading :
    AllOf (fun n => n.headingLevel?.isSome = true →
      AllOf (·.headingLevel?.isSome = false) n.children) (resolve o fileId root).root.children := by
  intro h hh hlevel
  have hmem : h ∈ (resolve o fileId root).root.headings := List.mem_filter.2 ⟨hh, hlevel⟩
  rw [headings_resolve o fileId hfresh, ← List.map_uncurry_zip_eq_zipWith] at hmem
  obtain ⟨⟨n, cs⟩, hpair, rfl⟩ := List.mem_map.1 hmem
  have hn : n ∈ descendantsOf root.children :=
    (List.mem_filter.1 (List.of_mem_zip hpair).1).1
  obtain ⟨level, htag⟩ := Node.isSome_headingLevel?.1 hlevel
  have htag : n.tag = .heading level := htag
  have hroot : AllOf Fresh root.children := ((Node.allOf_cons _ _).1 hfresh).2.1
  -- a heading holds running text, in which there are no headings
  have hinline : AllOf (·.tag.isInline = true) n.children :=
    allOf_isInline (hroot.children hn) ((hroot n hn).inline (by rw [htag]; rfl))
  have hread : AllOf (∀ level, ·.tag ≠ .heading level) n.children := by
    intro c hc level hlevel
    have hc : c.tag.isInline = true := hinline c hc
    rw [hlevel] at hc
    exact Bool.false_ne_true hc
  have hresolved : AllOf (fun c => ∀ level, c.tag ≠ .heading level)
      (resolveNodes (resolve o fileId root).labels fileId n.children).1 :=
    allOf_tag_resolveNodes (p := fun tag => ∀ level, tag ≠ .heading level) (fun _ => nofun) hread
  refine (Node.allOf_cons _ _).2 ⟨rfl, Node.allOf_nil, fun c hc => ?_⟩
  show c.headingLevel?.isSome = false
  rw [Node.headingLevel?_of_ne (hresolved c hc), Option.isSome_none]

/-- The number of a heading is the section number at every place in the heading. -/
theorem headingNumber?_of_mem_above {p : Place}
    (hp : p ∈ (resolve o fileId root).root.places) {h : Node} (hh : h ∈ p.above)
    (hlevel : h.headingLevel?.isSome = true) :
    h.headingNumber? = some (dotted (p.components o)) := by
  have hlast : (p.before.filter (·.headingLevel?.isSome)).getLast? = some h :=
    Node.getLast?_of_mem_above hp (noHeading_of_heading o fileId hfresh) hh hlevel
  obtain ⟨rest, hrest⟩ := Node.exists_rest_of_mem_places hp
  have hheadings : (resolve o fileId root).root.headings =
      p.before.filter (·.headingLevel?.isSome) ++
        (p.node :: rest).filter (·.headingLevel?.isSome) := by
    rw [Node.headings, Node.headingsOf, ← Node.descendants_eq, hrest, List.filter_append]
  have hnumbers := headingNumber?_headings_resolve o fileId hfresh
  have hlevels := filterMap_headingLevel?_headings_resolve o fileId hfresh
  rw [hheadings, List.filterMap_append] at hlevels
  rw [hheadings, List.map_append, Node.headingComponents, ← hlevels, sectionNumbers_append,
    List.map_append] at hnumbers
  -- the numbers of the headings before the place are those of their levels
  have hlength : (p.before.filter (·.headingLevel?.isSome)).length =
      ((p.before.filter (·.headingLevel?.isSome)).filterMap (·.headingLevel?)).length :=
    (length_filterMap_headingLevel? fun n hn => (List.mem_filter.1 hn).2).symm
  obtain ⟨hbefore, -⟩ := List.append_inj hnumbers (by simpa [length_sectionNumbers] using hlength)
  have hne : p.before.filterMap (·.headingLevel?) ≠ [] := by
    intro hnil
    rw [filterMap_headingLevel?_filter, hnil, List.length_nil, List.length_eq_zero_iff] at hlength
    rw [hlength] at hlast
    cases hlast
  have hends := congrArg List.getLast? hbefore
  rw [filterMap_headingLevel?_filter, List.getLast?_map, List.getLast?_map, hlast,
    getLast?_sectionNumbers _ hne] at hends
  exact Option.some.inj hends

end Document

/-- The keys of labels, and what they point to. Of several labels with a key the last counts: it
points to the innermost numbered statement around it, whatever statements without numbers are in
between, and otherwise to the section that it is in. In a heading that no numbered statement is
around, that is the section of the heading. -/
theorem labels_point_to_places (source : List Char) (fileId resolverId : Nat) (sections : Bool)
    (o : NumberingOptions) :
    let tree := (Document.parse source fileId).tree sections
    let r := resolve o resolverId tree
    r.root.descendants.filterMap (·.labelKey?) = tree.descendants.filterMap (·.labelKey?) ∧
      (∀ key, (r.labels.get? key).isSome = true ↔
        key ∈ tree.descendants.filterMap (·.labelKey?)) ∧
      ∀ (key : String) (p : Place),
        (r.root.places.filter (·.node.labelKey? == some key)).getLast? = some p →
        (∀ n, p.above.find? (·.isNumbered) = some n → ∃ number,
          n.attr? "id" = some number ∧ r.labels.get? key = some ⟨number, number⟩) ∧
        (p.above.find? (·.isNumbered) = none →
          r.labels.get? key =
              some ⟨dotted (p.components o), sectionAnchor (dotted (p.components o))⟩ ∧
            ∀ h ∈ p.above, h.headingLevel?.isSome = true →
              h.headingNumber? = some (dotted (p.components o))) := by
  intro tree r
  have hfresh := fresh_tree source fileId sections
  have hpaired := paired_resolve o resolverId hfresh (framed_tree source fileId sections)
  have hkeys : r.root.descendants.filterMap (·.labelKey?) = _ :=
    labelKeys_resolve o resolverId hfresh
  have hget := get?_labels_resolve o resolverId hfresh
  refine ⟨hkeys, fun key => ?_, fun key p hlast => ?_⟩
  · rw [← hkeys]
    exact isSome_get?_labels_resolve o resolverId hfresh key
  · have hp : p ∈ r.root.places := (List.mem_filter.1 (List.mem_of_getLast? hlast)).1
    have htarget : r.labels.get? key = some (p.labelTarget o) := by
      rw [hget key, hlast, Option.map_some]
    refine ⟨fun n hn => ?_, fun hnone => ⟨?_, fun h hh hlevel => ?_⟩⟩
    · have hmem : n ∈ r.root.descendants :=
        Node.mem_descendants_of_mem_above hp (List.mem_of_find?_eq_some hn)
      rw [Node.descendants_eq] at hmem
      obtain ⟨number, hid⟩ := exists_id_of_paired hpaired hmem (List.find?_some hn)
      refine ⟨number, hid, ?_⟩
      rw [htarget, Place.labelTarget, hn, Option.bind_some, Node.target?, hid]
      rfl
    · rw [htarget, Place.labelTarget, hnone]
      rfl
    · exact headingNumber?_of_mem_above o resolverId hfresh hp hh hlevel

/-- The label in the heading `# A` points to section `1`, and the one in the statement behind it, to
the statement. -/
theorem labels_point_to_places_of_heading :
    let r := resolve {} 0 ((Document.parse "# A {#a}\n\nTheorem: {#b} x {}".toList 0).tree true)
    r.labels.get? "a" = some ⟨"1", "sec1"⟩ ∧ r.labels.get? "b" = some ⟨"1.1", "1.1"⟩ := by
  intro r
  obtain ⟨-, -, hpoints⟩ :=
    labels_point_to_places "# A {#a}\n\nTheorem: {#b} x {}".toList 0 0 true {}
  constructor
  · have hplace : (r.root.places.filter (·.node.labelKey? == some "a")).getLast?.map
        (fun p => ((p.above.find? (·.isNumbered)).isSome, p.components {})) =
          some (false, [1]) := by decide +kernel
    obtain ⟨p, hlast, hp⟩ := Option.map_eq_some_iff.1 hplace
    obtain ⟨hnone, hcomponents⟩ := Prod.mk.inj hp
    obtain ⟨hget, -⟩ := (hpoints "a" p hlast).2 (by simpa using hnone)
    have hnumber : dotted (p.components {}) = "1" := by
      rw [hcomponents]
      decide
    rw [hget, hnumber]
    decide
  · have hplace : (r.root.places.filter (·.node.labelKey? == some "b")).getLast?.map
        (fun p => (p.above.find? (·.isNumbered)).map (·.attr? "id")) =
          some (some (some "1.1")) := by decide +kernel
    obtain ⟨p, hlast, hp⟩ := Option.map_eq_some_iff.1 hplace
    obtain ⟨n, hn, hid⟩ := Option.map_eq_some_iff.1 hp
    obtain ⟨number, hnumber, hget⟩ := (hpoints "b" p hlast).1 n hn
    obtain rfl : number = "1.1" := Option.some.inj (hnumber.symm.trans hid)
    exact hget

/-- A statement is around the heading `# H`, whose number is `1`, and the label in the heading
points to the statement, that is, to `0.1`. -/
theorem label_in_heading_of_statement :
    let r := resolve {} 0 ((Document.parse "Theorem: x\n\n# H {#a}\n\n{}".toList 0).tree true)
    ∃ p ∈ r.root.places, ∃ h ∈ p.above, p.node.labelKey? = some "a" ∧
      h.headingLevel? = some 1 ∧ h.headingNumber? = some "1" ∧
      r.labels.get? "a" = some ⟨"0.1", "0.1"⟩ := by
  intro r
  have hlabels : r.labels.get? "a" = some ⟨"0.1", "0.1"⟩ := by decide +kernel
  have hplaces : ∃ p ∈ r.root.places, p.node.labelKey? = some "a" ∧ ∃ h ∈ p.above,
      h.headingLevel? = some 1 ∧ h.headingNumber? = some "1" := by decide +kernel
  obtain ⟨p, hp, hkey, h, hh, hlevel, hnumber⟩ := hplaces
  exact ⟨p, hp, h, hh, hkey, hlevel, hnumber, hlabels⟩

end Treatise
