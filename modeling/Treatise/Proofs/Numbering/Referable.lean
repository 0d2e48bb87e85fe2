import Treatise.Proofs.Numbering.Labels
import Treatise.Proofs.Numbering.Targets
import Treatise.Proofs.Tree.Announced

/-!
# Statements that can be referred to

Where only those statements are numbered that can be referred to, whether a statement takes a number
is decided before its labels are recorded: by the labels that stand in it, at any depth. What a
label points to is decided later, by the innermost numbered statement around it.

* **`Resolution.PointsTo`** — a key points to the statement at a place of a resolved tree.
* `Resolution.PointsTo.mem`, `exists_pointsTo_of_mem` — labels stand in a numbered statement if and
  only if a key points to it or to a statement in it.
* **`numbered_iff_pointedTo`** — so these are the statements that are numbered, apart from proofs
  and from those with a star.
-/

namespace Treatise

open Node (Fresh AllOf Framed Keyed descendantsOf holdLabel)

/-- The key points to the statement at the place: it has the number of that statement, which is the
innermost numbered one around a label with the key. -/
structure Resolution.PointsTo (r : Resolution) (key : String) (q : Place) : Prop where
  label : ∃ l : Place, l.node.labelKey? = some key ∧ Place.IsInnermost (·.isNumbered) q l
  target : ∃ number, q.node.attr? "id" = some number ∧ r.labels.get? key = some ⟨number, number⟩

/-! ## Labels in a statement -/

/-- Where labels have keys, the nodes hold one if and only if there is a key. -/
theorem holdLabel_iff {ns : List Node} (h : AllOf Keyed ns) :
    holdLabel ns = true ↔ ∃ key, key ∈ (descendantsOf ns).filterMap (·.labelKey?) := by
  simp only [holdLabel, List.any_eq_true, beq_iff_eq, List.mem_filterMap]
  constructor
  · rintro ⟨n, hn, htag⟩
    obtain ⟨key, hkey⟩ := h n hn htag
    exact ⟨key, n, hn, by rw [Node.labelKey?, if_pos htag, hkey]⟩
  · rintro ⟨key, n, hn, hkey⟩
    refine ⟨n, hn, ?_⟩
    by_contra hne
    rw [Node.labelKey?, if_neg hne] at hkey
    cases hkey

section Walk

variable {o : NumberingOptions} {labels : Dict Target} {fileId : Nat} {p : Place} {m : Node}

theorem SettlesAt.isNumbered_eq (h : SettlesAt o labels fileId p m) :
    m.isNumbered = p.node.takesNumber o := by
  cases h with
  | numbered _ _ takes => exact takes.symm
  | unnumbered _ _ takes => exact takes.symm

theorem SettlesAt.isSome_id (h : SettlesAt o labels fileId p m) :
    (m.attr? "id").isSome = m.isNumbered := by
  rw [h.isNumbered_eq]
  cases h with
  | numbered _ _ takes =>
    rw [takes, id_setStatementNumber]
    rfl
  | unnumbered fresh _ takes =>
    rw [takes]
    show (p.node.attr? "id").isSome = false
    rw [fresh.no_id, Option.isSome_none]

/-- Both walks keep the labels in a statement. -/
theorem SettlesAt.labelKeys (h : SettlesAt o labels fileId p m) :
    (descendantsOf m.children).filterMap (·.labelKey?) =
      (descendantsOf p.node.children).filterMap (·.labelKey?) := by
  cases h with
  | numbered _ _ _ _ below => exact labelKeys_of_settles below
  | unnumbered _ _ _ below => exact labelKeys_of_settles below

/-- A statement that was announced takes a number if it is neither a proof nor starred and, where
this is asked, a label stands in it. -/
theorem SettlesAt.isNumbered_iff (h : SettlesAt o labels fileId p m)
    (hreferenced : o.onlyReferenced = true) (hkeyed : AllOf Keyed p.node.children)
    {opening : Opening} {proofs : Nat} (htag : p.node.tag = .block (.ofOpening opening proofs)) :
    m.isNumbered = true ↔ opening.kind.isProof = false ∧ opening.starred = false ∧
      ∃ key, key ∈ (descendantsOf m.children).filterMap (·.labelKey?) := by
  have hnumbered : (Statement.ofOpening opening proofs).numbered =
      (!opening.kind.isProof && !opening.starred) := rfl
  rw [h.isNumbered_eq, takesNumber_of_block htag, hreferenced, hnumbered, h.labelKeys]
  simp only [Bool.not_true, Bool.false_or, Bool.and_eq_true, Bool.not_eq_true',
    holdLabel_iff hkeyed, and_assoc]

end Walk

/-! ## What points into a statement -/

/-- The label of a key that points to a statement or to one in it stands in the statement. -/
theorem Resolution.PointsTo.mem {r : Resolution} {key : String} {p q : Place}
    (h : r.PointsTo key q) (hq : q = p ∨ q ∈ p.inside) :
    key ∈ (descendantsOf p.node.children).filterMap (·.labelKey?) := by
  obtain ⟨l, hkey, hinner⟩ := h.label
  have hl : l ∈ p.inside := by
    rcases hq with rfl | hq
    · exact hinner.mem
    · exact Node.mem_placesOf_of_mem_inside hq hinner.mem
  rw [← p.map_node_inside, List.filterMap_map]
  exact List.mem_filterMap.2 ⟨l, hl, hkey⟩

/-- How a statement was announced and what became of it, at its place in the resolved tree: its `id`
is its number, which it has if it is neither a proof nor starred and a key points to it or to a
statement in it. -/
structure NumberedIfPointedTo (r : Resolution) (n : Node) (p : Place) : Prop where
  isNumbered_iff : ∃ text opening proofs, Opening.read? text = some opening ∧
    n.tag = .block (.ofOpening opening proofs) ∧
      (p.node.isNumbered = true ↔ opening.kind.isProof = false ∧ opening.starred = false ∧
        ∃ key q, (q = p ∨ q ∈ p.inside) ∧ r.PointsTo key q)
  isSome_id : (p.node.attr? "id").isSome = p.node.isNumbered

section Document

variable {o : NumberingOptions} {fileId : Nat} {root : Node} (hfresh : AllOf Fresh [root])
  (hframed : AllOf Framed root.children)

include hfresh

/-- Where no two labels have the same key, a key has the target of its label. -/
theorem get?_labels_of_mem_places
    (hdistinct : (root.descendants.filterMap (·.labelKey?)).Nodup) {l : Place} {key : String}
    (hl : l ∈ (resolve o fileId root).root.places) (hkey : l.node.labelKey? = some key) :
    (resolve o fileId root).labels.get? key = some (l.labelTarget o) := by
  rw [← labelKeys_resolve o fileId hfresh, ← Node.map_node_places, List.filterMap_map] at hdistinct
  -- the last label with the key, which counts, is the only one
  have honly : (resolve o fileId root).root.places.filter (·.node.labelKey? == some key) = [l] := by
    simp only [beq_eq_decide]
    exact filter_eq_singleton hdistinct hl hkey
  rw [get?_labels_resolve o fileId hfresh, honly]
  rfl

include hframed

theorem pointsTo_of_isInnermost (hdistinct : (root.descendants.filterMap (·.labelKey?)).Nodup)
    {l q : Place} {key : String} (hq : q ∈ (resolve o fileId root).root.places)
    (hinner : Place.IsInnermost (·.isNumbered) q l) (hkey : l.node.labelKey? = some key) :
    (resolve o fileId root).PointsTo key q := by
  have hl : l ∈ (resolve o fileId root).root.places :=
    Node.mem_placesOf_of_mem_inside hq hinner.mem
  have hmem : q.node ∈ descendantsOf (resolve o fileId root).root.children := by
    rw [← Node.descendants_eq, ← Node.map_node_places]
    exact List.mem_map_of_mem hq
  obtain ⟨number, hid⟩ :=
    exists_id_of_paired (paired_resolve o fileId hfresh hframed) hmem hinner.isSort
  refine ⟨⟨l, hkey, hinner⟩, number, hid, ?_⟩
  rw [get?_labels_of_mem_places hfresh hdistinct hl hkey, Place.labelTarget, hinner.find?_above,
    Option.bind_some, Node.target?, hid]
  rfl

/-- A label in a numbered statement gives a key that points to the statement or to one in it. -/
theorem exists_pointsTo_of_mem (hdistinct : (root.descendants.filterMap (·.labelKey?)).Nodup)
    {p : Place} (hp : p ∈ (resolve o fileId root).root.places)
    (hnumbered : p.node.isNumbered = true) {key : String}
    (hkey : key ∈ (descendantsOf p.node.children).filterMap (·.labelKey?)) :
    ∃ q, (q = p ∨ q ∈ p.inside) ∧ (resolve o fileId root).PointsTo key q := by
  rw [← p.map_node_inside, List.filterMap_map] at hkey
  obtain ⟨l, hl, hkey⟩ := List.mem_filterMap.1 hkey
  -- the statement itself is numbered, so that there is an innermost numbered one around the label
  obtain ⟨q, hq, hinner⟩ := Node.exists_innermost_of_mem_inside hnumbered hl
  have hplace : q ∈ (resolve o fileId root).root.places := by
    rcases hq with rfl | hq
    · exact hp
    · exact Node.mem_placesOf_of_mem_inside hp hq
  exact ⟨q, hq, pointsTo_of_isInnermost hfresh hframed hdistinct hplace hinner hkey⟩

/-- One statement, with what both walks make of it. -/
theorem numberedIfPointedTo_of_settlesAt (hreferenced : o.onlyReferenced = true)
    (hdistinct : (root.descendants.filterMap (·.labelKey?)).Nodup) {n p : Place}
    (hsettles : SettlesAt o (resolve o fileId root).labels fileId n p.node)
    (hp : p ∈ (resolve o fileId root).root.places) (hkeyed : AllOf Keyed n.node.children)
    {text : List Char} {opening : Opening} {proofs : Nat}
    (hread : Opening.read? text = some opening)
    (htag : n.node.tag = .block (.ofOpening opening proofs)) :
    NumberedIfPointedTo (resolve o fileId root) n.node p := by
  have hiff := hsettles.isNumbered_iff hreferenced hkeyed htag
  refine ⟨⟨text, opening, proofs, hread, htag, ?_⟩, hsettles.isSome_id⟩
  constructor
  · intro hnumbered
    obtain ⟨hproof, hstarred, key, hkey⟩ := hiff.1 hnumbered
    obtain ⟨q, hq, hpoints⟩ := exists_pointsTo_of_mem hfresh hframed hdistinct hp hnumbered hkey
    exact ⟨hproof, hstarred, key, q, hq, hpoints⟩
  · rintro ⟨hproof, hstarred, key, q, hq, hpoints⟩
    exact hiff.2 ⟨hproof, hstarred, key, hpoints.mem hq⟩

end Document

/-- Where only those statements take a number that can be referred to, and no two labels have the
same key: of the statements that are neither proofs nor starred, just those are numbered to which a
key points, or which have a statement in them to which one points. -/
theorem numbered_iff_pointedTo (source : List Char) (fileId resolverId : Nat) (sections : Bool)
    {o : NumberingOptions} (hreferenced : o.onlyReferenced = true) :
    let tree := (Document.parse source fileId).tree sections
    let r := resolve o resolverId tree
    (tree.descendants.filterMap (·.labelKey?)).Nodup →
      List.Forall₂ (NumberedIfPointedTo r) (tree.descendants.filter (·.isStatement))
        (r.root.places.filter (·.node.isStatement)) := by
  intro tree r hdistinct
  have hfresh := fresh_tree source fileId sections
  have hpaired : Paired (SettlesAt o r.labels resolverId) tree.places r.root.children :=
    paired_of_settles (settles_resolve o resolverId hfresh) rfl
  -- the statements of both trees are taken as places, to know in which tree each of them is
  rw [Paired, ← Node.descendants_eq, ← Node.map_node_places, List.filter_map,
    List.forall₂_map_right_iff] at hpaired
  rw [← Node.map_node_places, List.filter_map, List.forall₂_map_left_iff]
  refine List.forall₂_iff_zip.2 ⟨hpaired.length_eq, fun {n p} hmem => ?_⟩
  have hsettles : SettlesAt o r.labels resolverId n p.node := List.forall₂_zip hpaired hmem
  obtain ⟨hn, hp⟩ := List.of_mem_zip hmem
  obtain ⟨hn, hstatement⟩ := List.mem_filter.1 hn
  have hnode : n.node ∈ tree.descendants := by
    rw [← Node.map_node_places]
    exact List.mem_map_of_mem hn
  obtain ⟨st, hst⟩ := Option.isSome_iff_exists.1 hstatement
  have htag : n.node.tag = .block st := statement?_eq_some_iff.1 hst
  obtain ⟨text, opening, proofs, hread, rfl⟩ := exists_opening_of_mem_tree hnode htag
  rw [Node.descendants_eq] at hnode
  apply numberedIfPointedTo_of_settlesAt hfresh (framed_tree source fileId sections) hreferenced
    hdistinct hsettles (List.mem_filter.1 hp).1 _ hread htag
  exact (keyed_tree source fileId sections).children hnode

/-- The source of a theorem in which a lemma stands, and only the lemma has a label. -/
theorem numbered_iff_pointedTo_of_nested_lemma :
    let tree := (Document.parse "Theorem: x\n\n{#a} Lemma: y {}\n\n{}".toList 0).tree false
    let r := resolve { onlyReferenced := true } 0 tree
    (tree.descendants.filterMap (·.labelKey?)).Nodup ∧
      List.Forall₂ (NumberedIfPointedTo r) (tree.descendants.filter (·.isStatement))
        (r.root.places.filter (·.node.isStatement)) := by
  intro tree r
  have hdistinct : (tree.descendants.filterMap (·.labelKey?)).Nodup := by decide +kernel
  exact ⟨hdistinct, numbered_iff_pointedTo _ 0 0 false rfl hdistinct⟩

/-- The theorem around the lemma is numbered, too, though the only key points to the lemma. -/
theorem numbered_around_nested_lemma :
    let tree := (Document.parse "Theorem: x\n\n{#a} Lemma: y {}\n\n{}".toList 0).tree false
    let r := resolve { onlyReferenced := true } 0 tree
    (tree.descendants.filterMap (·.labelKey?)).Nodup ∧
      ∃ p ∈ r.root.places, p.node.isNumbered = true ∧
        (∀ key target, r.labels.get? key = some target → p.node.attr? "id" ≠ some target.anchor) ∧
          ∀ key, ¬r.PointsTo key p := by
  intro tree r
  have hdistinct : (tree.descendants.filterMap (·.labelKey?)).Nodup := by decide +kernel
  have hentries : r.labels.entries = [("a", ⟨"0.2", "0.2"⟩)] := by decide +kernel
  have hplaces : ∃ p ∈ r.root.places, p.node.isNumbered = true ∧
      p.node.attr? "id" = some "0.1" := by decide +kernel
  obtain ⟨p, hp, hnumbered, hid⟩ := hplaces
  have hother (key : String) (target : Target) (hget : r.labels.get? key = some target) :
      p.node.attr? "id" ≠ some target.anchor := by
    have hmem := Dict.mem_entries_iff.2 hget
    rw [hentries, List.mem_singleton] at hmem
    have htarget : target = ⟨"0.2", "0.2"⟩ := congrArg Prod.snd hmem
    rw [hid, htarget]
    decide
  refine ⟨hdistinct, p, hp, hnumbered, hother, fun key hpoints => ?_⟩
  obtain ⟨number, hnumber, hget⟩ := hpoints.target
  exact hother key _ hget hnumber

end Treatise
