import Mathlib.Data.Finset.Card
import Mathlib.Data.List.Forall2
import Treatise.Proofs.Render.Links

/-!
# Citations and bibliography entries

The entries of a bibliography are numbered before the document is rendered, each key once. Here it
is said what the renderer makes of an entry and of a citation, wherever they stand.

* **`Bibliography.Numbers`** — a bibliography numbers keys from 1 in the order in which they come
  for the first time.
* **`Node.reached`** — the nodes that the renderer comes to. It does not look into formulas, images
  and the like.
* **`Bibliography.Shows`** — the element of an entry or a citation, with the number of its key.
* **`CitesByNumber`** — a document in which entries, citations and warnings agree.
* **`citesByNumber_of_hasKey`** — every document is rendered like this, if its root is no entry.
-/

namespace Treatise

open List (Forall₂)
open Node (AllOf descendantsOf)

/-! ## Numbers -/

namespace Bibliography

variable {b : Bibliography} {keys : List String} {key key' : String}

theorem prefix_add (b : Bibliography) (key : String) : b <+: b.add key := by
  unfold add
  split
  · exact List.prefix_rfl
  · exact List.prefix_append b [key]

theorem nodup_add (h : b.Nodup) (key : String) : (b.add key).Nodup := by
  unfold add
  split
  · exact h
  · next hnot =>
    rw [List.contains_iff_mem] at hnot
    rw [← List.concat_eq_append]
    exact h.concat hnot

theorem prefix_foldl_add (b : Bibliography) (keys : List String) : b <+: keys.foldl add b := by
  induction keys generalizing b with
  | nil => exact List.prefix_rfl
  | cons k keys ih => exact (prefix_add b k).trans (ih (b.add k))

theorem nodup_foldl_add (h : b.Nodup) (keys : List String) : (keys.foldl add b).Nodup := by
  induction keys generalizing b with
  | nil => exact h
  | cons k keys ih => exact ih (nodup_add h k)

theorem number?_of_mem (h : key ∈ b) : b.number? key = some (b.idxOf key + 1) := by
  have hfound : b.idxOf? key = some (b.idxOf key) :=
    List.findIdx?_eq_some_of_exists ⟨key, h, beq_self_eq_true key⟩
  rw [number?, hfound, Option.map_some]

theorem number?_isSome_iff : (b.number? key).isSome = true ↔ key ∈ b := by
  rw [number?, Option.isSome_map, List.isSome_idxOf?]

/-- The bibliography numbers the keys of a list from 1, each once, in the order in which they come
for the first time. -/
structure Numbers (b : Bibliography) (keys : List String) : Prop where
  numbered : ∀ key, (b.number? key).isSome = true ↔ key ∈ keys
  gapless : ∀ i, (∃ key, b.number? key = some i) ↔ 1 ≤ i ∧ i ≤ keys.toFinset.card
  ordered : ∀ key key' i i', b.number? key = some i → b.number? key' = some i' →
    (i < i' ↔ keys.idxOf key < keys.idxOf key')

/-- One key comes before another if some part at the start has it and not the other. -/
theorem idxOf_lt_idxOf_iff (h : key ∈ keys) : keys.idxOf key < keys.idxOf key' ↔
    ∃ front, front <+: keys ∧ key ∈ front ∧ key' ∉ front := by
  constructor
  · intro hlt
    refine ⟨keys.take (keys.idxOf key'), List.take_prefix _ _, (List.mem_take_iff_idxOf_lt h).2 hlt,
      fun hmem => ?_⟩
    exact lt_irrefl _ ((List.mem_take_iff_idxOf_lt (List.mem_of_mem_take hmem)).1 hmem)
  · rintro ⟨front, ⟨rest, rfl⟩, hmem, hnot⟩
    rw [List.idxOf_append_of_mem hmem, List.idxOf_append_of_notMem hnot]
    exact Nat.lt_add_right _ (List.idxOf_lt_length_iff.2 hmem)

/-- A bibliography keeps the order of first places. -/
theorem idxOf_foldl_add_lt (h : key ∈ keys) (hlt : keys.idxOf key < keys.idxOf key') :
    (keys.foldl add []).idxOf key < (keys.foldl add []).idxOf key' := by
  obtain ⟨front, ⟨rest, rfl⟩, hmem, hnot⟩ := (idxOf_lt_idxOf_iff h).1 hlt
  rw [idxOf_lt_idxOf_iff (mem_foldl_add.2 (.inr h))]
  refine ⟨front.foldl add [], ?_, mem_foldl_add.2 (.inr hmem), ?_⟩
  · rw [List.foldl_append]
    exact prefix_foldl_add _ rest
  · rw [mem_foldl_add]
    exact fun hor => hor.elim List.not_mem_nil hnot

theorem idxOf_foldl_add_lt_iff (h : key ∈ keys) (h' : key' ∈ keys) :
    (keys.foldl add []).idxOf key < (keys.foldl add []).idxOf key' ↔
      keys.idxOf key < keys.idxOf key' := by
  refine ⟨fun hlt => ?_, idxOf_foldl_add_lt h⟩
  rcases Nat.lt_trichotomy (keys.idxOf key) (keys.idxOf key') with hord | hord | hord
  · exact hord
  · rw [(List.idxOf_inj h).1 hord] at hlt
    exact absurd hlt (lt_irrefl _)
  · exact absurd hlt (Nat.lt_asymm (idxOf_foldl_add_lt h' hord))

theorem number?_eq_some_iff {i : Nat} :
    b.number? key = some i ↔ key ∈ b ∧ b.idxOf key + 1 = i := by
  constructor
  · intro h
    have hmem : key ∈ b := number?_isSome_iff.1 (by rw [h]; rfl)
    rw [number?_of_mem hmem] at h
    exact ⟨hmem, Option.some.inj h⟩
  · rintro ⟨hmem, rfl⟩
    exact number?_of_mem hmem

/-- The numbers go from 1 on, one for each key. -/
theorem exists_number?_iff (h : b.Nodup) {i : Nat} :
    (∃ key, b.number? key = some i) ↔ 1 ≤ i ∧ i ≤ b.length := by
  constructor
  · rintro ⟨key, hkey⟩
    obtain ⟨hmem, rfl⟩ := number?_eq_some_iff.1 hkey
    exact ⟨Nat.le_add_left 1 _, List.idxOf_lt_length_iff.2 hmem⟩
  · rintro ⟨hpos, hle⟩
    have hlt : i - 1 < b.length := by omega
    refine ⟨b[i - 1], number?_eq_some_iff.2 ⟨List.getElem_mem hlt, ?_⟩⟩
    rw [h.idxOf_getElem, Nat.sub_add_cancel hpos]

theorem numbers_foldl_add (keys : List String) : Numbers (keys.foldl add []) keys := by
  have hmem (key : String) : key ∈ keys.foldl add [] ↔ key ∈ keys := by simp [mem_foldl_add]
  have hnodup : (keys.foldl add []).Nodup := nodup_foldl_add List.nodup_nil keys
  refine ⟨fun key => number?_isSome_iff.trans (hmem key), fun i => ?_, fun key key' i i' h h' => ?_⟩
  · have hcard : keys.toFinset.card = (keys.foldl add []).length := by
      rw [← List.toFinset_card_of_nodup hnodup]
      congr 1
      ext key
      rw [List.mem_toFinset, List.mem_toFinset, hmem]
    rw [hcard]
    exact exists_number?_iff hnodup
  · obtain ⟨hin, rfl⟩ := number?_eq_some_iff.1 h
    obtain ⟨hin', rfl⟩ := number?_eq_some_iff.1 h'
    rw [Nat.add_lt_add_iff_right]
    exact idxOf_foldl_add_lt_iff ((hmem key).1 hin) ((hmem key').1 hin')

end Bibliography

/-! ## What the renderer comes to -/

/-- A node that is rendered as a whole, so that the renderer does not look into it. -/
def Tag.isWhole : Tag → Bool
  | .codeBlock _ | .code | .math _ | .html | .rule | .hardBreak | .image | .label | .citation
  | .bibEntry => true
  | _ => false

/-- A citation or an entry of the bibliography. -/
def Tag.isCiting : Tag → Bool
  | .citation | .bibEntry => true
  | _ => false

theorem Tag.eq_of_isCiting {t : Tag} (h : t.isCiting = true) : t = .citation ∨ t = .bibEntry := by
  cases t <;> simp_all [Tag.isCiting]

mutual

/-- The nodes of a tree that the renderer comes to, in document order. -/
def Node.reached : Node → List Node
  | ⟨tag, attrs, flags, text, tail, children⟩ =>
    ⟨tag, attrs, flags, text, tail, children⟩ :: if tag.isWhole then [] else reachedOf children

/-- The nodes of a forest that the renderer comes to. -/
def reachedOf : List Node → List Node
  | [] => []
  | n :: ns => n.reached ++ reachedOf ns

end

theorem Node.reached_eq (n : Node) :
    n.reached = n :: if n.tag.isWhole then [] else reachedOf n.children := by
  cases n
  rfl

/-! ## The elements of citations and entries -/

namespace Html

/-- The classes by which a reader tells citations and entries. -/
def citingClasses : List String := ["citation", "citation unknown", "bibitem anchor"]

/-- The element of a citation or an entry. -/
def IsCiting (e : Start) : Prop := ∃ name ∈ citingClasses, HasClass name e

instance (e : Start) : Decidable (IsCiting e) := inferInstanceAs (Decidable (∃ _ ∈ _, _))

mutual

/-- The elements of citations and entries in a piece of HTML, in document order. -/
def citing : Html → List Html
  | text _ => []
  | raw _ => []
  | element name attrs content =>
    if IsCiting (name, attrs) then element name attrs content :: citingOf content
    else citingOf content
  | void name attrs => if IsCiting (name, attrs) then [void name attrs] else []

def citingOf : List Html → List Html
  | [] => []
  | h :: hs => citing h ++ citingOf hs

end

@[simp] theorem citingOf_append (hs ks : List Html) :
    citingOf (hs ++ ks) = citingOf hs ++ citingOf ks := by
  induction hs with
  | nil => rfl
  | cons h hs ih => rw [List.cons_append, citingOf, citingOf, ih, List.append_assoc]

theorem citingOf_element {name value s : String} {attrs : List (String × String)}
    (h : value ∈ citingClasses) :
    citingOf [element name (("class", value) :: attrs) [text s]] =
      [element name (("class", value) :: attrs) [text s]] := by
  have hciting : IsCiting (name, ("class", value) :: attrs) := ⟨value, h, List.mem_cons_self⟩
  simp [citingOf, citing, hciting]

end Html

namespace Bibliography

open Html (element text)

/-- The element of a node that is a citation or an entry. Both show the number of the key, and a
citation of a key without a number shows the key. -/
inductive Shows (b : Bibliography) (n : Node) : Html → Prop
  | entry (i : Nat) (htag : n.tag = .bibEntry) (hnumber : b.number? n.key = some i) :
    Shows b n (element "span" [("class", "bibitem anchor"), ("id", "bib-" ++ n.key)]
      [text ("[" ++ Nat.repr i ++ "]")])
  | citation (i : Nat) (htag : n.tag = .citation) (hnumber : b.number? n.key = some i) :
    Shows b n (element "a" [("class", "citation"), ("href", "#bib-" ++ n.key)]
      [text ("[" ++ Nat.repr i ++ "]")])
  | unknown (htag : n.tag = .citation) (hnumber : b.number? n.key = none) :
    Shows b n (element "span" [("class", "citation unknown")] [text ("[" ++ n.key ++ "]")])

/-- A citation of a key that has no number. -/
def Misses (b : Bibliography) (n : Node) : Prop := n.tag = .citation ∧ b.number? n.key = none

instance (b : Bibliography) (n : Node) : Decidable (b.Misses n) :=
  inferInstanceAs (Decidable (_ ∧ _))

theorem not_misses_of_isCiting {b : Bibliography} {n : Node} (h : n.tag.isCiting = false) :
    ¬ b.Misses n := by
  rintro ⟨htag, -⟩
  rw [htag] at h
  cases h

/-- The warning of a citation without an entry. -/
def warning (fileId : Nat) (n : Node) : Issue := ⟨.unknownCitation n.key, none, fileId, []⟩

end Bibliography

namespace HtmlRenderer

variable {b : Bibliography} {fileId : Nat} {n : Node}

open Html (HasClass IsCiting citingOf)
open Bibliography (Shows)

theorem isSome_leaf? : (leaf? b fileId n).isSome = n.tag.isWhole := by
  cases htag : n.tag with
  | math display => cases display <;> simp [leaf?, htag, Tag.isWhole]
  | _ => simp [leaf?, htag, Tag.isWhole]

/-- A class is told from those of citations and entries by its first two characters. -/
theorem notMem_of_take {name : String} {start : List Char} (h : name.toList.take 2 = start)
    (hother : ∀ citing ∈ Html.citingClasses, citing.toList.take 2 ≠ start) :
    name ∉ Html.citingClasses :=
  fun hmem => hother name hmem h

theorem statementClasses_notMem (n : Node) (st : Statement) :
    statementClasses n st ∉ Html.citingClasses := by
  have hstart : (statementClasses n st).toList.take 2 = ['b', 'l'] := by simp [statementClasses]
  exact notMem_of_take hstart (by decide)

theorem language_notMem (language : String) :
    "language-" ++ language ∉ Html.citingClasses := by
  have hstart : ("language-" ++ language).toList.take 2 = ['l', 'a'] := by simp
  exact notMem_of_take hstart (by decide)

theorem spanClasses_notMem (n : Node) (role : Role) :
    spanClasses n role ∉ Html.citingClasses := by
  unfold spanClasses
  cases role <;> cases n.flags.anchor <;> cases n.flags.nested <;> decide

/-- What is around the content of a node is no citation and no entry. -/
theorem citingOf_wrap (inHead : Bool) (n : Node) (content : List Html) :
    citingOf (wrap inHead n content) = citingOf content := by
  cases htag : n.tag with
  | span role =>
    by_cases hlink : role = .referenceNumber ∧ (n.attr? "href").isSome = true
    · simp [wrap, htag, hlink, citingOf, Html.citing, IsCiting, HasClass, mem_attrOf,
        Html.citingClasses]
    · have hclass := spanClasses_notMem n role
      simp only [wrap, htag, if_neg hlink]
      simp [citingOf, Html.citing, IsCiting, HasClass, mem_attrOf, hclass]
  | block st =>
    have hclass := statementClasses_notMem n st
    simp [wrap, blockElement, htag, citingOf, Html.citing, IsCiting, HasClass, mem_attrOf,
      mem_attrIf, hclass]
  | list ordered start =>
    cases ordered with
    | false => simp [wrap, blockElement, htag, citingOf, Html.citing, IsCiting, HasClass]
    | true =>
      by_cases hstart : start = 1 <;>
        simp [wrap, blockElement, htag, hstart, citingOf, Html.citing, IsCiting, HasClass]
  | _ =>
    simp [wrap, blockElement, lineElement, htag, citingOf, Html.citing, IsCiting, HasClass,
      mem_attrOf, Html.citingClasses]

theorem shows_citation (h : n.tag = .citation) :
    Forall₂ b.Shows [n] (citingOf (citation b fileId n).1) ∧
      (citation b fileId n).2 = ([n].filter b.Misses).map (Bibliography.warning fileId) := by
  cases hnumber : b.number? n.key with
  | some i =>
    have hmisses : ¬ b.Misses n := fun hmisses => by simp [hmisses.2] at hnumber
    rw [Node.key] at hnumber
    simp only [citation, hnumber]
    rw [Html.citingOf_element (by decide), List.filter_cons_of_neg (by simpa using hmisses)]
    exact ⟨.cons (.citation i h hnumber) .nil, rfl⟩
  | none =>
    have hmisses : b.Misses n := ⟨h, hnumber⟩
    rw [Node.key] at hnumber
    simp only [citation, hnumber]
    rw [Html.citingOf_element (by decide), List.filter_cons_of_pos (by simpa using hmisses)]
    exact ⟨.cons (.unknown h hnumber) .nil, rfl⟩

theorem shows_bibEntry (h : n.tag = .bibEntry) (hnumber : (b.number? n.key).isSome = true) :
    Forall₂ b.Shows [n] (citingOf [bibEntry b n]) := by
  obtain ⟨i, hi⟩ := Option.isSome_iff_exists.1 hnumber
  have hshown := Shows.entry i h hi
  rw [Node.key] at hi
  rw [bibEntry, hi, Html.citingOf_element (by decide)]
  exact .cons hshown .nil

/-- No other node that is rendered as a whole is one of them, and none is warned of. -/
theorem citingOf_leaf? {r : List Html × List Issue} (h : leaf? b fileId n = some r)
    (hciting : n.tag.isCiting = false) : citingOf r.1 = [] ∧ r.2 = [] := by
  cases htag : n.tag with
  | codeBlock language =>
    simp only [leaf?, htag, Option.some.injEq] at h
    obtain rfl := h
    have hclass := language_notMem
    cases language <;>
      simp [citingOf, Html.citing, IsCiting, HasClass, mem_attrIf, hclass]
  | math display =>
    cases display <;>
    · simp only [leaf?, htag, Option.some.injEq] at h
      obtain rfl := h
      exact ⟨rfl, rfl⟩
  | citation => simp [htag, Tag.isCiting] at hciting
  | bibEntry => simp [htag, Tag.isCiting] at hciting
  | _ =>
    -- a node with content is no such node, and the others have no class or one of their own
    simp only [leaf?, htag, Option.some.injEq, reduceCtorEq] at h <;>
    · obtain rfl := h
      simp [citingOf, Html.citing, IsCiting, HasClass, mem_attrOf, Html.citingClasses]

end HtmlRenderer

/-! ## The walk -/

section Walk

variable {b : Bibliography} {fileId : Nat} {n : Node} {ns : List Node} {s : HtmlState}

open Html (citingOf)

theorem HtmlState.issues_enter (s : HtmlState) (t : Tag) : (s.enter t).issues = s.issues := by
  unfold enter
  split <;> rfl

theorem HtmlState.issues_leave (s : HtmlState) (t : Tag) : (s.leave t).issues = s.issues := by
  unfold leave
  split <;> rfl

/-- Behind some nodes, the HTML shows the citations and entries among them, and there is a warning
for each citation without an entry. -/
structure ShowsCiting (b : Bibliography) (fileId : Nat) (ns : List Node) (s : HtmlState)
    (r : List Html × HtmlState) : Prop where
  shown : Forall₂ b.Shows (ns.filter (·.tag.isCiting)) (citingOf r.1)
  warned : r.2.issues = s.issues ++ (ns.filter b.Misses).map (Bibliography.warning fileId)

theorem ShowsCiting.append {ms : List Node} {r r' : List Html × HtmlState}
    (h : ShowsCiting b fileId ns s r) (h' : ShowsCiting b fileId ms r.2 r') (between : String) :
    ShowsCiting b fileId (ns ++ ms) s (r.1 ++ .text between :: r'.1, r'.2) where
  shown := by
    rw [List.filter_append, Html.citingOf_append]
    exact List.rel_append h.shown h'.shown
  warned := by
    rw [List.filter_append, List.map_append, ← List.append_assoc, ← h.warned]
    exact h'.warned

/-- A node that the renderer does not look into. -/
theorem showsCiting_of_leaf? {r : List Html × List Issue}
    (h : HtmlRenderer.leaf? b fileId n = some r)
    (hentry : n.tag = .bibEntry → (b.number? n.key).isSome = true) :
    ShowsCiting b fileId [n] s (r.1, { s with issues := s.issues ++ r.2 }) := by
  cases hciting : n.tag.isCiting with
  | false =>
    have hmisses : ¬ b.Misses n := Bibliography.not_misses_of_isCiting hciting
    obtain ⟨hshown, hwarned⟩ := HtmlRenderer.citingOf_leaf? h hciting
    refine ⟨?_, ?_⟩
    · rw [List.filter_cons_of_neg (by simp [hciting]), hshown]
      exact .nil
    · rw [List.filter_cons_of_neg (by simpa using hmisses), hwarned]
      rfl
  | true =>
    rcases Tag.eq_of_isCiting hciting with htag | htag
    · -- a citation shows the number of its key, or warns that there is none
      obtain rfl : HtmlRenderer.citation b fileId n = r := by
        simpa [HtmlRenderer.leaf?, htag] using h
      obtain ⟨hshown, hwarned⟩ := @HtmlRenderer.shows_citation b fileId n htag
      refine ⟨?_, congrArg (s.issues ++ ·) hwarned⟩
      rwa [List.filter_cons_of_pos (by simp [hciting])]
    · -- an entry is in the bibliography, and never warns
      obtain rfl : ([HtmlRenderer.bibEntry b n], []) = r := by
        simpa [HtmlRenderer.leaf?, htag] using h
      have hmisses : ¬ b.Misses n := fun hmisses => by simp [hmisses.1] at htag
      refine ⟨?_, ?_⟩
      · rw [List.filter_cons_of_pos (by simp [hciting])]
        exact HtmlRenderer.shows_bibEntry htag (hentry htag)
      · rw [List.filter_cons_of_neg (by simpa using hmisses)]
        rfl

/-- A node around its content. -/
theorem ShowsCiting.wrap (h : HtmlRenderer.leaf? b fileId n = none)
    (hcontent : ShowsCiting b fileId (reachedOf n.children) (s.enter n.tag)
      (nodesToHtml b fileId n.children (s.enter n.tag))) :
    ShowsCiting b fileId (n :: reachedOf n.children) s (n.toHtml b fileId s) := by
  have hwhole : n.tag.isWhole = false := by rw [← HtmlRenderer.isSome_leaf?, h]; rfl
  have hciting : n.tag.isCiting = false := by
    cases htag : n.tag <;> simp_all [Tag.isCiting, Tag.isWhole]
  have hmisses : ¬ b.Misses n := Bibliography.not_misses_of_isCiting hciting
  rw [toHtml_of_none h]
  refine ⟨?_, ?_⟩
  · rw [List.filter_cons_of_neg (by simp [hciting]), HtmlRenderer.citingOf_wrap]
    exact hcontent.shown
  · rw [List.filter_cons_of_neg (by simpa using hmisses)]
    dsimp only
    rw [HtmlState.issues_leave, hcontent.warned, HtmlState.issues_enter]

theorem showsCiting_toHtml (hentry : n.tag = .bibEntry → (b.number? n.key).isSome = true)
    (hcontent : ∀ s, ShowsCiting b fileId (reachedOf n.children) s
      (nodesToHtml b fileId n.children s)) :
    ShowsCiting b fileId n.reached s (n.toHtml b fileId s) := by
  rw [Node.reached_eq, ← @HtmlRenderer.isSome_leaf? b fileId n]
  cases hleaf : HtmlRenderer.leaf? b fileId n with
  | some r =>
    rw [toHtml_of_leaf hleaf]
    exact showsCiting_of_leaf? hleaf hentry
  | none => exact ShowsCiting.wrap hleaf (hcontent _)

/-- Where every entry has a number, all citations and entries that the renderer comes to are shown.
Induction on the forest; a citation and an entry are no places that it goes on from. -/
theorem showsCiting_nodesToHtml
    (hentries : AllOf (fun n => n.tag = .bibEntry → (b.number? n.key).isSome = true) ns) :
    ShowsCiting b fileId (reachedOf ns) s (nodesToHtml b fileId ns s) := by
  induction ns using Node.forest_induction generalizing s with
  | nil => exact ⟨.nil, (List.append_nil s.issues).symm⟩
  | cons n ns below behind =>
    obtain ⟨hentry, hbelow, hbehind⟩ := (Node.allOf_cons n ns).1 hentries
    have hnode : ShowsCiting b fileId n.reached s (n.toHtml b fileId s) :=
      showsCiting_toHtml hentry fun _ => below hbelow
    exact hnode.append (behind hbehind) n.tail

end Walk

/-! ## Documents -/

/-- A citation or an entry has a key. -/
def Node.HasKey (n : Node) : Prop := n.tag.isCiting = true → (n.attr? "key").isSome = true

/-- The keys of all entries of a document, in document order. -/
def Node.entryKeys (root : Node) : List String :=
  ((descendantsOf [root]).filter (·.tag == .bibEntry)).map Node.key

/-- The keys of the entries are numbered in their order. Each citation and each entry that the
renderer comes to shows the number of its key, and there is one warning for each citation of a key
without an entry. -/
structure CitesByNumber (root : Node) (fileId : Nat) : Prop where
  numbers : (Bibliography.ofDocument root).Numbers root.entryKeys
  shown : Forall₂ (Bibliography.ofDocument root).Shows (root.reached.filter (·.tag.isCiting))
    (Html.citingOf (root.toHtml (.ofDocument root) fileId {}).1)
  printed : (renderHtml root fileId).1 = Html.printAll (root.toHtml (.ofDocument root) fileId {}).1
  warned : (renderHtml root fileId).2 =
    (root.reached.filter fun n => n.tag = .citation ∧ n.key ∉ root.entryKeys).map
      (Bibliography.warning fileId)

/-- The bibliography is made of the entries below the root. -/
theorem ofDocument_eq_foldl_add {root : Node} (hkeys : AllOf Node.HasKey [root])
    (hroot : root.tag ≠ .bibEntry) :
    Bibliography.ofDocument root = root.entryKeys.foldl Bibliography.add [] := by
  have hentries : root.entryKeys = (root.findAll (·.tag == .bibEntry)).map Node.key := by
    rw [Node.entryKeys, Node.descendantsOf_cons, List.filter_cons_of_neg (by simpa using hroot),
      Node.descendantsOf_nil, List.append_nil, ← Node.descendants_eq]
    rfl
  have hmap : (root.findAll (·.tag == .bibEntry)).filterMap (·.attr? "key") =
      (root.findAll (·.tag == .bibEntry)).map Node.key := by
    rw [← List.filterMap_eq_map]
    refine List.filterMap_congr fun n hn => ?_
    obtain ⟨hn, htag⟩ := List.mem_filter.1 hn
    have hmem : n ∈ descendantsOf [root] := by
      rw [Node.descendantsOf_cons, ← Node.descendants_eq]
      exact List.mem_cons_of_mem _ (List.mem_append_left _ hn)
    obtain ⟨key, hkey⟩ := Option.isSome_iff_exists.1
      (hkeys n hmem (by rw [beq_iff_eq.1 htag]; rfl))
    simp [Node.key, hkey]
  rw [Bibliography.ofDocument, hmap, hentries]

/-- A document in which every citation and every entry has a key, and whose root is no entry itself,
is rendered with the numbers of its entries, wherever the citations stand. -/
theorem citesByNumber_of_hasKey (root : Node) (fileId : Nat) (hkeys : AllOf Node.HasKey [root])
    (hroot : root.tag ≠ .bibEntry) : CitesByNumber root fileId := by
  have hnumbers : (Bibliography.ofDocument root).Numbers root.entryKeys := by
    rw [ofDocument_eq_foldl_add hkeys hroot]
    exact Bibliography.numbers_foldl_add root.entryKeys
  have hentries : AllOf (fun n => n.tag = .bibEntry →
      ((Bibliography.ofDocument root).number? n.key).isSome = true) [root] := by
    intro n hn htag
    rw [hnumbers.numbered]
    exact List.mem_map_of_mem (List.mem_filter.2 ⟨hn, by simp [htag]⟩)
  obtain ⟨hentry, hbelow, -⟩ := (Node.allOf_cons root []).1 hentries
  have hwalk : ShowsCiting (.ofDocument root) fileId root.reached {}
      (root.toHtml (.ofDocument root) fileId {}) :=
    showsCiting_toHtml hentry fun _ => showsCiting_nodesToHtml hbelow
  refine ⟨hnumbers, hwalk.shown, rfl, ?_⟩
  have hmisses : root.reached.filter (Bibliography.ofDocument root).Misses =
      root.reached.filter fun n => n.tag = .citation ∧ n.key ∉ root.entryKeys := by
    refine List.filter_congr fun n _ => ?_
    rw [decide_eq_decide, Bibliography.Misses, ← hnumbers.numbered, Bool.not_eq_true,
      Option.isSome_eq_false_iff, Option.isNone_iff_eq_none]
  rw [← hmisses]
  exact hwalk.warned

/-- Citations in front of and behind the entries, of a key without an entry, and of one whose entry
is in an image. -/
theorem citesByNumber_of_small_document :
    let cite (key : String) : Node := (Node.ofTag .citation).setAttr "key" key
    let entry (key : String) : Node := (Node.ofTag .bibEntry).setAttr "key" key
    let image : Node := { Node.ofTag .image with children := [entry "b", cite "d"] }
    let root : Node := { Node.ofTag .root with
      children := [cite "a", cite "c", image, entry "a", cite "b", entry "a"] }
    AllOf Node.HasKey [root] ∧ root.tag ≠ .bibEntry ∧ CitesByNumber root 3 ∧
      renderHtml root 3 =
        ("<a class=\"citation\" href=\"#bib-a\">[2]</a>" ++
          "<span class=\"citation unknown\">[c]</span>" ++
          "<img alt=\"\" /><span class=\"bibitem anchor\" id=\"bib-a\">[2]</span>" ++
          "<a class=\"citation\" href=\"#bib-b\">[1]</a>" ++
          "<span class=\"bibitem anchor\" id=\"bib-a\">[2]</span>",
          [⟨.unknownCitation "c", none, 3, []⟩]) := by
  intro cite entry image root
  have hkeys : AllOf Node.HasKey [root] := by
    unfold AllOf Node.HasKey
    decide +kernel
  have hroot : root.tag ≠ .bibEntry := by decide
  exact ⟨hkeys, hroot, citesByNumber_of_hasKey root 3 hkeys hroot, by decide +kernel⟩

/-- A root that is an entry itself is not in the bibliography, which is made of the nodes below, and
so it is shown with 0, which is no number of a key. -/
theorem not_citesByNumber_of_entry_root :
    let root : Node := (Node.ofTag .bibEntry).setAttr "key" "a"
    AllOf Node.HasKey [root] ∧ root.entryKeys = ["a"] ∧
      renderHtml root 0 = ("<span class=\"bibitem anchor\" id=\"bib-a\">[0]</span>", []) ∧
      ¬ CitesByNumber root 0 := by
  intro root
  refine ⟨?_, by decide +kernel, by decide +kernel, fun h => ?_⟩
  · unfold AllOf Node.HasKey
    decide +kernel
  · have hnumber := (h.numbers.numbered "a").2 (by decide +kernel)
    exact absurd hnumber (by decide +kernel)

end Treatise
