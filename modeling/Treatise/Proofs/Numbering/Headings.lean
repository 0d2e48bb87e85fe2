import Treatise.Proofs.Numbering.Settled

/-!
# Headings and their numbers

The numbers of the headings of a document depend on nothing but the levels of the headings.

* **`sectionNumbers`** — the numbers that headings of given levels get, one after the other.
* **`headings_of_settles`** — a resolved tree has the headings of the tree that was read, each with
  its number in front.
* **`filterMap_heading?_given`** — the table of contents is made with the same numbers, and with the
  titles of the headings as they were read.
-/

namespace Treatise

open Node (Fresh AllOf descendantsOf)
open Treatise.Numbering (nextComponents)

/-! ## The headings of a tree -/

namespace Node

/-- The headings among nodes and below them, in document order. -/
def headingsOf (ns : List Node) : List Node := (descendantsOf ns).filter (·.headingLevel?.isSome)

/-- The levels of these headings. -/
def levelsOf (ns : List Node) : List Nat := (descendantsOf ns).filterMap (·.headingLevel?)

/-- The headings below a node, in document order. -/
def headings (root : Node) : List Node := headingsOf root.children

theorem headingLevel?_of_ne {n : Node} (h : ∀ level, n.tag ≠ .heading level) :
    n.headingLevel? = none := by
  rw [Option.eq_none_iff_forall_ne_some]
  intro level hlevel
  exact h level (headingLevel?_eq_some_iff.1 hlevel)

variable {n : Node} {ns : List Node}

@[simp] theorem headingsOf_nil : headingsOf [] = [] := rfl

@[simp] theorem levelsOf_nil : levelsOf [] = [] := rfl

theorem headingsOf_append (ns ms : List Node) :
    headingsOf (ns ++ ms) = headingsOf ns ++ headingsOf ms := by
  simp [headingsOf]

theorem levelsOf_append (ns ms : List Node) : levelsOf (ns ++ ms) = levelsOf ns ++ levelsOf ms := by
  simp [levelsOf]

theorem headingsOf_cons_of_heading {level : Nat} (h : n.tag = .heading level) :
    headingsOf (n :: ns) = n :: headingsOf (n.children ++ ns) := by
  simp [headingsOf, headingLevel?_eq_some_iff.2 h]

theorem levelsOf_cons_of_heading {level : Nat} (h : n.tag = .heading level) :
    levelsOf (n :: ns) = level :: levelsOf (n.children ++ ns) := by
  simp [levelsOf, headingLevel?_eq_some_iff.2 h]

theorem headingsOf_cons_of_ne (h : ∀ level, n.tag ≠ .heading level) :
    headingsOf (n :: ns) = headingsOf (n.children ++ ns) := by
  simp [headingsOf, headingLevel?_of_ne h]

theorem levelsOf_cons_of_ne (h : ∀ level, n.tag ≠ .heading level) :
    levelsOf (n :: ns) = levelsOf (n.children ++ ns) := by
  simp [levelsOf, headingLevel?_of_ne h]

theorem length_levelsOf (ns : List Node) : (levelsOf ns).length = (headingsOf ns).length := by
  rw [levelsOf, headingsOf, List.length_filterMap_eq_countP, List.countP_eq_length_filter]

/-- The levels of headings that follow each other are those of the headings. -/
theorem map_headingLevel?_headingsOf (ns : List Node) :
    (headingsOf ns).map (·.headingLevel?) = (levelsOf ns).map some := by
  unfold headingsOf levelsOf
  induction descendantsOf ns with
  | nil => rfl
  | cons n ns ih => cases h : n.headingLevel? <;> simp [h, ih]

end Node

theorem length_filterMap_headingLevel? {ns : List Node}
    (h : ∀ n ∈ ns, n.headingLevel?.isSome = true) :
    (ns.filterMap (·.headingLevel?)).length = ns.length := by
  rw [List.length_filterMap_eq_countP, List.countP_eq_length]
  exact h

open Node (headingsOf levelsOf)

/-! ## Numbers by levels -/

/-- The section numbers that headings of these levels get, one after the other. -/
def sectionNumbers : (components : List Nat) → (levels : List Nat) → List (List Nat)
  | _, [] => []
  | cs, level :: levels =>
    nextComponents cs level :: sectionNumbers (nextComponents cs level) levels

theorem length_sectionNumbers (cs levels : List Nat) :
    (sectionNumbers cs levels).length = levels.length := by
  induction levels generalizing cs with
  | nil => rfl
  | cons level levels ih => simp [sectionNumbers, ih]

theorem sectionNumbers_append (cs levels more : List Nat) :
    sectionNumbers cs (levels ++ more) =
      sectionNumbers cs levels ++ sectionNumbers (levels.foldl nextComponents cs) more := by
  induction levels generalizing cs with
  | nil => rfl
  | cons level levels ih => simp [sectionNumbers, ih]

/-- Section numbers increase. -/
theorem lt_of_mem_sectionNumbers {cs ds levels : List Nat} (h : ds ∈ sectionNumbers cs levels) :
    cs < ds := by
  induction levels generalizing cs with
  | nil => exact absurd h List.not_mem_nil
  | cons level levels ih =>
    rcases List.mem_cons.1 h with rfl | h
    · exact lt_nextComponents cs level
    · exact List.lt_trans (lt_nextComponents cs level) (ih h)

theorem pairwise_sectionNumbers (cs levels : List Nat) :
    (sectionNumbers cs levels).Pairwise (· < ·) := by
  induction levels generalizing cs with
  | nil => exact .nil
  | cons level levels ih => exact .cons (fun _ h => lt_of_mem_sectionNumbers h) (ih _)

/-! ## Numbered headings -/

/-- A heading with its number in front and its references resolved. -/
def Node.settledHeading (labels : Dict Target) (fileId : Nat) (n : Node) (components : List Nat) :
    Node :=
  n.numberedHeading (dotted components) (resolveNodes labels fileId n.children).1

section SettledHeading

variable (labels : Dict Target) (fileId : Nat) (n : Node) (components : List Nat)

@[simp] theorem Node.tag_settledHeading :
    (n.settledHeading labels fileId components).tag = n.tag := rfl

@[simp] theorem Node.headingLevel?_settledHeading :
    (n.settledHeading labels fileId components).headingLevel? = n.headingLevel? := rfl

@[simp] theorem Node.headingNumber?_settledHeading :
    (n.settledHeading labels fileId components).headingNumber? = some (dotted components) := rfl

/-- The number in front of a heading is what its section is linked by. -/
theorem Node.find?_settledHeading :
    (n.settledHeading labels fileId components).children.find? (·.hasRole .sectionNumber) =
      some (sectionSpan (dotted components) n.text) := rfl

theorem Node.id_sectionSpan (number tail : String) :
    (sectionSpan number tail).attr? "id" = some (sectionAnchor number) := rfl

end SettledHeading

/-- The headings of the second nodes are those of the first ones, numbered behind a section. -/
def Headed (labels : Dict Target) (fileId : Nat) (cs : List Nat) (ns ms : List Node) : Prop :=
  headingsOf ms = (headingsOf ns).zipWith (Node.settledHeading labels fileId)
    (sectionNumbers cs (levelsOf ns))

section Headed

variable {labels : Dict Target} {fileId : Nat} {cs : List Nat} {ns ms : List Node} {n m : Node}

theorem Headed.append {ns' ms' : List Node} (h : Headed labels fileId cs ns ms)
    (h' : Headed labels fileId ((levelsOf ns).foldl nextComponents cs) ns' ms') :
    Headed labels fileId cs (ns ++ ns') (ms ++ ms') := by
  have hlength : (headingsOf ns).length = (sectionNumbers cs (levelsOf ns)).length := by
    rw [length_sectionNumbers, Node.length_levelsOf]
  rw [Headed, Node.headingsOf_append, h, h', Node.headingsOf_append, Node.levelsOf_append,
    sectionNumbers_append, List.zipWith_append hlength]

theorem Headed.cons_of_ne (h : Headed labels fileId cs (n.children ++ ns) (m.children ++ ms))
    (hn : ∀ level, n.tag ≠ .heading level) (hm : ∀ level, m.tag ≠ .heading level) :
    Headed labels fileId cs (n :: ns) (m :: ms) := by
  rw [Headed, Node.headingsOf_cons_of_ne hm, Node.headingsOf_cons_of_ne hn,
    Node.levelsOf_cons_of_ne hn]
  exact h

theorem Headed.cons_heading {level : Nat} (hn : n.tag = .heading level)
    (h : Headed labels fileId (nextComponents cs level) (n.children ++ ns)
      ((resolveNodes labels fileId n.children).1 ++ ms)) :
    Headed labels fileId cs (n :: ns)
      (n.settledHeading labels fileId (nextComponents cs level) :: ms) := by
  have hhead : headingsOf (n.settledHeading labels fileId (nextComponents cs level) :: ms) =
      n.settledHeading labels fileId (nextComponents cs level) ::
        headingsOf ((resolveNodes labels fileId n.children).1 ++ ms) := by
    rw [Node.headingsOf_cons_of_heading
      (n := n.settledHeading labels fileId (nextComponents cs level)) hn]
    -- the number in front of the words is no heading
    exact congrArg _ (Node.headingsOf_cons_of_ne (by simp [Node.sectionSpan, Node.markSection,
      Node.span, Node.ofTag, Node.setText, Node.setAttr]))
  rw [Headed, hhead, h, Node.headingsOf_cons_of_heading hn, Node.levelsOf_cons_of_heading hn]
  rfl

end Headed

/-! ## What is counted at a heading -/

/-- The level of a heading. -/
def Landmark.level? : Landmark → Option Nat
  | .heading level _ => some level
  | .statement _ => none

/-- The number and the title of a heading. -/
def GivenNumber.heading? : GivenNumber → Option (List Nat × String)
  | .section components title => some (components, title)
  | .statement _ _ => none

section Landmarks

variable {o : NumberingOptions} {title : Node → String}

theorem level?_landmark? (n : Node) :
    (n.landmark? o title).bind Landmark.level? = n.headingLevel? := by
  unfold Node.landmark? Node.headingLevel?
  cases n.tag with
  | block st =>
    simp only
    split <;> rfl
  | _ => rfl

theorem filterMap_level?_landmarks (ns : List Node) :
    (landmarks o title ns).filterMap Landmark.level? = levelsOf ns := by
  rw [landmarks, levelsOf, List.filterMap_filterMap]
  simp only [level?_landmark?]

theorem Numbering.components_foldl_pass (s : Numbering) (ls : List Landmark) :
    (ls.foldl (pass o) s).components = (ls.filterMap Landmark.level?).foldl nextComponents
      s.components := by
  induction ls generalizing s with
  | nil => rfl
  | cons l ls ih =>
    rw [List.foldl_cons, ih]
    cases l <;> rfl

/-- Headings are given the numbers of their levels, and are listed with their titles. -/
theorem filterMap_heading?_given (s : Numbering) (ns : List Node) :
    (Numbering.given o s (landmarks o title ns)).filterMap GivenNumber.heading? =
      (headingsOf ns).zipWith (fun n cs => (cs, title n))
        (sectionNumbers s.components (levelsOf ns)) := by
  unfold landmarks headingsOf levelsOf
  induction descendantsOf ns generalizing s with
  | nil => rfl
  | cons n ns ih =>
    -- a node gives a landmark of a level just when it is a heading of that level
    have hlevel : (n.landmark? o title).bind Landmark.level? = n.headingLevel? :=
      level?_landmark? n
    cases hn : n.landmark? o title with
    | none =>
      rw [hn] at hlevel
      have hnone : n.headingLevel? = none := hlevel.symm
      simp [hn, hnone, ih]
    | some l =>
      rw [hn] at hlevel
      cases l with
      | statement kind =>
        have hnone : n.headingLevel? = none := hlevel.symm
        rw [List.filterMap_cons_some hn, Numbering.given, List.filterMap_cons_none (by rfl), ih,
          List.filter_cons_of_neg (by simp [hnone]), List.filterMap_cons_none hnone]
        rfl
      | heading level title' =>
        have hsome : n.headingLevel? = some level := hlevel.symm
        have htag : n.tag = .heading level := Node.headingLevel?_eq_some_iff.1 hsome
        have htitle : title' = title n := by
          rw [landmark?_heading htag] at hn
          cases hn
          rfl
        rw [List.filterMap_cons_some hn, Numbering.given, List.filterMap_cons_some (by rfl), ih,
          List.filter_cons_of_pos (by simp [hsome]), List.filterMap_cons_some hsome, htitle]
        rfl

end Landmarks

/-! ## Both walks -/

section Settles

variable {o : NumberingOptions} {labels : Dict Target} {fileId : Nat}
  {enclosing : List (Option Target)} {s s' : Numbering} {ns ms : List Node}

theorem components_of_settles (h : Settles o labels fileId enclosing s ns ms s') :
    s'.components = (levelsOf ns).foldl nextComponents s.components := by
  have hcounters := congrArg Numbering.components (counters_of_settles h)
  rwa [Numbering.components_foldl_pass, filterMap_level?_landmarks] at hcounters

/-- A resolved tree has the headings of the tree that was read, with their numbers. -/
theorem headings_of_settles (h : Settles o labels fileId enclosing s ns ms s') :
    Headed labels fileId s.components ns ms := by
  induction h with
  | nil => rfl
  | heading _ tag hbelow _ below behind =>
    rw [components_of_settles hbelow] at behind
    exact .cons_heading tag (below.append behind)
  | numbered _ tag _ _ hbelow _ below behind =>
    rw [components_of_settles hbelow] at behind
    exact (below.append behind).cons_of_ne (by simp [tag])
      (by simp [Node.setStatementNumber, Node.setAttr])
  | unnumbered _ tag _ _ hbelow _ below behind =>
    rw [components_of_settles hbelow] at behind
    exact (below.append behind).cons_of_ne (by simp [tag]) (by simp [Node.clearAnchor])
  | @place _ _ _ n _ _ fresh tag _ behind =>
    refine Headed.cons_of_ne ?_ (by simp [tag]) (by simp [Node.setText, tag])
    simpa [Node.setText, fresh.children_eq_nil (.inr tag)] using behind
  | label fresh tag _ behind =>
    rw [Numbering.components_recordLabel] at behind
    refine Headed.cons_of_ne ?_ (by simp [tag]) (by simp [tag])
    simpa [fresh.children_eq_nil (.inl tag)] using behind
  | @reference _ _ _ n _ ms fresh tag _ behind =>
    -- what a reference resolves to is no heading
    have hspan : headingsOf (numberSpan (labels.get? n.key) :: ms) = headingsOf ms := by
      rw [Node.headingsOf_cons_of_ne (by simp), children_numberSpan, List.nil_append]
    refine Headed.cons_of_ne ?_ (by simp [tag]) (by simp [tag])
    rw [fresh.leaf (by rw [tag]; rfl)]
    exact hspan.trans behind
  | «section» _ tag _ hbelow _ below behind =>
    rw [components_of_settles hbelow] at behind
    exact (below.append behind).cons_of_ne (by simp [tag]) (by simp [tag])
  | plain _ tag _ hbelow _ below behind =>
    rw [components_of_settles hbelow] at behind
    have hne := (Tag.ne_of_isPlain tag).1
    exact (below.append behind).cons_of_ne hne hne

end Settles

/-! ## Documents -/

theorem zipWith_right {α β γ : Type} (f : β → γ) {as : List α} {bs : List β}
    (h : bs.length ≤ as.length) : as.zipWith (fun _ b => f b) bs = bs.map f := by
  conv => rhs; rw [← List.map_snd_zip h, List.map_map, List.map_zip_eq_zipWith]
  rfl

section Document

variable (o : NumberingOptions) (fileId : Nat) {root : Node} (hfresh : AllOf Fresh [root])

/-- The section numbers of the headings of a document, in document order. -/
def Node.headingComponents (o : NumberingOptions) (root : Node) : List (List Nat) :=
  sectionNumbers (List.replicate o.depthLimit 0) (levelsOf root.children)

theorem length_headingComponents (root : Node) :
    (root.headingComponents o).length = root.headings.length := by
  rw [Node.headingComponents, length_sectionNumbers, Node.length_levelsOf, Node.headings]

include hfresh

/-- A resolved document has the headings of the document that was read, with their numbers. -/
theorem headings_resolve :
    (resolve o fileId root).root.headings =
      root.headings.zipWith (Node.settledHeading (resolve o fileId root).labels fileId)
        (root.headingComponents o) :=
  headings_of_settles (settles_resolve o fileId hfresh)

theorem headingNumber?_headings_resolve :
    (resolve o fileId root).root.headings.map (·.headingNumber?) =
      (root.headingComponents o).map fun cs => some (dotted cs) := by
  have hlength := Nat.le_of_eq (length_headingComponents o root)
  rw [headings_resolve o fileId hfresh, List.map_zipWith]
  exact zipWith_right (fun cs => some (dotted cs)) hlength

theorem filterMap_headingLevel?_headings_resolve :
    (resolve o fileId root).root.headings.filterMap (·.headingLevel?) = levelsOf root.children := by
  have hlength := Nat.le_of_eq (length_headingComponents o root).symm
  have hmap : (resolve o fileId root).root.headings.map (·.headingLevel?) =
      (levelsOf root.children).map some := by
    have hlevels : root.headings.map (·.headingLevel?) = (levelsOf root.children).map some :=
      Node.map_headingLevel?_headingsOf root.children
    rw [headings_resolve o fileId hfresh, List.map_zipWith, ← hlevels]
    conv => rhs; rw [← List.map_fst_zip hlength, List.map_map, List.map_zip_eq_zipWith]
    rfl
  simpa [List.filterMap_map] using congrArg (List.filterMap id) hmap

end Document

end Treatise
