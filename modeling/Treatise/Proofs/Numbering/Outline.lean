import Treatise.Proofs.Numbering.Entries
import Treatise.Proofs.Numbering.Keeps
import Treatise.Proofs.Sections

/-!
# The numbers of an outline

The headings of an outline are put into sections in one way and numbered in another: with a list of
the parts behind, and with a list of counters. Where the levels of headings start at one and rise by
one at most, the two agree.

* **`SectionAt`** — a section with its place in the tree, a position for every level.
* **`outlineOf`** — the sections of a tree as a table of contents.
* **`number_eq_dotted_place`** — the number of every section of an outline is its place, and the
  table of contents is the tree of the sections.
-/

namespace Treatise

open Node (AllOf descendantsOf)
open Treatise.Numbering (nextComponents)
open Contents (titles insertAt)

/-! ## Places -/

/-- A section that holds a heading. -/
def Node.opensSection (n : Node) : Bool :=
  n.tag == .section && n.children.any (·.headingLevel?.isSome)

/-- A section that holds a heading, among nodes or below them, with its place: for every level the
position among the sections there, counted from one. -/
inductive SectionAt : List Nat → List Node → Node → Prop
  | here (before n after) (opens : n.opensSection = true) :
      SectionAt [before.countP (·.opensSection) + 1] (before ++ n :: after) n
  | inside (before n after) {place m} (opens : n.opensSection = true)
      (below : SectionAt place n.children m) :
      SectionAt ((before.countP (·.opensSection) + 1) :: place) (before ++ n :: after) m

mutual

/-- The sections below a section at a position, as an entry. -/
def Node.outlineEntry (title : Node → Option String) (position : Nat) : Node → ContentsEntry
  | ⟨tag, attrs, flags, text, tail, children⟩ =>
    ⟨Nat.repr position, title ⟨tag, attrs, flags, text, tail, children⟩,
      outlineOf title 0 children⟩

/-- The sections among nodes and below them as a table of contents, behind a count of sections. -/
def outlineOf (title : Node → Option String) (count : Nat) : List Node → Contents
  | [] => []
  | n :: ns =>
    if n.opensSection then n.outlineEntry title (count + 1) :: outlineOf title (count + 1) ns
    else outlineOf title count ns

end

section OutlineOf

variable {title : Node → Option String} {count : Nat} {n : Node} {ns : List Node}

theorem Node.outlineEntry_eq (n : Node) :
    n.outlineEntry title count = ⟨Nat.repr count, title n, outlineOf title 0 n.children⟩ := by
  cases n
  rfl

theorem outlineOf_cons_of_pos (h : n.opensSection = true) :
    outlineOf title count (n :: ns) =
      ⟨Nat.repr (count + 1), title n, outlineOf title 0 n.children⟩ ::
        outlineOf title (count + 1) ns := by
  rw [outlineOf, if_pos h, Node.outlineEntry_eq]

theorem outlineOf_cons_of_neg (h : n.opensSection = false) :
    outlineOf title count (n :: ns) = outlineOf title count ns := by
  rw [outlineOf, if_neg (by simp [h])]

end OutlineOf

/-- Nothing opens a section where there is no heading. -/
theorem Node.opensSection_eq_false {n : Node} (h : AllOf (·.headingLevel? = none) n.children) :
    n.opensSection = false := by
  have hany : n.children.any (·.headingLevel?.isSome) = false := by
    rw [List.any_eq_false]
    intro c hc
    simp [h c (Node.mem_descendantsOf_of_mem hc)]
  simp [opensSection, hany]

/-! ## Positions and counters -/

namespace Numbering

/-- The walk is in the section at a place, behind as many sections in it. -/
def At (place : List Nat) (count : Nat) (s : Numbering) : Prop :=
  s.components.take place.length = place ∧ s.components[place.length]?.getD 0 = count

variable {place : List Nat} {count : Nat} {s s' : Numbering}

theorem at_initial (o : NumberingOptions) : (initial o).At [] 0 := by
  refine ⟨rfl, ?_⟩
  cases h : o.depthLimit <;> simp [initial, h, List.replicate_succ]

theorem At.congr (h : s.At place count) (hs : s'.components = s.components) :
    s'.At place count := by
  rwa [At, hs]

theorem at_of_components_eq (h : s.components = place) : s.At place 0 := by
  simp [At, h]

/-- A heading of the next level has the next position. -/
theorem At.nextComponents_eq (h : s.At place count) :
    nextComponents s.components (place.length + 1) = place ++ [count + 1] := by
  obtain ⟨hplace, hcount⟩ := h
  rcases Nat.lt_or_ge place.length s.components.length with hlt | hge
  · rw [List.getElem?_eq_getElem hlt, Option.getD_some] at hcount
    rw [nextComponents_of_lt (by simpa using hlt)]
    simp [hplace, hcount]
  · rw [List.getElem?_eq_none hge] at hcount
    rw [nextComponents_of_le (by simpa using hge), ← hcount, ← hplace,
      List.take_of_length_le (by simpa [hplace] using hge)]
    rfl

/-- Behind a section the walk is where it was, one position further. -/
theorem At.of_append {position : Nat} (h : s.At (place ++ [position]) count) :
    s.At place position := by
  have hplace : s.components.take (place.length + 1) = place ++ [position] := by simpa using h.1
  have htake := congrArg (List.take place.length) hplace
  have hget := congrArg (·[place.length]?) hplace
  rw [List.take_take, Nat.min_eq_left (by omega), List.take_left] at htake
  exact ⟨htake, by simpa [List.getElem?_take] using congrArg (Option.getD · 0) hget⟩

end Numbering

/-! ## Entries below a place -/

namespace Contents

/-- Inserts the titles of entries below a place, from top to bottom. -/
def insertBelow (place : List Nat) (es c : Contents) : Contents :=
  (titles es).foldl (fun c (path, title) => insertAt title (place.map Nat.repr ++ path) c) c

theorem insertBelow_cons (place : List Nat) (position : Nat) (title : String)
    (inside es c : Contents) :
    insertBelow place (⟨Nat.repr position, some title, inside⟩ :: es) c =
      insertBelow place es (insertBelow (place ++ [position]) inside
        (Contents.insert c (dotted (place ++ [position])) title)) := by
  rw [Contents.insert, segments_dotted (by simp)]
  simp only [insertBelow, titles_cons, ContentsEntry.titles_eq, Option.map_some,
    Option.toList_some, List.foldl_append, List.foldl_cons, List.foldl_map, List.map_append,
    List.map_cons, List.map_nil, List.append_assoc, List.singleton_append]

end Contents

/-! ## The walk over an outline -/

/-- The sections of an outline before and after they are numbered, at a place and behind a count of
sections. The nodes that the outline was made of are `items`. -/
inductive NumberedOutline (items : List Node) : List Nat → Nat → List Node → List Node → Prop
  | nil {place count} : NumberedOutline items place count [] []
  | other {place count n m ns ms} (item : n ∈ items)
      (after : AllOf (·.headingLevel? = none) m.children)
      (sections : AllOf (·.tag ≠ .section) [n] → AllOf (·.tag ≠ .section) [m])
      (behind : NumberedOutline items place count ns ms) :
      NumberedOutline items place count (n :: ns) (m :: ms)
  | section {place count n m heading ns ms} (item : heading ∈ items)
      (level : heading.headingLevel?.isSome = true) (before : n.opensSection = true)
      (after : m.opensSection = true)
      (number : m.attr? "number" = some (dotted (place ++ [count + 1])))
      (title : AllOf (·.tag ≠ .span .blockNumber) heading.children →
        m.attr? "title" = n.attr? "title")
      (inside : NumberedOutline items (place ++ [count + 1]) 0 n.children m.children)
      (behind : NumberedOutline items place (count + 1) ns ms) :
      NumberedOutline items place count (n :: ns) (m :: ms)

/-- What the walk over an outline makes of it, starting at a place behind a count of sections. -/
structure NumbersOutline (items : List Node) (place : List Nat) (count : Nat) (s : Numbering)
    (ns : List Node) (r : List Node × Numbering) : Prop where
  numbered : NumberedOutline items place count ns r.1
  position : r.2.At place (count + ns.countP (·.opensSection))
  contents : r.2.contents =
    Contents.insertBelow place (outlineOf (·.attr? "title") count ns) s.contents

/-- What the walk makes of a heading with a number, without headings below. -/
structure NumbersHeading (number : List Nat) (s : Numbering) (heading : Node)
    (r : Node × Numbering) : Prop where
  tag_eq : r.1.tag = heading.tag
  shown : r.1.headingNumber? = some (dotted number)
  title : AllOf (·.tag ≠ .span .blockNumber) heading.children →
    r.1.headingTitle = heading.headingTitle
  noHeading : AllOf (·.headingLevel? = none) r.1.children
  noSection : AllOf (·.tag ≠ .section) heading.children → AllOf (·.tag ≠ .section) r.1.children
  components : r.2.components = number
  contents : r.2.contents = Contents.insert s.contents (dotted number) heading.headingTitle

section Walk

variable {o : NumberingOptions} {items : List Node}

theorem numbersHeading_numberNode {heading : Node} {level : Nat}
    (htag : heading.tag = .heading level)
    (hbelow : AllOf (·.headingLevel? = none) heading.children)
    (enclosing : List (Option Target)) (s : Numbering) :
    NumbersHeading (nextComponents s.components level) s heading
      (numberNode o enclosing heading s) := by
  have hnumbers := numbers_numberNodes o enclosing heading.children
    (s.pass o (.heading level heading.headingTitle))
  obtain ⟨hcomponents, hcontents⟩ := section_of_numbers hnumbers hbelow
  rw [numberNode_heading htag]
  refine ⟨tag_setSectionNumber _ _, headingNumber?_setSectionNumber _ _, fun hplace => ?_,
    ?_, fun hsection => ?_, hcomponents, hcontents⟩
  · have hwords := (words_of_numbers hnumbers hbelow hplace).2
    rw [headingTitle_setSectionNumber]
    exact congrArg (fun words => Text.trimString (heading.text ++ words)) hwords
  · exact allOf_tag_setSectionNumber (p := fun tag => (Node.ofTag tag).headingLevel? = none) _ rfl
      (noHeading_of_numbers hnumbers hbelow)
  · exact allOf_tag_setSectionNumber (p := (· ≠ .section)) _ nofun
      (noSection_of_numbers hnumbers hsection)

theorem opensSection_of_children {n heading : Node} {content : List Node} (htag : n.tag = .section)
    (hchildren : n.children = heading :: content) (hlevel : heading.headingLevel?.isSome = true) :
    n.opensSection = true := by
  simp [Node.opensSection, htag, hchildren, hlevel]

theorem refreshSection_of_children {n heading : Node} {content : List Node}
    (hchildren : n.children = heading :: content) (hlevel : heading.headingLevel?.isSome = true) :
    n.refreshSection = n.describeSection heading := by
  rw [Node.refreshSection, hchildren]
  simp only [List.find?_cons, hlevel]

variable (hitems : ∀ n ∈ items, AllOf (·.headingLevel? = none) n.children)

include hitems

/-- A section in front, from its heading, what is in it and what is behind it. -/
theorem NumbersOutline.cons_section {place : List Nat} {count : Nat} {s : Numbering}
    {n heading : Node} {level : Nat} {content ns : List Node} {r : Node × Numbering}
    {inside behind : List Node × Numbering} (hitem : heading ∈ items) (htag : n.tag = .section)
    (hlevel : heading.tag = .heading level) (hchildren : n.children = heading :: content)
    (htitle : n.attr? "title" = some heading.headingTitle)
    (hheading : NumbersHeading (place ++ [count + 1]) s heading r)
    (hinside : NumbersOutline items (place ++ [count + 1]) 0 r.2 content inside)
    (hbehind : NumbersOutline items place (count + 1) inside.2 ns behind) :
    NumbersOutline items place count s (n :: ns)
      (({ n with children := r.1 :: inside.1 } : Node).refreshSection :: behind.1, behind.2) := by
  have hsome : heading.headingLevel?.isSome = true := Node.isSome_headingLevel?.2 ⟨_, hlevel⟩
  have hopens : n.opensSection = true := opensSection_of_children htag hchildren hsome
  -- the section has its heading first again, and is described by it
  have hsome' : r.1.headingLevel?.isSome = true :=
    Node.isSome_headingLevel?.2 ⟨_, hheading.tag_eq.trans hlevel⟩
  have hrefresh : ({ n with children := r.1 :: inside.1 } : Node).refreshSection =
      ({ n with children := r.1 :: inside.1 } : Node).describeSection r.1 :=
    refreshSection_of_children rfl hsome'
  have hopens' :
      ({ n with children := r.1 :: inside.1 } : Node).refreshSection.opensSection = true :=
    opensSection_of_children ((Node.tag_refreshSection _).trans htag)
      (Node.children_refreshSection _) hsome'
  refine ⟨.section hitem hsome hopens hopens' ?_ (fun hplain => ?_) ?_ hbehind.numbered, ?_, ?_⟩
  · rw [hrefresh]
    exact Node.number_describeSection _ _ hheading.shown
  · rw [hrefresh, Node.title_describeSection, hheading.title hplain, htitle]
  · rw [Node.children_refreshSection, hchildren]
    refine .other hitem hheading.noHeading (fun hsection => ?_) hinside.numbered
    obtain ⟨-, hsection, -⟩ := (Node.allOf_cons _ _).1 hsection
    refine (Node.allOf_cons _ _).2 ⟨?_, hheading.noSection hsection, Node.allOf_nil⟩
    rw [hheading.tag_eq, hlevel]
    nofun
  · rw [List.countP_cons_of_pos hopens]
    simpa only [Nat.add_assoc, Nat.add_comm 1] using hbehind.position
  · rw [outlineOf_cons_of_pos hopens, htitle, Contents.insertBelow_cons, hchildren,
      outlineOf_cons_of_neg (Node.opensSection_eq_false (hitems heading hitem)),
      ← hheading.contents, ← hinside.contents]
    exact hbehind.contents

theorem numbersOutline_numberNodes {depth : Nat} {ns : List Node} (h : Outlined items depth ns)
    (enclosing : List (Option Target)) {place : List Nat} {count : Nat} {s : Numbering}
    (hplace : place.length = depth) (hs : s.At place count) :
    NumbersOutline items place count s ns (numberNodes o enclosing ns s) := by
  induction h generalizing place count s with
  | nil => exact ⟨.nil, hs, rfl⟩
  | @other depth n ns item level _ behind =>
    -- an item that opens no section holds no heading, so the counters stay where they are
    have hn : AllOf (·.headingLevel? = none) [n] :=
      (Node.allOf_cons _ _).2 ⟨level, hitems n item, Node.allOf_nil⟩
    have hopens : n.opensSection = false := Node.opensSection_eq_false (hitems n item)
    have hnumbers : Numbers o enclosing s [n] [(numberNode o enclosing n s).1]
        (numberNode o enclosing n s).2 := numbers_numberNodes o enclosing [n] s
    obtain ⟨hcomponents, hcontents⟩ := section_of_numbers hnumbers hn
    obtain ⟨hnumbered, hposition, hlisted⟩ := behind hplace (hs.congr hcomponents)
    rw [numberNodes_cons]
    refine ⟨.other item ?_ (noSection_of_numbers hnumbers) hnumbered, ?_, ?_⟩
    · exact ((Node.allOf_cons _ _).1 (noHeading_of_numbers hnumbers hn)).2.1
    · rwa [List.countP_cons_of_neg (by simp [hopens])]
    · rwa [outlineOf_cons_of_neg hopens, ← hcontents]
  | @«section» depth n heading content ns item level tag children title _ _ inside behind =>
    -- the heading counts the section on, and what is inside counts below its number
    have hnumber : nextComponents s.components (depth + 1) = place ++ [count + 1] :=
      hplace ▸ hs.nextComponents_eq
    have hheading := numbersHeading_numberNode (o := o) level (hitems heading item) enclosing s
    rw [hnumber] at hheading
    have hinside : NumbersOutline items (place ++ [count + 1]) 0
        (numberNode o enclosing heading s).2 content
        (numberNodes o enclosing content (numberNode o enclosing heading s).2) :=
      inside (by simp [hplace]) (Numbering.at_of_components_eq hheading.components)
    have hbehind := behind hplace hinside.position.of_append
    rw [numberNodes_cons, numberNode_section tag, children, numberNodes_cons]
    exact .cons_section hitems item tag level children title hheading hinside hbehind

end Walk

/-! ## The table of an outline -/

/-- The entries behind a count of sections have the positions behind it. -/
theorem exists_position_of_mem_outlineOf {title : Node → Option String} {count : Nat}
    {ns : List Node} {e : ContentsEntry} (h : e ∈ outlineOf title count ns) :
    ∃ position > count, e.segment = Nat.repr position := by
  induction ns generalizing count with
  | nil => exact absurd h List.not_mem_nil
  | cons n ns ih =>
    cases hopens : n.opensSection with
    | true =>
      rw [outlineOf_cons_of_pos hopens] at h
      rcases List.mem_cons.1 h with rfl | h
      · exact ⟨count + 1, by omega, rfl⟩
      · obtain ⟨position, hposition, hsegment⟩ := ih h
        exact ⟨position, by omega, hsegment⟩
    | false =>
      rw [outlineOf_cons_of_neg hopens] at h
      exact ih h

/-- The sections of an outline all have titles. -/
theorem full_outlineOf {items : List Node}
    (hitems : ∀ n ∈ items, AllOf (·.headingLevel? = none) n.children) {depth : Nat}
    {ns : List Node} (h : Outlined items depth ns) (count : Nat) :
    Contents.Full (outlineOf (·.attr? "title") count ns) := by
  induction h generalizing count with
  | nil => exact .nil
  | other item _ _ behind =>
    rw [outlineOf_cons_of_neg (Node.opensSection_eq_false (hitems _ item))]
    exact behind count
  | «section» item level tag children title _ _ inside behind =>
    have hlevel := Node.isSome_headingLevel?.2 ⟨_, level⟩
    rw [outlineOf_cons_of_pos (opensSection_of_children tag children hlevel), title, children,
      outlineOf_cons_of_neg (Node.opensSection_eq_false (hitems _ item))]
    refine .cons (inside 0) (behind (count + 1)) fun e he heq => ?_
    obtain ⟨position, hposition, hsegment⟩ := exists_position_of_mem_outlineOf he
    have := repr_injective (hsegment.symm.trans heq)
    omega

/-! ## What an outline shows -/

section NumberedOutline

variable {items : List Node}

/-- Resolving leaves the sections of an outline as they are. -/
theorem NumberedOutline.resolved {labels : Dict Target} {fileId : Nat} {place : List Nat}
    {count : Nat} {ns ms : List Node} (h : NumberedOutline items place count ns ms) :
    NumberedOutline items place count ns (resolveNodes labels fileId ms).1 := by
  induction h with
  | nil => exact .nil
  | @other _ _ n m _ _ item after sections _ behind =>
    rw [resolveNodes_cons]
    refine .other item ?_ (fun hn => ?_) behind
    · exact allOf_tag_children_resolveNode (p := fun tag => (Node.ofTag tag).headingLevel? = none)
        rfl after (allOf_tag_resolveNodes
          (p := fun tag => (Node.ofTag tag).headingLevel? = none) rfl after)
    · exact allOf_tag_resolveNodes (p := (· ≠ .section)) nofun (sections hn)
  | @«section» _ _ n m heading _ _ item level before after number title _ _ inside behind =>
    have htag : m.tag ≠ .reference := by
      intro href
      simp [Node.opensSection, href] at after
    rw [resolveNodes_cons]
    refine .section item level before ?_ ?_ (fun hplain => ?_) ?_ behind
    · have hlevels : (resolveNodes labels fileId m.children).1.any (·.headingLevel?.isSome) =
          m.children.any (·.headingLevel?.isSome) := by
        rw [fst_resolveNodes, List.any_map]
        simp only [Function.comp_def, headingLevel?_resolveNode]
      rw [Node.opensSection, tag_resolveNode, children_resolveNode_of_ne htag, hlevels]
      exact after
    · rw [attr?_resolveNode, number]
    · rw [attr?_resolveNode, title hplain]
    · rwa [children_resolveNode_of_ne htag]

theorem opensSection_eq_false_of_mem {ns : List Node} (h : AllOf (·.headingLevel? = none) ns)
    {n : Node} (hn : n ∈ descendantsOf ns) : n.opensSection = false :=
  Node.opensSection_eq_false (h.children hn)

/-- The sections behind some nodes are counted on from these. -/
theorem NumberedOutline.behind {place : List Nat} {count : Nat} {ns before ms : List Node}
    (h : NumberedOutline items place count ns (before ++ ms)) :
    ∃ ns', NumberedOutline items place (count + before.countP (·.opensSection)) ns' ms := by
  induction before generalizing count ns with
  | nil => exact ⟨ns, h⟩
  | cons m before ih =>
    cases h with
    | other item after sections behind =>
      rw [List.countP_cons_of_neg (by simp [Node.opensSection_eq_false after])]
      exact ih behind
    | «section» item level opens after number title inside behind =>
      rw [List.countP_cons_of_pos after, Nat.add_comm _ 1, ← Nat.add_assoc]
      exact ih behind

/-- The number of a section is its place. -/
theorem number_of_sectionAt {place place' : List Nat} {ns ms : List Node} {m : Node}
    (hm : SectionAt place' ms m) (h : NumberedOutline items place 0 ns ms) :
    m.attr? "number" = some (dotted (place ++ place')) := by
  induction hm generalizing place ns with
  | here _ _ _ opens =>
    obtain ⟨ns', h⟩ := h.behind
    rw [Nat.zero_add] at h
    cases h with
    | other item after => exact absurd opens (by simp [Node.opensSection_eq_false after])
    | «section» item level before after number => exact number
  | inside _ _ _ opens _ below =>
    obtain ⟨ns', h⟩ := h.behind
    rw [Nat.zero_add] at h
    cases h with
    | other item after => exact absurd opens (by simp [Node.opensSection_eq_false after])
    | «section» item level before after number title inside behind => simpa using below inside

theorem exists_sectionAt_cons {place : List Nat} {ms : List Node} {m : Node}
    (h : SectionAt place ms m) (n : Node) : ∃ place, SectionAt place (n :: ms) m := by
  cases h with
  | here before m after opens => exact ⟨_, .here (n :: before) m after opens⟩
  | inside before k after opens below => exact ⟨_, .inside (n :: before) k after opens below⟩

section Induction

variable {place : List Nat} {count : Nat} {ns ms : List Node}
  (h : NumberedOutline items place count ns ms)

include h

/-- Every section that holds a heading has a place. -/
theorem exists_sectionAt {m : Node} (hm : m ∈ descendantsOf ms) (hopens : m.opensSection = true) :
    ∃ place, SectionAt place ms m := by
  induction h with
  | nil => exact absurd hm List.not_mem_nil
  | @other _ _ _ m' _ _ item after _ _ behind =>
    rw [Node.descendantsOf_cons, List.mem_cons, List.mem_append] at hm
    rcases hm with rfl | hm | hm
    · exact absurd hopens (by simp [Node.opensSection_eq_false after])
    · exact absurd hopens (by simp [opensSection_eq_false_of_mem after hm])
    · obtain ⟨place, hplace⟩ := behind hm
      exact exists_sectionAt_cons hplace m'
  | @«section» _ _ _ m' _ _ ms item level _ after _ _ _ _ inside behind =>
    rw [Node.descendantsOf_cons, List.mem_cons, List.mem_append] at hm
    rcases hm with rfl | hm | hm
    · exact ⟨_, .here [] m ms after⟩
    · obtain ⟨place, hplace⟩ := inside hm
      exact ⟨_, .inside [] m' ms after hplace⟩
    · obtain ⟨place, hplace⟩ := behind hm
      exact exists_sectionAt_cons hplace m'

/-- Without other sections, every section holds a heading. -/
theorem opensSection_of_tag (hitems : ∀ n ∈ items, AllOf (·.tag ≠ .section) [n]) {m : Node}
    (hm : m ∈ descendantsOf ms) (htag : m.tag = .section) : m.opensSection = true := by
  induction h with
  | nil => exact absurd hm List.not_mem_nil
  | other item _ sections _ behind =>
    rw [Node.descendantsOf_cons, ← List.cons_append, List.mem_append] at hm
    rcases hm with hm | hm
    · refine absurd htag (sections (hitems _ item) m ?_)
      rwa [Node.descendantsOf_cons, Node.descendantsOf_nil, List.append_nil]
    · exact behind hm
  | «section» item level _ after _ _ _ _ inside behind =>
    rw [Node.descendantsOf_cons, List.mem_cons, List.mem_append] at hm
    rcases hm with rfl | hm | hm
    · exact after
    · exact inside hm
    · exact behind hm

/-- Sections stay where they are. -/
theorem outlineOf_eq (hitems : ∀ n ∈ items, AllOf (·.headingLevel? = none) n.children)
    {title : Node → Option String}
    (htitle : ∀ heading ∈ items, heading.headingLevel?.isSome = true → ∀ n m : Node,
      (AllOf (·.tag ≠ .span .blockNumber) heading.children →
        m.attr? "title" = n.attr? "title") → title m = title n) :
    outlineOf title count ms = outlineOf title count ns := by
  induction h with
  | nil => rfl
  | other item after _ _ behind =>
    rw [outlineOf_cons_of_neg (Node.opensSection_eq_false after),
      outlineOf_cons_of_neg (Node.opensSection_eq_false (hitems _ item)), behind]
  | «section» item level before after _ hn _ _ inside behind =>
    rw [outlineOf_cons_of_pos after, outlineOf_cons_of_pos before, inside, behind,
      htitle _ item level _ _ hn]

end Induction

end NumberedOutline

/-! ## Documents -/

/-- The number of every section of an outline is its place, the positions among the sections beside
it and around it, whatever the options. The table of contents is the tree of these sections, with
their titles as they are before the document is numbered; they keep them if no heading holds the
place of a statement's number. -/
theorem number_eq_dotted_place (o : NumberingOptions) (fileId : Nat) {root : Node}
    (h : root.IsOutline) :
    let built := buildSections root
    let r := resolve o fileId built
    (∀ place n, SectionAt place r.root.children n → n.attr? "number" = some (dotted place)) ∧
    (∀ n ∈ r.root.descendants, n.opensSection = true → ∃ place, SectionAt place r.root.children n) ∧
    (AllOf (·.tag ≠ .section) root.children →
      ∀ n ∈ r.root.descendants, n.tag = .section → n.opensSection = true) ∧
    r.contents = outlineOf (·.attr? "title") 0 built.children ∧
    outlineOf (fun _ => none) 0 r.root.children = outlineOf (fun _ => none) 0 built.children ∧
    ((∀ heading ∈ root.children, heading.headingLevel?.isSome = true →
        AllOf (·.tag ≠ .span .blockNumber) heading.children) →
      outlineOf (·.attr? "title") 0 r.root.children = r.contents) := by
  intro built r
  have houtlined : Outlined root.children 0 built.children := outlined_buildSections h
  obtain ⟨hnumbered, -, hcontents⟩ :=
    numbersOutline_numberNodes (o := o) h.top houtlined [] rfl (Numbering.at_initial o)
  have hresolved : NumberedOutline root.children [] 0 built.children r.root.children :=
    hnumbered.resolved
  have htable : r.contents = outlineOf (·.attr? "title") 0 built.children := by
    refine Eq.trans hcontents ?_
    exact Contents.foldl_insertAt_titles (full_outlineOf h.top houtlined 0) nofun
  rw [Node.descendants_eq]
  refine ⟨fun place n hn => number_of_sectionAt hn hresolved,
    fun n hn => exists_sectionAt hresolved hn, fun hsections n hn => ?_, htable,
    outlineOf_eq hresolved h.top fun _ _ _ _ _ _ => rfl, fun hplain => ?_⟩
  · refine opensSection_of_tag hresolved (fun m hm => ?_) hn
    exact (Node.allOf_cons _ _).2 ⟨hsections m (Node.mem_descendantsOf_of_mem hm),
      hsections.children (Node.mem_descendantsOf_of_mem hm), Node.allOf_nil⟩
  · rw [htable]
    exact outlineOf_eq hresolved h.top fun heading hheading hlevel _ _ hn =>
      hn (hplain heading hheading hlevel)

/-- A section of the second level with its place, in a document with a paragraph. -/
theorem number_eq_dotted_place_of_three_headings :
    let heading (level : Nat) : Node := Node.ofTag (.heading level)
    let root : Node := { Node.ofTag .root with
      children := [heading 1, heading 2, Node.ofTag .paragraph, heading 2] }
    let r := resolve {} 0 (buildSections root)
    root.IsOutline ∧
      ∃ n ∈ r.root.descendants, SectionAt [1, 2] r.root.children n ∧ n.attr? "number" = some "1.2" := by
  intro heading root r
  have houtline : root.IsOutline :=
    ⟨by simp [root, heading, Node.ofTag], by decide, by decide⟩
  obtain ⟨hnumber, hplace, -⟩ := number_eq_dotted_place {} 0 houtline
  obtain ⟨n, hn, hopens, hshown⟩ : ∃ n ∈ r.root.descendants,
      n.opensSection = true ∧ n.attr? "number" = some (dotted [1, 2]) := by decide +kernel
  obtain ⟨place, hat⟩ := hplace n hn hopens
  have heq : place = [1, 2] :=
    dotted_injective (Option.some.inj ((hnumber place n hat).symm.trans hshown))
  exact ⟨houtline, n, hn, heq ▸ hat, hshown⟩

/-- Sections that are not numbered by their places, or not listed by their titles: a section without
a heading, which gets no number; a heading of level zero, which counts as one of the first level but
takes the sections of that level behind it; and a heading that holds the place of a statement's
number, of which the title is listed before the place is filled. -/
theorem section_without_place :
    let heading (level : Nat) : Node := Node.ofTag (.heading level)
    let rootOf (ns : List Node) : Node := { Node.ofTag .root with children := ns }
    let levels (root : Node) := root.children.filterMap (·.headingLevel?)
    let rising (root : Node) := (levels root).head? = some 1 ∧
      (levels root).IsChain (fun l l' => l' ≤ l + 1) ∧
      ∀ n ∈ root.children, ∀ m ∈ n.descendants, m.headingLevel? = none
    let run (root : Node) := resolve {} 0 (buildSections root)
    (let root := rootOf [Node.ofTag .section, heading 1]
     rising root ∧
       ∃ n ∈ (run root).root.descendants, n.tag = .section ∧ n.attr? "number" = none) ∧
    (let root := rootOf [heading 1, heading 0, heading 1]
     rising root ∧ ∃ n ∈ (run root).root.children, n.attr? "number" = some "2" ∧
       ∃ m ∈ n.children, m.tag = .section ∧ m.attr? "number" = some "3") ∧
    (let root := rootOf [{ heading 1 with
       children := [(Node.span .blockNumber).setText "x"] }]
     rising root ∧ (titles (run root).contents).map Prod.snd = ["x"] ∧
       (run root).root.children.map (·.attr? "title") = [some ""]) := by
  decide +kernel

end Treatise
