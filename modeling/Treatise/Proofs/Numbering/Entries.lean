import Mathlib.Data.List.Forall2
import Treatise.Proofs.Contents
import Treatise.Proofs.Numbering.Headings
import Treatise.Proofs.Tree.Reading

/-!
# The order of a table of contents

A table of contents is a tree that is filled by numbers, with entries that have no title where no
heading has the number. It lists the headings of the document in the order in which they stand
there.

* **`Contents.titles`** — the titles of a table as they are read from top to bottom, each with its
  path.
* **`titles_insertAt`** — what is inserted behind the last entry is read last. As section numbers
  increase, the path of the last insertion leads along the last entries (`Contents.Spine`), and the
  next one goes behind it.
* **`links_are_headings`** — the links of the table are the headings of the document in its order.
-/

namespace Treatise

open Node (Fresh AllOf descendantsOf headingsOf levelsOf)

/-! ## Titles from top to bottom -/

mutual

/-- The titles of an entry and of those inside it, each with its path. -/
def ContentsEntry.titles : ContentsEntry → List (List String × String)
  | ⟨segment, title, entries⟩ =>
    (title.map ([segment], ·)).toList ++
      (Contents.titles entries).map fun (path, title) => (segment :: path, title)

/-- The titles of a table from top to bottom, each with its path. -/
def Contents.titles : List ContentsEntry → List (List String × String)
  | [] => []
  | e :: es => e.titles ++ Contents.titles es

end

theorem ContentsEntry.titles_eq (e : ContentsEntry) :
    e.titles = (e.title.map ([e.segment], ·)).toList ++
      (Contents.titles e.entries).map fun (path, title) => (e.segment :: path, title) := by
  cases e
  rfl

namespace Contents

@[simp] theorem titles_nil : titles [] = [] := rfl

@[simp] theorem titles_cons (e : ContentsEntry) (es : Contents) :
    titles (e :: es) = e.titles ++ titles es := rfl

@[simp] theorem titles_append (es fs : Contents) : titles (es ++ fs) = titles es ++ titles fs := by
  induction es with
  | nil => rfl
  | cons e es ih => simp [ih]

/-! ## Links -/

theorem filter_link_listNodes (items : List Node) :
    (descendantsOf (listNodes items)).filter (·.tag == .link) =
      (descendantsOf items).filter (·.tag == .link) := by
  unfold listNodes
  split
  · next h => rw [List.isEmpty_iff.1 h]
  · simp [Node.ofTag]

theorem filter_link_linkNode (number title : String) :
    (descendantsOf [linkNode number title]).filter (·.tag == .link) = [linkNode number title] := rfl

/-- The links of a table from top to bottom are its titles. -/
theorem filter_link_itemNodes (above : String) (es : Contents) :
    (descendantsOf (itemNodes above es)).filter (·.tag == .link) =
      (titles es).map fun (path, title) => linkNode (path.foldl joinNumber above) title := by
  induction es using entry_induction generalizing above with
  | nil => rfl
  | cons e es below behind =>
    obtain ⟨segment, title, entries⟩ := e
    have hitem : (itemNode (joinNumber above segment) ⟨segment, title, entries⟩).tag ≠ .link := by
      simp [itemNode, Node.setAttr, Node.ofTag]
    have htitle : (descendantsOf (title.map (linkNode (joinNumber above segment))).toList).filter
        (·.tag == .link) = (title.map (linkNode (joinNumber above segment))).toList := by
      cases title with
      | none => rfl
      | some title => exact filter_link_linkNode _ title
    rw [itemNodes, Node.descendantsOf_cons, List.filter_cons_of_neg (by simpa using hitem),
      itemNode, Node.descendantsOf_append, List.filter_append, List.filter_append, htitle,
      filter_link_listNodes, below, behind, titles_cons, ContentsEntry.titles_eq]
    cases title <;> simp [Function.comp_def]

/-! ## Insertions behind the last entry -/

/-- The path leads to the end of the table, along last entries, and the numbers of the entries in
front of these are less than theirs. -/
inductive Spine : List Nat → Contents → Prop
  | nil : Spine [] []
  | cons {c cs es e} (before : ∀ d ∈ es, ∃ k < c, d.segment = Nat.repr k)
      (last : e.segment = Nat.repr c) (inside : Spine cs e.entries) : Spine (c :: cs) (es ++ [e])

theorem modifyEntry_append {segment : String} {f : ContentsEntry → ContentsEntry} {es : Contents}
    (h : ∀ e ∈ es, e.segment ≠ segment) (fs : Contents) :
    modifyEntry segment f (es ++ fs) = es ++ modifyEntry segment f fs := by
  induction es with
  | nil => rfl
  | cons e es ih =>
    rw [List.cons_append, modifyEntry, if_neg (h e List.mem_cons_self),
      ih fun d hd => h d (List.mem_cons_of_mem e hd), List.cons_append]

/-- Where no entry has the segment, there is a new one behind all of them. -/
theorem modifyEntry_of_forall_ne {segment : String} {f : ContentsEntry → ContentsEntry}
    {es : Contents} (h : ∀ e ∈ es, e.segment ≠ segment) :
    modifyEntry segment f es = es ++ [f ⟨segment, none, []⟩] := by
  simpa [modifyEntry] using modifyEntry_append (f := f) h []

theorem ne_of_less {es : Contents} {c d : Nat} (h : ∀ e ∈ es, ∃ k < c, e.segment = Nat.repr k)
    (hcd : c ≤ d) : ∀ e ∈ es, e.segment ≠ Nat.repr d := by
  intro e he heq
  obtain ⟨k, hk, hsegment⟩ := h e he
  have hkd : k = d := repr_injective (hsegment.symm.trans heq)
  omega

/-- What is inserted behind the last entry is read last, and is the last entry then. -/
theorem spine_insertAt (title : String) {cs ds : List Nat} {es : Contents} (h : Spine cs es)
    (hlt : cs < ds) :
    Spine ds (insertAt title (ds.map Nat.repr) es) ∧
      titles (insertAt title (ds.map Nat.repr) es) = titles es ++ [(ds.map Nat.repr, title)] := by
  induction ds generalizing cs es with
  | nil => exact absurd hlt (List.not_lt_nil cs)
  | cons d ds ih =>
    rw [List.map_cons, insertAt_cons]
    -- the entry at the first segment is new, or the rest of the path leads behind its entries
    have hentry : ∀ e : ContentsEntry, e.segment = Nat.repr d →
        (ds = [] ∧ e.title = none ∧ e.entries = [] ∨ ∃ cs, Spine cs e.entries ∧ cs < ds) →
        Spine ds (entitle title (ds.map Nat.repr) e).entries ∧
          (entitle title (ds.map Nat.repr) e).titles =
            e.titles ++ [(Nat.repr d :: ds.map Nat.repr, title)] := by
      rintro ⟨segment, title', entries⟩ rfl (⟨rfl, rfl, rfl⟩ | ⟨cs, hspine, hlt⟩)
      · exact ⟨.nil, rfl⟩
      · have hds : ds.map Nat.repr ≠ [] := by
          rintro hnil
          rw [List.map_eq_nil_iff.1 hnil] at hlt
          exact List.not_lt_nil cs hlt
        obtain ⟨hspine, htitles⟩ := ih hspine hlt
        rw [entitle, if_neg hds]
        exact ⟨hspine, by simp [ContentsEntry.titles_eq, htitles]⟩
    -- behind entries that are all less a new entry is made
    have hbehind : (∀ e ∈ es, ∃ k < d, e.segment = Nat.repr k) →
        Spine (d :: ds) (modifyEntry (Nat.repr d) (entitle title (ds.map Nat.repr)) es) ∧
          titles (modifyEntry (Nat.repr d) (entitle title (ds.map Nat.repr)) es) =
            titles es ++ [(Nat.repr d :: ds.map Nat.repr, title)] := by
      intro hless
      have hpath : ds = [] ∨ ∃ cs, Spine cs [] ∧ cs < ds := by
        cases ds with
        | nil => exact .inl rfl
        | cons d' ds => exact .inr ⟨[], .nil, List.nil_lt_cons d' ds⟩
      obtain ⟨hspine, htitles⟩ :=
        hentry ⟨Nat.repr d, none, []⟩ rfl (hpath.imp_left fun h => ⟨h, rfl, rfl⟩)
      rw [modifyEntry_of_forall_ne (ne_of_less hless (Nat.le_refl d))]
      exact ⟨.cons hless (segment_entitle ..) hspine,
        by simp [htitles, ContentsEntry.titles_eq ⟨Nat.repr d, none, []⟩]⟩
    cases h with
    | nil => exact hbehind fun e he => absurd he List.not_mem_nil
    | @cons c cs es e before last inside =>
      rcases List.cons_lt_cons_iff.1 hlt with hc | ⟨rfl, hcs⟩
      · refine hbehind fun e' he' => ?_
        rcases List.mem_append.1 he' with he' | he'
        · obtain ⟨k, hk, hsegment⟩ := before e' he'
          exact ⟨k, Nat.lt_trans hk hc, hsegment⟩
        · exact ⟨c, hc, by rw [List.mem_singleton.1 he', last]⟩
      · obtain ⟨hspine, htitles⟩ := hentry e last (.inr ⟨cs, inside, hcs⟩)
        rw [modifyEntry_append (ne_of_less before (Nat.le_refl c)), modifyEntry, if_pos last]
        exact ⟨.cons before ((segment_entitle ..).trans last) hspine, by simp [htitles]⟩

/-- Titles that are inserted under increasing numbers are read in this order. -/
theorem titles_foldl_insert {gs : List (List Nat × String)} {cs : List Nat} {es : Contents}
    (h : Spine cs es) (hgs : (cs :: gs.map Prod.fst).Pairwise (· < ·)) :
    titles (gs.foldl (fun c (ds, title) => Contents.insert c (dotted ds) title) es) =
      titles es ++ gs.map fun (ds, title) => (ds.map Nat.repr, title) := by
  induction gs generalizing cs es with
  | nil => simp
  | cons g gs ih =>
    obtain ⟨ds, title⟩ := g
    obtain ⟨hcs, hbehind⟩ := List.pairwise_cons.1 hgs
    have hlt : cs < ds := hcs ds (by simp)
    have hds : ds ≠ [] := fun hnil => List.not_lt_nil cs (hnil ▸ hlt)
    obtain ⟨hspine, htitles⟩ := spine_insertAt title h hlt
    show titles (gs.foldl _ (insertAt title (segments (dotted ds)) es)) = _
    rw [segments_dotted hds, ih hspine hbehind, htitles]
    simp

/-- Only sections are noted. -/
theorem foldl_note (gs : List GivenNumber) (c : Contents) :
    gs.foldl note c =
      (gs.filterMap GivenNumber.heading?).foldl
        (fun c (ds, title) => Contents.insert c (dotted ds) title) c := by
  induction gs generalizing c with
  | nil => rfl
  | cons g gs ih => cases g <;> exact ih _

/-! ## A table and its titles -/

/-- Every entry has a title, and entries beside each other have different segments. -/
inductive Full : Contents → Prop
  | nil : Full []
  | cons {segment title entries es} (inside : Full entries) (behind : Full es)
      (apart : ∀ e ∈ es, e.segment ≠ segment) : Full (⟨segment, some title, entries⟩ :: es)

theorem ne_nil_of_mem_titles {es : Contents} {p : List String × String} (h : p ∈ titles es) :
    p.1 ≠ [] := by
  induction es with
  | nil => exact absurd h List.not_mem_nil
  | cons e es ih =>
    rw [titles_cons, ContentsEntry.titles_eq, List.mem_append, List.mem_append] at h
    rcases h with (h | h) | h
    · obtain ⟨title, -, rfl⟩ := Option.map_eq_some_iff.1 (Option.mem_toList.1 h)
      simp
    · obtain ⟨q, -, rfl⟩ := List.mem_map.1 h
      simp
    · exact ih h

/-- Insertions below an entry leave what is in front of it. -/
theorem foldl_insertAt_cons {segment : String} {title : Option String} {es : Contents}
    (hes : ∀ e ∈ es, e.segment ≠ segment) {ps : List (List String × String)}
    (hps : ∀ p ∈ ps, p.1 ≠ []) (entries : Contents) :
    ps.foldl (fun c (path, title) => insertAt title (segment :: path) c)
        (es ++ [⟨segment, title, entries⟩]) =
      es ++ [⟨segment, title, ps.foldl (fun c (path, title) => insertAt title path c) entries⟩] := by
  induction ps generalizing entries with
  | nil => rfl
  | cons p ps ih =>
    obtain ⟨path, title'⟩ := p
    have hpath : path ≠ [] := hps _ List.mem_cons_self
    rw [List.foldl_cons, List.foldl_cons, ← ih fun q hq => hps q (List.mem_cons_of_mem _ hq)]
    simp [insertAt_cons, modifyEntry_append hes, modifyEntry, entitle, hpath]

/-- A table is got back from its titles. -/
theorem foldl_insertAt_titles {es : Contents} (h : Full es) {c : Contents}
    (hc : ∀ d ∈ c, ∀ e ∈ es, d.segment ≠ e.segment) :
    (titles es).foldl (fun c (path, title) => insertAt title path c) c = c ++ es := by
  induction h generalizing c with
  | nil => simp
  | @cons segment title entries es _ _ apart inside behind =>
    have hsegment : ∀ d ∈ c, d.segment ≠ segment := fun d hd => hc d hd _ List.mem_cons_self
    have hfirst : insertAt title [segment] c = c ++ [⟨segment, some title, []⟩] := by
      rw [insertAt_cons, modifyEntry_of_forall_ne hsegment]
      rfl
    have hinside := inside (c := []) nofun
    rw [titles_cons, ContentsEntry.titles_eq, List.foldl_append, List.foldl_append,
      List.foldl_map]
    show List.foldl _ (List.foldl _ (insertAt title [segment] c) _) _ = _
    rw [hfirst, foldl_insertAt_cons hsegment (fun p => ne_nil_of_mem_titles), hinside, behind]
    · simp
    · intro d hd e he
      rcases List.mem_append.1 hd with hd | hd
      · exact hc d hd e (List.mem_cons_of_mem _ he)
      · rw [List.mem_singleton.1 hd]
        exact (apart e he).symm

end Contents

/-! ## The table of a document -/

open Contents (titles linkNode)

section Document

variable (o : NumberingOptions) (fileId : Nat) {root : Node} (hfresh : AllOf Fresh [root])

theorem heading?_givenNumbers (root : Node) :
    (givenNumbers o root).filterMap GivenNumber.heading? =
      root.headings.zipWith (fun n cs => (cs, n.headingTitle)) (root.headingComponents o) :=
  filterMap_heading?_given (.initial o) root.children

include hfresh

/-- The titles of the table are those of the headings, each at the path of its number. -/
theorem titles_resolve :
    titles (resolve o fileId root).contents =
      ((givenNumbers o root).filterMap GivenNumber.heading?).map
        fun (cs, title) => (cs.map Nat.repr, title) := by
  have hfst : ((givenNumbers o root).filterMap GivenNumber.heading?).map Prod.fst =
      root.headingComponents o := by
    rw [heading?_givenNumbers, List.map_zipWith]
    exact (zipWith_right id (Nat.le_of_eq (length_headingComponents o root))).trans (List.map_id _)
  have hnumbers : ([] :: ((givenNumbers o root).filterMap GivenNumber.heading?).map
      Prod.fst).Pairwise (· < ·) := by
    rw [hfst]
    refine .cons (fun cs hcs => ?_) (pairwise_sectionNumbers _ _)
    cases cs with
    | nil => exact absurd (lt_of_mem_sectionNumbers hcs) (List.not_lt_nil _)
    | cons c cs => exact List.nil_lt_cons c cs
  rw [contents_resolve o fileId hfresh, Numbering.contents_foldl_pass, Contents.foldl_note]
  exact Contents.titles_foldl_insert .nil hnumbers

/-- The links of the table are the headings, each under its number. -/
theorem links_resolve :
    (resolve o fileId root).contents.toNode.findAll (·.tag == .link) =
      root.headings.zipWith (fun n cs => linkNode (dotted cs) n.headingTitle)
        (root.headingComponents o) := by
  have hlinks (c : Contents) : c.toNode.findAll (·.tag == .link) =
      (titles c).map fun (path, title) => linkNode (path.foldl Contents.joinNumber "") title :=
    (Contents.filter_link_listNodes _).trans (Contents.filter_link_itemNodes "" c)
  have hnumber : ∀ g ∈ (givenNumbers o root).filterMap GivenNumber.heading?,
      (g.1.map Nat.repr).foldl Contents.joinNumber "" = dotted g.1 := by
    intro g hg
    obtain ⟨given, hgiven, hg⟩ := List.mem_filterMap.1 hg
    cases given with
    | statement kind number => cases hg
    | «section» cs title =>
      cases hg
      exact Contents.foldl_joinNumber (Numbering.ne_nil_of_section_mem_given hgiven)
  have hgiven : ((givenNumbers o root).filterMap GivenNumber.heading?).map
      (fun g => linkNode (dotted g.1) g.2) =
        root.headings.zipWith (fun n cs => linkNode (dotted cs) n.headingTitle)
          (root.headingComponents o) := by
    rw [heading?_givenNumbers, List.map_zipWith]
  rw [hlinks, titles_resolve o fileId hfresh, List.map_map, ← hgiven]
  exact List.map_congr_left fun g hg => congrArg (linkNode · g.2) (hnumber g hg)

end Document

/-! ## Links and headings -/

/-- The link in a table of contents is the entry of a heading, which has its number in the resolved
document. -/
structure Node.IsEntryOf (link heading numbered : Node) : Prop where
  /-- The link goes to the number in front of the heading. -/
  href : ∃ number id, numbered.children.find? (·.hasRole .sectionNumber) = some number ∧
    number.attr? "id" = some id ∧ link.attr? "href" = some ("#" ++ id)
  /-- The link shows the number of the heading, and the title that it had before it was numbered. -/
  words : ∃ number, numbered.headingNumber? = some number ∧
    link.children = [(span .sectionNumber).setText number,
      (span .tocTitle).setText heading.headingTitle]

theorem zip_zipWith {α β γ : Type} (f : α → β → γ) (as : List α) (bs : List β) :
    as.zip (as.zipWith f bs) = (as.zip bs).map fun p => (p.1, f p.1 p.2) := by
  induction as generalizing bs with
  | nil => rfl
  | cons a as ih => cases bs <;> simp [ih]

/-- The links of the table of contents are the headings of the document, one by one, in document
order. -/
theorem links_are_headings (source : List Char) (fileId : Nat) (sections : Bool)
    (o : NumberingOptions) :
    let root := (Document.parse source fileId).tree sections
    let r := resolve o fileId root
    (∃ numbers : List (List Nat), numbers.length = root.headings.length ∧
      r.root.headings = root.headings.zipWith (Node.settledHeading r.labels fileId) numbers) ∧
    List.Forall₂ (fun link h => link.IsEntryOf h.1 h.2)
      (r.contents.toNode.findAll (·.tag == .link)) (root.headings.zip r.root.headings) := by
  intro root r
  have hfresh := fresh_tree source fileId sections
  have hlength := length_headingComponents o root
  have hheadings : r.root.headings = _ := headings_resolve o fileId hfresh
  have hlinks : r.contents.toNode.findAll (·.tag == .link) = _ := links_resolve o fileId hfresh
  refine ⟨⟨_, hlength, hheadings⟩, ?_⟩
  rw [hheadings, hlinks, zip_zipWith, ← List.map_uncurry_zip_eq_zipWith,
    List.forall₂_map_left_iff, List.forall₂_map_right_iff, List.forall₂_same]
  rintro ⟨n, cs⟩ -
  exact ⟨⟨_, _, Node.find?_settledHeading r.labels fileId n cs, Node.id_sectionSpan _ _, rfl⟩,
    ⟨_, Node.headingNumber?_settledHeading r.labels fileId n cs, rfl⟩⟩

end Treatise
