import Treatise.Proofs.Numbering.Settled

/-!
# Where labels stand

What a label resolves to, read off the tree alone: the innermost numbered statement around it, or
else the number in front of the last heading up to it.

* **`Node.labelSite?`** — the node that a key stands for in a tree with numbers. Of several labels
  with one key the last counts.
* **`recorded_of_settles`** — numbering records for each label the anchor of that node.
-/

namespace Treatise

open Node (Fresh AllOf descendantsOf)

/-! ## Sites -/

mutual

/-- The labels at and below a node, each with the node that it stands for. `inside` is the innermost
numbered statement around the node, and `last` the number of the last heading before it; the second
result is that behind it. -/
def labelSites (inside : Option Node) : Node → Option Node →
    List (String × Option Node) × Option Node
  | ⟨.heading _, _, _, _, _, children⟩, _ =>
    labelSitesOf inside children (children.find? (·.hasRole .sectionNumber))
  | ⟨.block st, attrs, flags, text, tail, children⟩, last =>
    if st.numbered then
      labelSitesOf (some ⟨.block st, attrs, flags, text, tail, children⟩) children last
    else labelSitesOf inside children last
  | ⟨.label, attrs, _, _, _, _⟩, last =>
    (((attrs.get? "key").map fun key => (key, inside.or last)).toList, last)
  | ⟨_, _, _, _, _, children⟩, last => labelSitesOf inside children last

/-- The labels among nodes that follow each other. -/
def labelSitesOf (inside : Option Node) : List Node → Option Node →
    List (String × Option Node) × Option Node
  | [], last => ([], last)
  | n :: ns, last =>
    let (sites, last) := labelSites inside n last
    let (more, last) := labelSitesOf inside ns last
    (sites ++ more, last)

end

/-- What the last label with a key stands for. -/
def lastSite (key : String) (sites : List (String × Option Node)) : Option (Option Node) :=
  (sites.reverse.find? (·.1 = key)).map (·.2)

/-- The node that a key stands for in a tree. -/
def Node.labelSite? (root : Node) (key : String) : Option Node :=
  (lastSite key (labelSitesOf none root.children none).1).join

section Equations

variable {inside last : Option Node} {n : Node}

theorem labelSitesOf_cons (ns : List Node) :
    labelSitesOf inside (n :: ns) last =
      ((labelSites inside n last).1 ++ (labelSitesOf inside ns (labelSites inside n last).2).1,
        (labelSitesOf inside ns (labelSites inside n last).2).2) := rfl

theorem labelSites_heading {level : Nat} (h : n.tag = .heading level) :
    labelSites inside n last =
      labelSitesOf inside n.children (n.children.find? (·.hasRole .sectionNumber)) := by
  obtain ⟨tag, attrs, flags, text, tail, children⟩ := n
  subst h
  rfl

theorem labelSites_numbered {st : Statement} (h : n.tag = .block st)
    (hnumbered : st.numbered = true) :
    labelSites inside n last = labelSitesOf (some n) n.children last := by
  obtain ⟨tag, attrs, flags, text, tail, children⟩ := n
  subst h
  rw [labelSites, if_pos hnumbered]

theorem labelSites_unnumbered {st : Statement} (h : n.tag = .block st)
    (hnumbered : st.numbered = false) :
    labelSites inside n last = labelSitesOf inside n.children last := by
  obtain ⟨tag, attrs, flags, text, tail, children⟩ := n
  subst h
  rw [labelSites, if_neg (by simp [hnumbered])]

theorem labelSites_label (h : n.tag = .label) :
    labelSites inside n last =
      (((n.attr? "key").map fun key => (key, inside.or last)).toList, last) := by
  obtain ⟨tag, attrs, flags, text, tail, children⟩ := n
  subst h
  rfl

/-- A node that is none of these is looked into. -/
theorem labelSites_of_ne (hheading : ∀ level, n.tag ≠ .heading level)
    (hblock : ∀ st, n.tag ≠ .block st) (hlabel : n.tag ≠ .label) :
    labelSites inside n last = labelSitesOf inside n.children last := by
  obtain ⟨tag, attrs, flags, text, tail, children⟩ := n
  cases tag with
  | heading level => exact absurd rfl (hheading level)
  | block st => exact absurd rfl (hblock st)
  | label => exact absurd rfl hlabel
  | _ => rfl

end Equations

/-! ## Sites are in the tree -/

/-- A node that a label can stand for: a numbered statement, or the number of a heading. -/
def Node.IsSite (n : Node) : Prop :=
  (∃ st, n.tag = .block st ∧ st.numbered = true) ∨ n.tag = .span .sectionNumber

/-- The nodes in a result of the walk have a property. -/
structure SitesHave (p : Node → Prop) (r : List (String × Option Node) × Option Node) : Prop where
  sites : ∀ site ∈ r.1, ∀ n, site.2 = some n → p n
  last : ∀ n, r.2 = some n → p n

/-- What all possible sites in the tree have, and those that are given, the sites of labels have. -/
theorem sitesHave_labelSitesOf {p : Node → Prop} {ns : List Node} {inside last : Option Node}
    (hp : ∀ n ∈ descendantsOf ns, n.IsSite → p n) (hinside : ∀ n, inside = some n → p n)
    (hlast : ∀ n, last = some n → p n) : SitesHave p (labelSitesOf inside ns last) := by
  induction ns using Node.forest_induction generalizing inside last with
  | nil => exact ⟨nofun, hlast⟩
  | cons n ns below behind =>
    rw [Node.descendantsOf_cons] at hp
    have hbelow : ∀ m ∈ descendantsOf n.children, m.IsSite → p m :=
      fun m hm => hp m (List.mem_cons_of_mem n (List.mem_append_left _ hm))
    have hnode : SitesHave p (labelSites inside n last) := by
      cases htag : n.tag with
      | heading level =>
        rw [labelSites_heading htag]
        -- the heading's own number is the last one for what follows
        refine below hbelow hinside fun m hm => ?_
        have hrole : m.hasRole .sectionNumber = true :=
          List.find?_some (p := fun c : Node => c.hasRole .sectionNumber) hm
        exact hbelow m (Node.mem_descendantsOf_of_mem (List.mem_of_find?_eq_some hm))
          (.inr (by simpa [Node.hasRole] using hrole))
      | block st =>
        cases hnumbered : st.numbered with
        | true =>
          rw [labelSites_numbered htag hnumbered]
          refine below hbelow (fun m hm => ?_) hlast
          cases hm
          exact hp n List.mem_cons_self (.inl ⟨st, htag, hnumbered⟩)
        | false =>
          rw [labelSites_unnumbered htag hnumbered]
          exact below hbelow hinside hlast
      | label =>
        rw [labelSites_label htag]
        refine ⟨fun site hsite m hm => ?_, hlast⟩
        obtain ⟨key, -, rfl⟩ : ∃ key, n.attr? "key" = some key ∧ (key, inside.or last) = site := by
          simpa using hsite
        rcases Option.or_eq_some_iff.1 hm with h | ⟨-, h⟩
        · exact hinside m h
        · exact hlast m h
      | _ =>
        rw [labelSites_of_ne (by simp [htag]) (by simp [htag]) (by simp [htag])]
        exact below hbelow hinside hlast
    have hrest := behind (fun m hm => hp m (List.mem_cons_of_mem n (List.mem_append_right _ hm)))
      hinside hnode.last
    rw [labelSitesOf_cons]
    refine ⟨fun site hsite => ?_, hrest.last⟩
    rcases List.mem_append.1 hsite with h | h
    · exact hnode.sites site h
    · exact hrest.sites site h

/-! ## What numbering records -/

theorem lastSite_append (key : String) (a b : List (String × Option Node)) :
    lastSite key (a ++ b) = (lastSite key b).or (lastSite key a) := by
  rw [lastSite, List.reverse_append, List.find?_append, Option.map_or]
  rfl

/-- The labels behind some sites: the last label with a key counts, and if it stands for a node, it
has the anchor of that node. -/
def Recorded (sites : List (String × Option Node)) (before after : Dict Target) : Prop :=
  ∀ key, match lastSite key sites with
    | none => after.get? key = before.get? key
    | some site => ∃ t, after.get? key = some t ∧
      ∀ n, site = some n → n.attr? "id" = some t.anchor

theorem Recorded.nil (d : Dict Target) : Recorded [] d d := fun _ => rfl

theorem Recorded.append {a b : List (String × Option Node)} {d e f : Dict Target}
    (h : Recorded a d e) (h' : Recorded b e f) : Recorded (a ++ b) d f := by
  intro key
  rw [lastSite_append]
  have ha := h key
  have hb := h' key
  -- a later label with the key replaces an earlier one
  cases hlast : lastSite key b with
  | some site =>
    rw [hlast] at hb
    exact hb
  | none =>
    rw [hlast] at hb
    rw [Option.none_or, hb]
    exact ha

/-- What is around a place in the tree agrees with the state of the numbering there. -/
structure Surrounds (inside last : Option Node) (enclosing : List (Option Target))
    (s : Numbering) : Prop where
  inside : inside.map (·.attr? "id") = (enclosing.findSome? id).map (some ·.anchor)
  last : ∀ n, last = some n → n.attr? "id" = some (sectionAnchor (dotted s.components))

theorem Surrounds.anchor_eq {inside last : Option Node} {enclosing : List (Option Target)}
    {s : Numbering} (h : Surrounds inside last enclosing s) {n : Node}
    (hn : inside.or last = some n) : n.attr? "id" = some (s.labelTarget enclosing).anchor := by
  have hinside := h.inside
  cases inside with
  | some m =>
    -- a statement that took a number is around the place, and so is its target
    obtain rfl : m = n := Option.some.inj hn
    cases htarget : enclosing.findSome? id with
    | none =>
      rw [htarget] at hinside
      cases hinside
    | some t =>
      rw [htarget] at hinside
      rw [Numbering.labelTarget, htarget]
      exact Option.some.inj hinside
  | none =>
    cases htarget : enclosing.findSome? id with
    | none =>
      rw [Numbering.labelTarget, htarget]
      exact h.last n hn
    | some t =>
      rw [htarget] at hinside
      cases hinside

/-- A label is recorded with the anchor of its site. -/
theorem recorded_recordLabel {inside last : Option Node} {enclosing : List (Option Target)}
    {s : Numbering} (h : Surrounds inside last enclosing s) (n : Node) :
    Recorded (((n.attr? "key").map fun key => (key, inside.or last)).toList) s.labels
      (s.recordLabel enclosing n).labels := by
  cases hkey : n.attr? "key" with
  | none =>
    rw [Numbering.recordLabel, hkey]
    exact Recorded.nil _
  | some key =>
    rw [Numbering.recordLabel, hkey]
    intro k
    by_cases hk : key = k
    · subst hk
      have hlast : lastSite key [(key, inside.or last)] = some (inside.or last) := by
        simp [lastSite]
      rw [Option.map_some, Option.toList_some, hlast]
      exact ⟨s.labelTarget enclosing, by simp, fun m hm => h.anchor_eq hm⟩
    · have hlast : lastSite k [(key, inside.or last)] = none := by
        simp [lastSite, hk]
      rw [Option.map_some, Option.toList_some, hlast]
      simp [Ne.symm hk]

theorem labelSites_numberedHeading {n : Node} {level : Nat} (h : n.tag = .heading level)
    (number : String) (cs : List Node) (inside last : Option Node) :
    labelSites inside (n.numberedHeading number cs) last =
      labelSitesOf inside cs (some (Node.sectionSpan number n.text)) :=
  labelSites_heading (n := n.numberedHeading number cs) h

theorem labelSitesOf_numberSpan (target : Option Target) (inside last : Option Node) :
    labelSitesOf inside [numberSpan target] last = ([], last) := by
  rw [labelSitesOf_cons, labelSites_of_ne (by simp) (by simp) (by simp), children_numberSpan]
  rfl

/-- Numbering records for each label the anchor of its site. -/
theorem recorded_of_settles {labels : Dict Target} {fileId : Nat} {o : NumberingOptions}
    {enclosing : List (Option Target)} {s s' : Numbering} {ns ms : List Node}
    (h : Settles o labels fileId enclosing s ns ms s') {inside last : Option Node}
    (hs : Surrounds inside last enclosing s) :
    Recorded (labelSitesOf inside ms last).1 s.labels s'.labels ∧
      Surrounds inside (labelSitesOf inside ms last).2 enclosing s' := by
  induction h generalizing inside last with
  | nil => exact ⟨Recorded.nil _, hs⟩
  | @heading _ s _ _ n _ _ level _ tag _ _ below behind =>
    -- the number in front of the heading counts from its own words on
    have hspan : Surrounds inside
        (some (Node.sectionSpan (dotted (Numbering.nextComponents s.components level)) n.text)) _
        (s.pass o (.heading level n.headingTitle)) :=
      ⟨hs.inside, fun m hm => by cases hm; rfl⟩
    obtain ⟨hbelow, hafter⟩ := below hspan
    obtain ⟨hbehind, hend⟩ := behind hafter
    rw [labelSitesOf_cons, labelSites_numberedHeading tag]
    exact ⟨hbelow.append hbehind, hend⟩
  | @numbered enclosing s _ _ n cs _ _ _ st' _ _ _ isNumbered _ _ below behind =>
    have hid := id_setStatementNumber { n with tag := .block st', children := cs }
      (dotted (s.statementComponents o st'.kind))
    -- inside the statement its own number comes first, in the tree and in the state
    have hinside : Surrounds
        (some (Node.setStatementNumber (dotted (s.statementComponents o st'.kind))
          { n with tag := .block st', children := cs })) last
        (some (s.statementTarget o st'.kind) :: enclosing) (s.pass o (.statement st'.kind)) :=
      ⟨congrArg some hid, hs.last⟩
    obtain ⟨hbelow, hafter⟩ := below hinside
    obtain ⟨hbehind, hend⟩ := behind ⟨hs.inside, hafter.last⟩
    rw [labelSitesOf_cons, labelSites_numbered rfl isNumbered]
    exact ⟨hbelow.append hbehind, hend⟩
  | @unnumbered enclosing s _ _ _ _ _ _ _ _ _ _ _ notNumbered _ _ below behind =>
    -- a statement without a number hides none of those around it
    have hinside : Surrounds inside last (none :: enclosing) s := ⟨hs.inside, hs.last⟩
    obtain ⟨hbelow, hafter⟩ := below hinside
    obtain ⟨hbehind, hend⟩ := behind ⟨hs.inside, hafter.last⟩
    rw [labelSitesOf_cons, labelSites_unnumbered rfl notNumbered]
    exact ⟨hbelow.append hbehind, hend⟩
  | @place enclosing _ _ n _ _ fresh tag _ behind =>
    have hnil : (n.setText (shownNumber enclosing)).children = [] :=
      fresh.children_eq_nil (.inr tag)
    rw [labelSitesOf_cons, labelSites_of_ne (by simp [Node.setText, tag])
      (by simp [Node.setText, tag]) (by simp [Node.setText, tag]), hnil]
    exact behind hs
  | @label enclosing s _ n _ _ _ tag _ behind =>
    have hrecorded := recorded_recordLabel hs n
    have hlater : Surrounds inside last enclosing (s.recordLabel enclosing n) :=
      ⟨hs.inside, by rw [Numbering.components_recordLabel]; exact hs.last⟩
    obtain ⟨hbehind, hend⟩ := behind hlater
    rw [labelSitesOf_cons, labelSites_label tag]
    exact ⟨hrecorded.append hbehind, hend⟩
  | reference _ tag _ behind =>
    rw [labelSitesOf_cons, labelSites_of_ne (by simp [tag]) (by simp [tag]) (by simp [tag]),
      labelSitesOf_numberSpan]
    exact behind hs
  | «section» _ tag _ _ _ below behind =>
    obtain ⟨hbelow, hafter⟩ := below hs
    obtain ⟨hbehind, hend⟩ := behind hafter
    rw [labelSitesOf_cons, labelSites_of_ne (by simp [tag]) (by simp [tag]) (by simp [tag])]
    exact ⟨hbelow.append hbehind, hend⟩
  | @plain _ _ _ _ n cs _ _ _ tag _ _ _ below behind =>
    obtain ⟨hheading, hblock⟩ := Tag.ne_of_isPlain tag
    obtain ⟨hbelow, hafter⟩ := below hs
    obtain ⟨hbehind, hend⟩ := behind hafter
    rw [labelSitesOf_cons, labelSites_of_ne (n := { n with children := cs }) hheading hblock
      (Tag.ne_label_of_isPlain tag)]
    exact ⟨hbelow.append hbehind, hend⟩

/-! ## Documents -/

theorem exists_mem_of_lastSite {key : String} {sites : List (String × Option Node)}
    {site : Option Node} (h : lastSite key sites = some site) : ∃ e ∈ sites, e.2 = site := by
  obtain ⟨e, he, hsite⟩ := Option.map_eq_some_iff.1 h
  exact ⟨e, List.mem_reverse.1 (List.mem_of_find?_eq_some he), hsite⟩

/-- The site of a label is in the tree, and the label points to its anchor. -/
theorem labelSite?_resolve (o : NumberingOptions) (fileId : Nat) {root : Node}
    (hfresh : AllOf Fresh [root]) {key : String} {n : Node}
    (h : (resolve o fileId root).root.labelSite? key = some n) :
    n ∈ (resolve o fileId root).root.descendants ∧ n.IsSite ∧
      ∃ t, (resolve o fileId root).labels.get? key = some t ∧
        n.attr? "id" = some t.anchor := by
  have hlast := Option.join_eq_some_iff.1 h
  have hstart : Surrounds none none [] (.initial o) := ⟨rfl, nofun⟩
  -- outside the document nothing is around a label, and nothing is recorded
  have hrecorded := (recorded_of_settles (settles_resolve o fileId hfresh) hstart).1 key
  rw [hlast] at hrecorded
  obtain ⟨t, ht, hanchor⟩ := hrecorded
  obtain ⟨e, he, hsite⟩ := exists_mem_of_lastSite hlast
  rw [Node.descendants_eq]
  have hsites : SitesHave
      (fun m => m ∈ descendantsOf (resolve o fileId root).root.children ∧ m.IsSite)
      (labelSitesOf none (resolve o fileId root).root.children none) :=
    sitesHave_labelSitesOf (fun _ hm hsite => ⟨hm, hsite⟩) nofun nofun
  obtain ⟨hmem, hn⟩ := hsites.sites e he n hsite
  exact ⟨hmem, hn, t, ht, hanchor n rfl⟩

end Treatise
