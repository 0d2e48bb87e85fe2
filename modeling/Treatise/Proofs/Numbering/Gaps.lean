import Treatise.Proofs.Numbering.Statements

/-!
# Gaps between the numbers of statements

Where all kinds count together, the statements that have the same section components in front of
their counters come one after the other, and each counts one more than the one before it. What this
does not say is where they begin.

* **`Consecutive`** — the counters behind the same section components follow each other. The state
  of the walk carries it: a heading that does not change the components does not restart the count
  (`take_lt_take_next`), and components that were left do not come back (`take_le_take_next`).
* **`counters_have_no_gap_iff`** — they begin with one if, and only if, no numbered statement is
  between the first of them and the heading that restarted the count. A heading that is too deep to
  restart the count, but makes a short section number longer, changes the components all the same.
-/

namespace Treatise

open Node (Fresh AllOf Framed descendantsOf placesOf splits)
open Treatise.Numbering (behind)

/-! ## Counters in document order -/

namespace Numbering

/-- The section components in front of a statement's counter. -/
def above (o : NumberingOptions) (s : Numbering) : List Nat := s.components.take o.depthLimit

variable {o : NumberingOptions} {s : Numbering}

/-- Where the components in front of counters stay the same, so does the count. -/
theorem counted_eq_of_above_eq {level : Nat} {title : String}
    (h : (s.pass o (.heading level title)).above o = s.above o) :
    (s.pass o (.heading level title)).counted = s.counted := by
  show (if level - 1 < o.depthLimit then [] else s.counted) = s.counted
  by_cases hreset : level - 1 < o.depthLimit
  · have hlt : s.above o < (s.pass o (.heading level title)).above o :=
      take_lt_take_next s.components hreset
    rw [h] at hlt
    exact absurd hlt (List.lt_irrefl _)
  · rw [if_neg hreset]

/-- A heading that is too deep to restart the count keeps the components in front of counters, if
the section number has all of them. -/
theorem above_eq_of_deep {level : Nat} {title : String} (hdeep : o.depthLimit ≤ level - 1)
    (hlong : o.depthLimit ≤ s.components.length) :
    (s.pass o (.heading level title)).above o = s.above o := by
  show (nextComponents s.components level).take o.depthLimit = s.components.take o.depthLimit
  rcases Nat.lt_or_ge (level - 1) s.components.length with hlt | hge
  · have hlength : o.depthLimit ≤ (s.components.take (level - 1)).length := by
      rw [List.length_take]
      omega
    rw [nextComponents_of_lt hlt, List.take_append_of_le_length hlength, List.take_take,
      Nat.min_eq_left hdeep]
  · rw [nextComponents_of_le hge, List.take_append_of_le_length hlong]

theorem above_pass_heading (level : Nat) (title : String) :
    s.above o = (s.pass o (.heading level title)).above o ∨
      s.above o < (s.pass o (.heading level title)).above o :=
  take_le_take_next s.components level o.depthLimit

end Numbering

/-- The counters of the numbered statements among nodes that have these components in front, where
other nodes come before. -/
def countersUnder (o : NumberingOptions) (components : List Nat) (before ns : List Node) :
    List Nat :=
  ((splits before ns).filter fun q =>
    q.2.takesNumber o && (behind o q.1).above o == components).map
      fun q => 1 + (behind o q.1).counted.length

section CountersUnder

variable {o : NumberingOptions} {components : List Nat} {before ns : List Node} {n : Node}

theorem countersUnder_cons_of_pos (h : n.takesNumber o = true)
    (habove : (behind o before).above o = components) :
    countersUnder o components before (n :: ns) =
      (1 + (behind o before).counted.length) :: countersUnder o components (before ++ [n]) ns := by
  rw [countersUnder, splits, List.filter_cons_of_pos (by simp [h, habove]), List.map_cons]
  rfl

theorem countersUnder_cons_of_neg
    (h : ¬ (n.takesNumber o = true ∧ (behind o before).above o = components)) :
    countersUnder o components before (n :: ns) =
      countersUnder o components (before ++ [n]) ns := by
  rw [countersUnder, splits, List.filter_cons_of_neg (by simpa using h)]
  rfl

end CountersUnder

/-- What holds for the counters behind the same components, from a state of the walk on. -/
structure Consecutive (o : NumberingOptions) (components : List Nat) (s : Numbering)
    (counters : List Nat) : Prop where
  /-- They follow each other. -/
  follow : ∃ first, counters = List.range' first counters.length
  /-- If the components are those of now, they count on from now. -/
  now : s.above o = components →
    counters = List.range' (1 + s.counted.length) counters.length
  /-- If the components are smaller than those of now, there are none. -/
  past : components < s.above o → counters = []

namespace Consecutive

variable {o : NumberingOptions} {components : List Nat} {s : Numbering} {counters : List Nat}

theorem nil : Consecutive o components s [] := ⟨⟨0, rfl⟩, fun _ => rfl, fun _ => rfl⟩

theorem heading {level : Nat} {title : String}
    (h : Consecutive o components (s.pass o (.heading level title)) counters) :
    Consecutive o components s counters := by
  refine ⟨h.follow, fun hnow => ?_, fun hpast => ?_⟩
  · rcases Numbering.above_pass_heading level title with heq | hlt
    · have hnext := h.now (heq.symm.trans hnow)
      rwa [Numbering.counted_eq_of_above_eq heq.symm] at hnext
    · -- the components of now are left behind
      have hnil := h.past (hnow ▸ hlt)
      rw [hnil]
      rfl
  · apply h.past
    rcases Numbering.above_pass_heading level title with heq | hlt
    · rwa [← heq]
    · exact List.lt_trans hpast hlt

theorem statement_of_eq {kind : Kind} (hnow : s.above o = components)
    (h : Consecutive o components (s.pass o (.statement kind)) counters) :
    Consecutive o components s ((1 + s.counted.length) :: counters) := by
  have hnext : counters = List.range' (1 + (s.counted.length + 1)) counters.length := h.now hnow
  have hcons : (1 + s.counted.length) :: counters =
      List.range' (1 + s.counted.length) (counters.length + 1) := by
    rw [List.range'_succ, Nat.add_assoc, ← hnext]
  refine ⟨⟨_, hcons⟩, fun _ => hcons, fun hpast => ?_⟩
  rw [hnow] at hpast
  exact absurd hpast (List.lt_irrefl _)

theorem statement_of_ne {kind : Kind} (hnow : s.above o ≠ components)
    (h : Consecutive o components (s.pass o (.statement kind)) counters) :
    Consecutive o components s counters :=
  ⟨h.follow, fun heq => absurd heq hnow, h.past⟩

end Consecutive

/-- The counters behind the same components follow each other in every document. -/
theorem consecutive_countersUnder (o : NumberingOptions) (components : List Nat)
    (before ns : List Node) :
    Consecutive o components (behind o before) (countersUnder o components before ns) := by
  induction ns generalizing before with
  | nil => exact .nil
  | cons n ns ih =>
    have ih := ih (before ++ [n])
    by_cases htakes : n.takesNumber o = true
    · obtain ⟨st, htag⟩ := exists_block_of_takesNumber htakes
      rw [Numbering.behind_concat_of_some (landmark?_of_takesNumber htag htakes)] at ih
      by_cases hnow : (behind o before).above o = components
      · rw [countersUnder_cons_of_pos htakes hnow]
        exact ih.statement_of_eq hnow
      · rw [countersUnder_cons_of_neg fun h => hnow h.2]
        exact ih.statement_of_ne hnow
    · rw [countersUnder_cons_of_neg fun h => htakes h.1]
      cases hlandmark : n.landmark? o Node.headingTitle with
      | none => rwa [Numbering.behind_concat_of_none hlandmark] at ih
      | some l =>
        rw [Numbering.behind_concat_of_some hlandmark] at ih
        cases l with
        | heading level title => exact ih.heading
        | statement kind => exact absurd (takesNumber_of_landmark? hlandmark) htakes

/-- Every heading that is too deep to restart the count stands where the section number has all
components that are put in front of counters. -/
def Steady (o : NumberingOptions) (before ns : List Node) : Prop :=
  ∀ q ∈ splits before ns, ∀ level, q.2.headingLevel? = some level →
    o.depthLimit < level → o.depthLimit ≤ (sectionBehind o q.1).length

/-- Behind components that are not those of now, counters start with one, as no deep heading makes a
short section number longer. -/
theorem countersUnder_eq_of_steady {o : NumberingOptions} {components : List Nat}
    {before ns : List Node} (hsteady : Steady o before ns)
    (hne : (behind o before).above o ≠ components) :
    countersUnder o components before ns =
      List.range' 1 (countersUnder o components before ns).length := by
  induction ns generalizing before with
  | nil => rfl
  | cons n ns ih =>
    have hlater : Steady o (before ++ [n]) ns := fun q hq => hsteady q (List.mem_cons_of_mem _ hq)
    rw [countersUnder_cons_of_neg fun h => hne h.2]
    cases hlandmark : n.landmark? o Node.headingTitle with
    | none => exact ih hlater (by rwa [Numbering.behind_concat_of_none hlandmark])
    | some l =>
      have hbehind : behind o (before ++ [n]) = (behind o before).pass o l :=
        Numbering.behind_concat_of_some hlandmark
      cases l with
      | statement kind => exact ih hlater (by rwa [hbehind])
      | heading level title =>
        have hlevel : n.headingLevel? = some level := by
          rw [← level?_landmark? (o := o) n, hlandmark]
          rfl
        by_cases hnow : (behind o (before ++ [n])).above o = components
        · have hrange := (consecutive_countersUnder o components (before ++ [n]) ns).now hnow
          -- the heading came to the components, so that it is one that restarts the count
          have hcounted : (behind o (before ++ [n])).counted = [] := by
            rw [hbehind] at hnow ⊢
            show (if level - 1 < o.depthLimit then [] else (behind o before).counted) = []
            by_cases hreset : level - 1 < o.depthLimit
            · rw [if_pos hreset]
            · have hlong : o.depthLimit ≤ (behind o before).components.length := by
                rw [Numbering.components_behind ⟨n, [], before⟩]
                by_cases hdeep : o.depthLimit < level
                · exact hsteady (before, n) List.mem_cons_self level hlevel hdeep
                · omega
              rw [Numbering.above_eq_of_deep (by omega) hlong] at hnow
              exact absurd hnow hne
          rwa [hcounted] at hrange
        · exact ih hlater hnow

/-! ## Documents -/

section Places

variable {o : NumberingOptions} {p : Place}

theorem countsWith_of_byKind (ho : o.byKind = false) (n : Node) :
    p.countsWith o n = n.takesNumber o := by
  rw [Place.countsWith, ho, Bool.not_false, Bool.true_or, Bool.and_true]

theorem count_eq_one_iff (ho : o.byKind = false) :
    p.count o = 1 ↔ ∀ n ∈ p.sinceRestart o, n.takesNumber o = false := by
  have hzero : p.count o = 1 ↔ (p.sinceRestart o).countP (p.countsWith o) = 0 := by
    rw [Place.count]
    omega
  rw [hzero, List.countP_eq_zero]
  simp only [countsWith_of_byKind ho, Bool.not_eq_true]

theorem count_eq_length_counted (ho : o.byKind = false) (hp : p.node.takesNumber o = true)
    (hframed : ∀ n ∈ p.before, Framed n) :
    p.count o = 1 + (behind o p.before).counted.length := by
  obtain ⟨st, htag⟩ := exists_block_of_takesNumber hp
  rw [Place.count, Place.countP_countsWith htag, if_neg (by simp [ho]),
    Numbering.counted_behind hframed]
  rfl

theorem map_count_places (ho : o.byKind = false) {root : Node}
    (hframed : AllOf Framed root.children) (components : List Nat) :
    ((root.places.filter (·.node.takesNumber o)).filter fun p =>
      (p.components o).take o.depthLimit == components).map (Place.count o) =
        countersUnder o components [] root.descendants := by
  have habove (p : Place) : (behind o p.before).above o = (p.components o).take o.depthLimit := by
    rw [Numbering.above, Numbering.components_behind]
  have hcount : ∀ p ∈ root.places, p.node.takesNumber o = true →
      p.count o = 1 + (behind o p.before).counted.length := by
    intro p hp htakes
    refine count_eq_length_counted ho htakes fun n hn => hframed n ?_
    obtain ⟨rest, hrest⟩ := Node.exists_rest_of_mem_places hp
    rw [← Node.descendants_eq, hrest]
    exact List.mem_append_left _ hn
  rw [countersUnder, Node.descendants_eq, ← Node.map_split_placesOf [], List.filter_map,
    List.map_map, List.filter_filter]
  have hfilter : ((fun q : List Node × Node =>
      q.2.takesNumber o && (behind o q.1).above o == components) ∘ fun p : Place =>
        (p.before, p.node)) = fun p : Place =>
      (p.components o).take o.depthLimit == components && p.node.takesNumber o := by
    funext p
    rw [Function.comp_apply, habove, Bool.and_comm]
  rw [hfilter]
  refine List.map_congr_left fun p hp => ?_
  obtain ⟨hp, htakes⟩ := List.mem_filter.1 hp
  exact hcount p hp (Bool.and_eq_true_iff.1 htakes).2

end Places

theorem filter_takesNumber (o : NumberingOptions) (ps : List Place) :
    (ps.filter (·.node.isStatement)).filter (·.node.takesNumber o) =
      ps.filter (·.node.takesNumber o) := by
  rw [List.filter_filter]
  refine List.filter_congr fun p _ => ?_
  cases htakes : p.node.takesNumber o with
  | false => rfl
  | true =>
    obtain ⟨st, hst⟩ := exists_block_of_takesNumber htakes
    rw [isStatement_of_block hst, Bool.and_true]

theorem filter_isNumbered (ns : List Node) :
    (ns.filter (·.isStatement)).filter (·.isNumbered) = ns.filter (·.isNumbered) := by
  rw [List.filter_filter]
  refine List.filter_congr fun n _ => ?_
  cases hnumbered : n.isNumbered with
  | false => rfl
  | true => rw [isStatement_of_isNumbered hnumbered, Bool.and_true]

/-- The numbered statements of a resolved tree show the numbers of the places that take one. -/
theorem map_id_of_paired {o : NumberingOptions} {ps : List Place} {ms : List Node}
    (h : Paired (NumberedAs o) ps ms) :
    ((descendantsOf ms).filter (·.isNumbered)).map (·.attr? "id") =
      (ps.filter (·.node.takesNumber o)).map fun p => some (p.number o) := by
  rw [Paired] at h
  rw [← filter_takesNumber, ← filter_isNumbered]
  generalize ps.filter (·.node.isStatement) = ps at h ⊢
  generalize (descendantsOf ms).filter (·.isStatement) = ms at h ⊢
  induction h with
  | nil => rfl
  | @cons p m ps ms hpm _ ih =>
    have hnumbered := hpm.isNumbered_eq
    have hid := hpm.id
    cases htakes : p.node.takesNumber o with
    | false =>
      rw [htakes] at hnumbered
      rw [List.filter_cons_of_neg (by simp [hnumbered]),
        List.filter_cons_of_neg (by simp [htakes]), ih]
    | true =>
      rw [htakes] at hnumbered
      rw [if_pos htakes] at hid
      rw [List.filter_cons_of_pos (by exact hnumbered), List.filter_cons_of_pos (by exact htakes),
        List.map_cons, List.map_cons, ih, hid]

/-- Where no deep heading makes a short section number longer, all counters begin with one. -/
theorem countersUnder_descendants {o : NumberingOptions} {root : Node}
    (h : ∀ p ∈ root.places, ∀ level, p.node.headingLevel? = some level →
      o.depthLimit < level → o.depthLimit ≤ (p.components o).length) (components : List Nat) :
    countersUnder o components [] root.descendants =
      List.range' 1 (countersUnder o components [] root.descendants).length := by
  have hsteady : Steady o [] root.descendants := by
    intro q hq level hlevel hdeep
    rw [Node.descendants_eq, ← Node.map_split_placesOf []] at hq
    obtain ⟨p, hp, rfl⟩ := List.mem_map.1 hq
    exact h p hp level hlevel hdeep
  by_cases hnow : (behind o []).above o = components
  · exact (consecutive_countersUnder o components [] root.descendants).now hnow
  · exact countersUnder_eq_of_steady hsteady hnow

/-- The numbers of statements with the same components in front follow each other. They begin with
one, if nothing that has a number is between the first of these statements and the heading that
restarted the count before it; otherwise they begin with a higher number. They do begin with one if
every heading that is too deep to restart the count stands where the section number has all
components that are put in front of counters. -/
theorem counters_have_no_gap_iff (source : List Char) (fileId resolverId : Nat) (sections : Bool)
    (o : NumberingOptions) (ho : o.byKind = false) :
    let tree := (Document.parse source fileId).tree sections
    let numbered := tree.places.filter (·.node.takesNumber o)
    let behind := fun components => numbered.filter fun p =>
      (p.components o).take o.depthLimit == components
    ((resolve o resolverId tree).root.descendants.filter (·.isNumbered)).map (·.attr? "id") =
        numbered.map (fun p => some (p.number o)) ∧
      (∀ (components : List Nat) (first : Place) (rest : List Place),
        behind components = first :: rest →
        (behind components).map (Place.count o) = List.range' (first.count o) (rest.length + 1) ∧
        ((behind components).map (Place.count o) = List.range' 1 (rest.length + 1) ↔
          ∀ n ∈ first.sinceRestart o, n.takesNumber o = false)) ∧
      ((∀ p ∈ tree.places, ∀ level, p.node.headingLevel? = some level →
          o.depthLimit < level → o.depthLimit ≤ (p.components o).length) →
        ∀ components, (behind components).map (Place.count o) =
          List.range' 1 (behind components).length) := by
  intro tree numbered behind
  have hfresh := fresh_tree source fileId sections
  have hframed := framed_tree source fileId sections
  have hcounters (components : List Nat) : (behind components).map (Place.count o) =
      countersUnder o components [] tree.descendants := map_count_places ho hframed components
  refine ⟨?_, fun components first rest hcut => ?_, fun hlong components => ?_⟩
  · rw [Node.descendants_eq]
    exact map_id_of_paired (paired_resolve o resolverId hfresh hframed)
  · obtain ⟨start, hstart⟩ := (consecutive_countersUnder o components [] tree.descendants).follow
    rw [← hcounters, List.length_map, hcut, List.length_cons] at hstart
    -- the first of the numbers is where they start
    have hfirst : first.count o = start := by
      rw [List.map_cons, List.range'_succ] at hstart
      exact (List.cons.inj hstart).1
    rw [hcut, hstart, ← count_eq_one_iff ho, hfirst]
    refine ⟨rfl, fun hone => ?_, ?_⟩
    · rw [List.range'_succ, List.range'_succ] at hone
      exact (List.cons.inj hone).1
    · rintro rfl
      rfl
  · have hrange := countersUnder_descendants hlong components
    rwa [← hcounters, List.length_map] at hrange

/-- Behind `# a` and a numbered statement, `### b` makes the section number `1` longer and does not
restart the count, so that the only number inside `1.1` is `1.1.2`. With `## b` it is `1.1.1`. -/
theorem counters_have_no_gap_iff_of_skipped_level :
    let o : NumberingOptions := { depthLimit := 2 }
    let behind := fun (source : String) =>
      (((Document.parse source.toList 0).tree true).places.filter (·.node.takesNumber o)).filter
        fun p => (p.components o).take o.depthLimit == [1, 1]
    (∃ p, behind "# a\n\nTheorem: x {}\n\n### b\n\nTheorem: y {}" = [p] ∧
      p.number o = "1.1.2" ∧ ¬ ∀ n ∈ p.sinceRestart o, n.takesNumber o = false) ∧
    (behind "# a\n\nTheorem: x {}\n\n## b\n\nTheorem: y {}").map (Place.count o) = [1] := by
  intro o behind
  constructor
  · have hnumbers : (behind "# a\n\nTheorem: x {}\n\n### b\n\nTheorem: y {}").map
        (Place.numberComponents o) = [[1, 1, 2]] := by decide +kernel
    obtain ⟨p, hp⟩ : ∃ p, behind "# a\n\nTheorem: x {}\n\n### b\n\nTheorem: y {}" = [p] := by
      refine List.length_eq_one_iff.1 ?_
      have hlength := congrArg List.length hnumbers
      rwa [List.length_map] at hlength
    rw [hp, List.map_singleton] at hnumbers
    have hnumber : p.numberComponents o = [1, 1, 2] := (List.cons.inj hnumbers).1
    have hcount : p.count o = 2 := by
      have hlast := congrArg List.getLast? hnumber
      rw [Place.numberComponents, List.getLast?_concat] at hlast
      exact Option.some.inj hlast
    refine ⟨p, hp, ?_, fun hnone => ?_⟩
    · rw [Place.number, hnumber]
      decide
    · have hgap := (counters_have_no_gap_iff "# a\n\nTheorem: x {}\n\n### b\n\nTheorem: y {}".toList
        0 0 true o rfl).2.1 [1, 1] p [] hp
      have hone := hgap.2.2 hnone
      rw [hgap.1, hcount] at hone
      exact absurd hone (by decide)
  · have hlength : (behind "# a\n\nTheorem: x {}\n\n## b\n\nTheorem: y {}").length = 1 := by
      decide +kernel
    have hrange := (counters_have_no_gap_iff "# a\n\nTheorem: x {}\n\n## b\n\nTheorem: y {}".toList
      0 0 true o rfl).2.2 (by decide +kernel) [1, 1]
    exact hrange.trans (by rw [hlength]; rfl)

end Treatise
