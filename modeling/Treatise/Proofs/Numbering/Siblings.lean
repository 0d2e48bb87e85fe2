import Mathlib.Data.List.Basic
import Treatise.Proofs.Numbering.Headings
import Treatise.Proofs.Tree.Reading

/-!
# Headings of one level

Two headings of one level, with none above that level between them, stand side by side in the
document. Their numbers count on from each other where the first is as long as its level says. The
components are a list that a heading makes longer by one at most, though. So the number of a heading
that skips levels is too short, and the next heading of the level is numbered inside it.

* **`countsFrom_foldl`**, **`prefix_foldl`** — what headings that are not above a level leave of a
  section number.
* **`siblings_iff`** — when the numbers of two headings that stand side by side count on.
-/

namespace Treatise

open Treatise.Numbering (nextComponents)

/-- Two numbers that differ in the last component only, where the second has the greater one. -/
def Siblings (cs ds : List Nat) : Prop :=
  ∃ above c d, cs = above ++ [c] ∧ ds = above ++ [d] ∧ c < d

theorem Siblings.length_eq {cs ds : List Nat} (h : Siblings cs ds) : cs.length = ds.length := by
  obtain ⟨above, c, d, rfl, rfl, -⟩ := h
  simp

/-! ## One heading -/

/-- A heading counts behind the components that are above its place. -/
theorem prefix_nextComponents {above cs : List Nat} {level : Nat} (h : above <+: cs)
    (hlevel : above.length ≤ level - 1) : above <+: nextComponents cs level := by
  rcases Nat.lt_or_ge (level - 1) cs.length with hlt | hge
  · rw [nextComponents_of_lt hlt]
    exact (List.prefix_take_iff.2 ⟨h, hlevel⟩).trans (List.prefix_append _ _)
  · rw [nextComponents_of_le hge]
    exact h.trans (List.prefix_append cs [1])

/-- A heading counts on at its place. -/
theorem nextComponents_append_cons {above : List Nat} {level : Nat}
    (hlevel : above.length = level - 1) (c : Nat) (rest : List Nat) :
    nextComponents (above ++ c :: rest) level = above ++ [c + 1] := by
  rw [nextComponents_of_lt (by simp [← hlevel])]
  simp [← hlevel]

/-- The components begin with these, and then with one that is not less than a count. -/
def CountsFrom (above : List Nat) (count : Nat) (cs : List Nat) : Prop :=
  ∃ c rest, cs = above ++ c :: rest ∧ count ≤ c

theorem countsFrom_nextComponents {above cs : List Nat} {count level : Nat}
    (h : CountsFrom above count cs) (hlevel : above.length ≤ level - 1) :
    CountsFrom above count (nextComponents cs level) := by
  obtain ⟨c, rest, rfl, hc⟩ := h
  rcases Nat.lt_or_eq_of_le hlevel with hlt | heq
  · -- the heading is deeper, and leaves the count as it is
    have hfront : above ++ [c] <+: above ++ c :: rest :=
      (List.prefix_append_right_inj above).2 (by simp)
    obtain ⟨rest', hrest⟩ : above ++ [c] <+: nextComponents (above ++ c :: rest) level :=
      prefix_nextComponents hfront (by simp; omega)
    exact ⟨c, rest', by rw [← hrest]; simp, hc⟩
  · exact ⟨c + 1, [], nextComponents_append_cons heq c rest, by omega⟩

/-- A number that is as long as its level says counts at the place of the level. -/
theorem exists_count_of_lt {cs : List Nat} {level : Nat}
    (h : level - 1 < (nextComponents cs level).length) :
    ∃ above c, above.length = level - 1 ∧ nextComponents cs level = above ++ [c] := by
  rcases Nat.lt_or_ge (level - 1) cs.length with hlt | hge
  · exact ⟨_, _, by simp; omega, nextComponents_of_lt hlt⟩
  · rw [nextComponents_of_le hge] at h ⊢
    exact ⟨cs, 1, by simp at h; omega, rfl⟩

/-! ## Headings between -/

section Between

variable {levels : List Nat} {above : List Nat} (hlevels : ∀ l ∈ levels, above.length ≤ l - 1)

include hlevels

theorem prefix_foldl {cs : List Nat} (h : above <+: cs) :
    above <+: levels.foldl nextComponents cs := by
  induction levels generalizing cs with
  | nil => exact h
  | cons l levels ih =>
    have hnext := prefix_nextComponents h (hlevels l List.mem_cons_self)
    exact ih (fun l' hl' => hlevels l' (List.mem_cons_of_mem l hl')) hnext

theorem countsFrom_foldl {cs : List Nat} {count : Nat} (h : CountsFrom above count cs) :
    CountsFrom above count (levels.foldl nextComponents cs) := by
  induction levels generalizing cs with
  | nil => exact h
  | cons l levels ih =>
    have hnext := countsFrom_nextComponents h (hlevels l List.mem_cons_self)
    exact ih (fun l' hl' => hlevels l' (List.mem_cons_of_mem l hl')) hnext

end Between

/-- The numbers of two headings of one level, with no heading above the level between them: they
count on if the first is as long as the level, and else the second is inside the first. -/
theorem siblings_iff_of_levels (cs : List Nat) {level : Nat} {between : List Nat}
    (hbetween : ∀ l ∈ between, level ≤ l) :
    let first := nextComponents cs level
    let second := nextComponents (between.foldl nextComponents first) level
    (Siblings first second ↔ level ≤ first.length) ∧
      (first.length < level → first <+: second ∧ first ≠ second) := by
  intro first second
  have hshort : first.length < level → first <+: second ∧ first ≠ second := by
    intro h
    -- levels that are skipped leave room below the first number, and all that comes next goes there
    have hfront : first <+: between.foldl nextComponents first :=
      prefix_foldl (fun l hl => by have := hbetween l hl; omega) (List.prefix_refl first)
    have hmem : second ∈ sectionNumbers first (between ++ [level]) := by
      simp [sectionNumbers_append, sectionNumbers, second]
    have hlt : first < second := lt_of_mem_sectionNumbers hmem
    exact ⟨prefix_nextComponents hfront (by omega), fun heq => List.lt_irrefl second (heq ▸ hlt)⟩
  refine ⟨⟨fun h => ?_, fun h => ?_⟩, hshort⟩
  · by_contra hlt
    obtain ⟨hfront, hne⟩ := hshort (by omega)
    exact hne (hfront.eq_of_length h.length_eq)
  · -- the numbers between are inside the first one, so the count at the level goes on from it
    have hpos : 0 < first.length := by
      refine List.length_pos_iff.2 fun hnil => List.not_lt_nil cs ?_
      exact hnil ▸ lt_nextComponents cs level
    have hlong : level - 1 < first.length := by omega
    obtain ⟨above, c, habove, hfirst⟩ := exists_count_of_lt hlong
    have hcount : CountsFrom above c first := ⟨c, [], hfirst, Nat.le_refl c⟩
    obtain ⟨d, rest, hd, hcd⟩ : CountsFrom above c (between.foldl nextComponents first) :=
      countsFrom_foldl (fun l hl => by have := hbetween l hl; omega) hcount
    refine ⟨above, c, d + 1, hfirst, ?_, by omega⟩
    show nextComponents (between.foldl nextComponents first) level = above ++ [d + 1]
    rw [hd, nextComponents_append_cons habove]

/-! ## Headings of a document -/

/-- Two headings of one level, with no heading above the level between them, have numbers that
count on from each other if, and only if, the number of the first is as long as its level. If it is
shorter, as the heading skips levels, the number of the second is inside it. -/
theorem siblings_iff (source : List Char) (fileId : Nat) (sections : Bool) (o : NumberingOptions) :
    let root := (resolve o fileId ((Document.parse source fileId).tree sections)).root
    ∀ (level : Nat) (before between after : List Node) (h k : Node),
      root.headings = before ++ h :: (between ++ k :: after) →
      h.headingLevel? = some level → k.headingLevel? = some level →
      (∀ n ∈ between, ∀ l, n.headingLevel? = some l → level ≤ l) →
      ∃ cs ds, h.headingNumber? = some (dotted cs) ∧ k.headingNumber? = some (dotted ds) ∧
        (Siblings cs ds ↔ level ≤ cs.length) ∧ (cs.length < level → cs <+: ds ∧ cs ≠ ds) := by
  intro root level before between after h k hheadings hh hk hbetween
  have hfresh := fresh_tree source fileId sections
  have hsome : ∀ n ∈ root.headings, n.headingLevel?.isSome = true :=
    fun n hn => (List.mem_filter.1 hn).2
  have hlevels : root.headings.filterMap (·.headingLevel?) = _ :=
    filterMap_headingLevel?_headings_resolve o fileId hfresh
  have hnumbers : root.headings.map (·.headingNumber?) = _ :=
    headingNumber?_headings_resolve o fileId hfresh
  rw [hheadings] at hsome hlevels hnumbers
  -- the numbers are cut where the headings are, as every heading has a level
  have hbefore : before.length = (before.filterMap (·.headingLevel?)).length :=
    (length_filterMap_headingLevel? fun n hn => hsome n (by simp [hn])).symm
  have hbetween' : between.length = (between.filterMap (·.headingLevel?)).length :=
    (length_filterMap_headingLevel? fun n hn => hsome n (by simp [hn])).symm
  rw [List.filterMap_append, List.filterMap_cons_some hh, List.filterMap_append,
    List.filterMap_cons_some hk] at hlevels
  rw [Node.headingComponents, ← hlevels, sectionNumbers_append, sectionNumbers,
    sectionNumbers_append, sectionNumbers] at hnumbers
  simp only [List.map_append, List.map_cons] at hnumbers
  obtain ⟨-, hnumbers⟩ := List.append_inj hnumbers (by simp [length_sectionNumbers, hbefore])
  obtain ⟨hfirst, hnumbers⟩ := List.cons.inj hnumbers
  obtain ⟨-, hnumbers⟩ := List.append_inj hnumbers (by simp [length_sectionNumbers, hbetween'])
  obtain ⟨hsecond, -⟩ := List.cons.inj hnumbers
  refine ⟨_, _, hfirst, hsecond, siblings_iff_of_levels _ fun l hl => ?_⟩
  obtain ⟨n, hn, hlevel⟩ := List.mem_filterMap.1 hl
  exact hbetween n hn l hlevel

/-- Of two headings of the third level that no other heading is above, the second is numbered inside
the first: `0.1` and `0.1.1`. -/
theorem siblings_iff_of_skipped_levels :
    let root := (resolve {} 0 ((Document.parse "### a\n\n### b".toList 0).tree true)).root
    ∃ h k cs ds, root.headings = [h, k] ∧ h.headingLevel? = k.headingLevel? ∧
      h.headingNumber? = some (dotted cs) ∧ k.headingNumber? = some (dotted ds) ∧
      ¬ Siblings cs ds ∧ cs <+: ds := by
  intro root
  have hlength : root.headings.length = 2 := by decide +kernel
  have hlevels : ∀ n ∈ root.headings, n.headingLevel? = some 3 := by decide +kernel
  have hnumbers : root.headings.map (·.headingNumber?) =
      [some (dotted [0, 1]), some (dotted [0, 1, 1])] := by decide +kernel
  obtain ⟨h, k, hheadings⟩ := List.length_eq_two.1 hlength
  rw [hheadings] at hlevels hnumbers
  have hh : h.headingLevel? = some 3 := hlevels h (by simp)
  have hk : k.headingLevel? = some 3 := hlevels k (by simp)
  obtain ⟨cs, ds, hcs, hds, hiff, hinside⟩ :=
    siblings_iff "### a\n\n### b".toList 0 true {} 3 [] [] [] h k hheadings hh hk (by simp)
  have hnumber : h.headingNumber? = some (dotted [0, 1]) := (List.cons.inj hnumbers).1
  have hfirst : cs = [0, 1] := dotted_injective (Option.some.inj (hcs.symm.trans hnumber))
  have hshort : cs.length < 3 := by simp [hfirst]
  exact ⟨h, k, cs, ds, hheadings, hh.trans hk.symm, hcs, hds,
    fun hsiblings => by have := hiff.1 hsiblings; omega, (hinside hshort).1⟩

end Treatise
