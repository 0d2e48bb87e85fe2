import Treatise.Proofs.Numbering.Dotted

/-!
# Counting

The numbers of a document do not depend on its shape, but only on the order of its headings and of
the statements that take a number.

* **`Landmark`**, **`Numbering.pass`** — what is counted, and what one step does to the counters.
* **`Numbering.given`** — the numbers that a sequence of landmarks gets.
* **`pairwise_given`** — section numbers increase in the lexicographic order, and no statement gets
  the number of another, or of another of its kind where each kind is counted on its own.

The invariant behind the second half is `le_of_statement_mem_given`: a later number either has the
same section components in front and a higher count, or its section components come later in the
order. It holds because a heading that resets the counters changes one of these components
(`take_lt_take_next`), and no other heading sets them back (`take_le_take_next`).
-/

namespace Treatise

/-- What numbering counts. -/
inductive Landmark where
  | heading (level : Nat) (title : String)
  /-- A statement that takes a number. -/
  | statement (kind : Kind)

/-- A number as it was given. -/
inductive GivenNumber where
  | section (components : List Nat) (title : String)
  | statement (kind : Kind) (number : List Nat)

namespace GivenNumber

/-- The `id` of what has the number. -/
def anchor : GivenNumber → String
  | .section components _ => sectionAnchor (dotted components)
  | .statement _ number => dotted number

/-- The components of a section number. -/
def section? : GivenNumber → Option (List Nat)
  | .section components _ => some components
  | .statement _ _ => none

/-- The number of a statement with its kind. -/
def statement? : GivenNumber → Option (Kind × List Nat)
  | .section _ _ => none
  | .statement kind number => some (kind, number)

/-- How a number and a later one differ. -/
def Apart (o : NumberingOptions) : GivenNumber → GivenNumber → Prop
  | .section components _, .section later _ => components < later
  | .statement kind number, .statement kind' number' =>
    number = number' → o.byKind = true ∧ kind ≠ kind'
  | _, _ => True

end GivenNumber

namespace Numbering

/-- The state behind a landmark. -/
def pass (o : NumberingOptions) (s : Numbering) : Landmark → Numbering
  | .heading level title =>
    let s := s.enterSection o level
    { s with contents := s.contents.insert s.sectionNumber title }
  | .statement kind => { s with counted := kind :: s.counted }

/-- The components of the number of the next statement of a kind. -/
def statementComponents (o : NumberingOptions) (kind : Kind) (s : Numbering) : List Nat :=
  s.components.take o.depthLimit ++ [s.count o kind]

/-- The number that a landmark gets. -/
def give (o : NumberingOptions) (s : Numbering) : Landmark → GivenNumber
  | .heading level title => .section (nextComponents s.components level) title
  | .statement kind => .statement kind (s.statementComponents o kind)

/-- The numbers that landmarks get, one after the other. -/
def given (o : NumberingOptions) : Numbering → List Landmark → List GivenNumber
  | _, [] => []
  | s, l :: ls => s.give o l :: given o (s.pass o l) ls

theorem statementNumber_eq (o : NumberingOptions) (kind : Kind) (s : Numbering) :
    s.statementNumber o kind = dotted (s.statementComponents o kind) := by
  simp only [statementNumber, statementComponents, sectionPrefix, String.isEmpty_iff]
  by_cases h : s.components.take o.depthLimit = []
  · rw [if_pos (dotted_eq_empty_iff.2 h), h, List.nil_append, dotted_singleton]
  · rw [if_neg (mt dotted_eq_empty_iff.1 h), dotted_concat h]

theorem given_append (o : NumberingOptions) (s : Numbering) (ls ms : List Landmark) :
    given o s (ls ++ ms) = given o s ls ++ given o (ls.foldl (pass o) s) ms := by
  induction ls generalizing s with
  | nil => rfl
  | cons l ls ih => rw [List.cons_append, given, ih]; rfl

end Numbering

/-! ## The next section -/

section Next

open Treatise.Numbering (nextComponents)

theorem nextComponents_of_lt {cs : List Nat} {level : Nat} (h : level - 1 < cs.length) :
    nextComponents cs level = cs.take (level - 1) ++ [cs[level - 1] + 1] := by
  rw [nextComponents, List.getElem?_eq_getElem h]

theorem nextComponents_of_le {cs : List Nat} {level : Nat} (h : cs.length ≤ level - 1) :
    nextComponents cs level = cs ++ [1] := by
  rw [nextComponents, List.getElem?_eq_none h]

/-- Lists that agree up to a place where the first ends or has the smaller component. -/
theorem lt_of_take_append {cs : List Nat} {i : Nat} (h : i < cs.length) (rest : List Nat) :
    cs < cs.take i ++ (cs[i] + 1) :: rest := by
  induction cs generalizing i with
  | nil => simp at h
  | cons c cs ih =>
    cases i with
    | zero => exact List.cons_lt_cons_iff.2 (.inl (Nat.lt_succ_self c))
    | succ i => exact List.cons_lt_cons_iff.2 (.inr ⟨rfl, ih (by simpa using h)⟩)

theorem lt_append_cons (cs : List Nat) (c : Nat) (rest : List Nat) : cs < cs ++ c :: rest := by
  induction cs with
  | nil => exact List.nil_lt_cons c rest
  | cons d cs ih => exact List.cons_lt_cons_iff.2 (.inr ⟨rfl, ih⟩)

/-- A heading makes the section number greater. -/
theorem lt_nextComponents (cs : List Nat) (level : Nat) : cs < nextComponents cs level := by
  rcases Nat.lt_or_ge (level - 1) cs.length with h | h
  · rw [nextComponents_of_lt h]
    exact lt_of_take_append h []
  · rw [nextComponents_of_le h]
    exact lt_append_cons cs 1 []

/-- A heading that counts at one of the first `limit` places makes these greater. -/
theorem take_lt_take_next (cs : List Nat) {level limit : Nat} (h : level - 1 < limit) :
    cs.take limit < (nextComponents cs level).take limit := by
  rcases Nat.lt_or_ge (level - 1) cs.length with hlt | hge
  · have hlong : level - 1 < (cs.take limit).length := by simp; omega
    have hnext : (nextComponents cs level).take limit =
        (cs.take limit).take (level - 1) ++ [(cs.take limit)[level - 1] + 1] := by
      rw [nextComponents_of_lt hlt, List.take_take, Nat.min_eq_left (by omega),
        List.getElem_take, List.take_of_length_le (by simp; omega)]
    rw [hnext]
    exact lt_of_take_append hlong []
  · rw [nextComponents_of_le hge, List.take_of_length_le (by omega : cs.length ≤ limit),
      List.take_of_length_le (by simp; omega)]
    exact lt_append_cons cs 1 []

/-- No heading makes the first `limit` places smaller. -/
theorem take_le_take_next (cs : List Nat) (level limit : Nat) :
    cs.take limit = (nextComponents cs level).take limit ∨
      cs.take limit < (nextComponents cs level).take limit := by
  rcases Nat.lt_or_ge (level - 1) limit with h | h
  · exact .inr (take_lt_take_next cs h)
  · rcases Nat.lt_or_ge (level - 1) cs.length with hlt | hge
    · left
      rw [nextComponents_of_lt hlt, List.take_append_of_le_length (by simp; omega),
        List.take_take, Nat.min_eq_left h]
    · rw [nextComponents_of_le hge]
      rcases Nat.lt_or_ge cs.length limit with hshort | hlong
      · right
        rw [List.take_of_length_le (by omega), List.take_of_length_le (by simp; omega)]
        exact lt_append_cons cs 1 []
      · -- the heading is deeper than all places that are looked at
        left
        rw [List.take_append_of_le_length hlong]

end Next

/-! ## All numbers -/

namespace Numbering

variable {o : NumberingOptions} {s : Numbering} {ls : List Landmark}

/-- Every later section number is greater than the section number so far. -/
theorem lt_of_section_mem_given {cs : List Nat} {title : String}
    (h : .section cs title ∈ given o s ls) : s.components < cs := by
  induction ls generalizing s with
  | nil => simp [given] at h
  | cons l ls ih =>
    cases l with
    | heading level title' =>
      have hnext : s.components < nextComponents s.components level := lt_nextComponents _ _
      rcases List.mem_cons.1 h with h | h
      · injection h with hcs
        exact hcs ▸ hnext
      · exact List.lt_trans hnext (ih h)
    | statement kind =>
      rcases List.mem_cons.1 h with h | h
      · cases h
      · exact ih (s := s.pass o (.statement kind)) h

/-- A later number of a statement: its section components are those of now and it counts no less, or
they are greater. -/
theorem le_of_statement_mem_given {kind : Kind} {number : List Nat}
    (h : .statement kind number ∈ given o s ls) :
    ∃ above count, number = above ++ [count] ∧
      (s.components.take o.depthLimit < above ∨
        s.components.take o.depthLimit = above ∧ s.count o kind ≤ count) := by
  induction ls generalizing s with
  | nil => simp [given] at h
  | cons l ls ih =>
    cases l with
    | heading level title =>
      rcases List.mem_cons.1 h with h | h
      · cases h
      · obtain ⟨above, count, hnumber, habove⟩ := ih h
        refine ⟨above, count, hnumber, ?_⟩
        have hcomponents : (s.pass o (.heading level title)).components =
            nextComponents s.components level := rfl
        rw [hcomponents] at habove
        by_cases hreset : level - 1 < o.depthLimit
        · -- the counters start again, behind greater components
          have hlt := take_lt_take_next s.components hreset
          rcases habove with habove | ⟨habove, -⟩
          · exact .inl (List.lt_trans hlt habove)
          · exact .inl (habove ▸ hlt)
        · -- the counters go on, and the counted components do not decrease
          have hcount : (s.pass o (.heading level title)).count o kind = s.count o kind := by
            simp only [Numbering.count, pass, enterSection, if_neg hreset]
          rw [hcount] at habove
          rcases take_le_take_next s.components level o.depthLimit with heq | hlt
          · rwa [heq]
          · rcases habove with habove | ⟨habove, -⟩
            · exact .inl (List.lt_trans hlt habove)
            · exact .inl (habove ▸ hlt)
    | statement kind' =>
      rcases List.mem_cons.1 h with h | h
      · injection h with hkind hnumber
        subst hkind
        exact ⟨_, _, hnumber, .inr ⟨rfl, Nat.le_refl _⟩⟩
      · obtain ⟨above, count, hnumber, habove⟩ := ih h
        refine ⟨above, count, hnumber, habove.imp_right fun ⟨habove, hle⟩ => ⟨habove, ?_⟩⟩
        have hcount : s.count o kind ≤ (s.pass o (.statement kind')).count o kind := by
          simp only [Numbering.count, pass]
          split
          · have hcons := List.count_le_count_cons (a := kind) (b := kind') (l := s.counted)
            omega
          · rw [List.length_cons]
            omega
        exact Nat.le_trans hcount hle

/-- The count behind a statement is greater than its own: for its kind, and for any kind if all are
counted together. -/
theorem count_lt_count_pass {kind kind' : Kind} (h : o.byKind = true → kind = kind') :
    s.count o kind < (s.pass o (.statement kind)).count o kind' := by
  simp only [Numbering.count, pass]
  split
  · next hbyKind => rw [← h hbyKind, List.count_cons_self]; omega
  · simp

/-- Section numbers increase, and no statement gets the number of another, or of another of its kind
where each kind is counted on its own. -/
theorem pairwise_given (o : NumberingOptions) (s : Numbering) (ls : List Landmark) :
    (given o s ls).Pairwise (GivenNumber.Apart o) := by
  induction ls generalizing s with
  | nil => exact List.Pairwise.nil
  | cons l ls ih =>
    refine List.pairwise_cons.2 ⟨fun later hlater => ?_, ih _⟩
    cases l with
    | heading level title =>
      cases later with
      | «section» cs title' => exact lt_of_section_mem_given hlater
      | statement kind number => trivial
    | statement kind =>
      cases later with
      | «section» cs title => trivial
      | statement kind' number =>
        -- equal numbers have equal components and counts, but a later count is greater
        intro heq
        obtain ⟨above, count, hnumber, habove⟩ := le_of_statement_mem_given hlater
        have hparts : s.components.take o.depthLimit ++ [s.count o kind] = above ++ [count] :=
          heq.trans hnumber
        obtain ⟨rfl, hcount⟩ := List.append_inj' hparts rfl
        have hcount : s.count o kind = count := by simpa using hcount
        rcases habove with habove | ⟨-, hle⟩
        · exact absurd habove (List.lt_irrefl _)
        · have hpass : ¬ s.count o kind < (s.pass o (.statement kind)).count o kind' := by omega
          have hkinds := mt count_lt_count_pass hpass
          simpa using hkinds

end Numbering

end Treatise
