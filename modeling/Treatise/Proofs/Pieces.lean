import Mathlib.Data.List.Infix
import Treatise.Text.Search

/-!
# Pieces of a text

`Text.splitAll` cuts a text at every separator. What the pieces say about the text:

* **`Text.intercalate_splitAll`** — the pieces with separators between them are the text.
* **`Text.splitAll_append`** — a separator ends a piece.
* **`Text.splitAll_prefix_iff`** — the pieces of one text begin those of another if, and only if,
  the other text is the same or goes on behind a separator.
-/

namespace Treatise.Text

variable {c : Char} {s t : List Char}

theorem splitOnce?_eq_none_iff : splitOnce? c s = none ↔ c ∉ s := by
  induction s with
  | nil => simp [splitOnce?]
  | cons d s ih =>
    by_cases h : d = c
    · simp [splitOnce?, h]
    · simp [splitOnce?, h, ih, Ne.symm h]

theorem splitAll_of_notMem (h : c ∉ s) : splitAll c s = [s] := by
  induction s with
  | nil => rfl
  | cons d s ih =>
    obtain ⟨hd, hs⟩ := List.ne_and_not_mem_of_not_mem_cons h
    rw [splitAll, if_neg (Ne.symm hd), ih hs]

theorem splitAll_ne_nil (c : Char) (s : List Char) : splitAll c s ≠ [] := by
  cases s with
  | nil => exact List.cons_ne_nil _ _
  | cons d s =>
    rw [splitAll]
    split
    · exact List.cons_ne_nil _ _
    · cases splitAll c s <;> exact List.cons_ne_nil _ _

theorem splitAll_append (c : Char) (s t : List Char) :
    splitAll c (s ++ c :: t) = splitAll c s ++ splitAll c t := by
  induction s with
  | nil => exact if_pos rfl
  | cons d s ih =>
    rw [List.cons_append, splitAll, splitAll, ih]
    split
    · rfl
    · cases hs : splitAll c s with
      | nil => exact absurd hs (splitAll_ne_nil c s)
      | cons l ls => rfl

theorem splitAll_append_cons (h : c ∉ s) (rest : List Char) :
    splitAll c (s ++ c :: rest) = s :: splitAll c rest := by
  rw [splitAll_append, splitAll_of_notMem h]
  rfl

theorem intercalate_cons (c : Char) (l : List Char) {ls : List (List Char)} (h : ls ≠ []) :
    [c].intercalate (l :: ls) = l ++ c :: [c].intercalate ls := by
  cases ls with
  | nil => exact absurd rfl h
  | cons m ls => simp [List.intercalate]

theorem intercalate_cons_head (sep : List Char) (c : Char) (l : List Char) (ls : List (List Char)) :
    sep.intercalate ((c :: l) :: ls) = c :: sep.intercalate (l :: ls) := by
  cases ls <;> simp [List.intercalate]

/-- A separator of several characters is one character, and the others in front of what follows. -/
theorem intercalate_cons_separator (c : Char) (sep l : List Char) (ls : List (List Char)) :
    (c :: sep).intercalate (l :: ls) = [c].intercalate (l :: ls.map (sep ++ ·)) := by
  induction ls generalizing l with
  | nil => simp [List.intercalate]
  | cons m ls ih =>
    have hseparated : (c :: sep).intercalate (l :: m :: ls) =
        l ++ c :: (sep ++ (c :: sep).intercalate (m :: ls)) := by
      simp [List.intercalate]
    rw [hseparated, ih, List.map_cons, intercalate_cons c l (List.cons_ne_nil _ _)]
    cases ls <;> simp [List.intercalate]

theorem intercalate_append (c : Char) {ls ms : List (List Char)} (hls : ls ≠ []) (hms : ms ≠ []) :
    [c].intercalate (ls ++ ms) = [c].intercalate ls ++ c :: [c].intercalate ms := by
  induction ls with
  | nil => exact absurd rfl hls
  | cons l ls ih =>
    cases ls with
    | nil =>
      rw [List.singleton_append, intercalate_cons c l hms]
      simp [List.intercalate]
    | cons m ls =>
      rw [List.cons_append, intercalate_cons c l (by simp), ih (by simp),
        intercalate_cons c l (by simp), List.append_assoc, List.cons_append]

/-- The separator is a character of the whole only where it stands between two texts. -/
theorem mem_intercalate_iff {d : Char} {ls : List (List Char)} :
    d ∈ [c].intercalate ls ↔ d = c ∧ 2 ≤ ls.length ∨ ∃ l ∈ ls, d ∈ l := by
  induction ls with
  | nil => simp [List.intercalate]
  | cons l ls ih =>
    cases ls with
    | nil => simp [List.intercalate]
    | cons m ls =>
      rw [intercalate_cons c l (List.cons_ne_nil _ _), List.mem_append, List.mem_cons, ih]
      simp only [List.length_cons]
      by_cases hd : d = c <;> simp [hd]

theorem map_intercalate (g : Char → Char) (c : Char) (ls : List (List Char)) :
    ([c].intercalate ls).map g = [g c].intercalate (ls.map (List.map g)) := by
  induction ls with
  | nil => rfl
  | cons l ls ih =>
    cases ls with
    | nil => simp [List.intercalate]
    | cons m ls =>
      rw [intercalate_cons c l (by simp), List.map_append, List.map_cons, ih,
        List.map_cons (l := m :: ls), intercalate_cons (g c) (l.map g) (by simp)]

theorem intercalate_splitAll (c : Char) (s : List Char) : [c].intercalate (splitAll c s) = s := by
  induction s with
  | nil => rfl
  | cons d s ih =>
    rw [splitAll]
    split
    · next hd => rw [intercalate_cons c [] (splitAll_ne_nil c s), ih, hd, List.nil_append]
    · cases hs : splitAll c s with
      | nil => exact absurd hs (splitAll_ne_nil c s)
      | cons l ls => rw [intercalate_cons_head, ← hs, ih]

/-- What is put together from texts has all of their pieces. -/
theorem splitAll_intercalate {ls : List (List Char)} (h : ls ≠ []) :
    splitAll c ([c].intercalate ls) = ls.flatMap (splitAll c) := by
  induction ls with
  | nil => exact absurd rfl h
  | cons l ls ih =>
    cases ls with
    | nil => simp [List.intercalate]
    | cons m ls =>
      rw [intercalate_cons c l (by simp), splitAll_append, ih (by simp)]
      exact List.flatMap_cons.symm

/-- Where one character stands in place of another one, it cuts the text where that one did. -/
theorem splitAll_map_replace {d : Char} (h : d ∉ s) :
    splitAll d (s.map fun x => if x = c then d else x) = splitAll c s := by
  induction s with
  | nil => rfl
  | cons x s ih =>
    obtain ⟨hx, hs⟩ := List.ne_and_not_mem_of_not_mem_cons h
    rw [List.map_cons, splitAll, splitAll, ih hs]
    by_cases hc : x = c
    · rw [if_pos hc, if_pos rfl, if_pos hc]
    · rw [if_neg hc, if_neg (Ne.symm hx), if_neg hc]

theorem splitAll_prefix_iff : splitAll c s <+: splitAll c t ↔ t = s ∨ s ++ [c] <+: t := by
  constructor
  · rintro ⟨rest, hrest⟩
    have ht := intercalate_splitAll c t
    rw [← hrest] at ht
    cases rest with
    | nil => exact .inl (by rw [← ht, List.append_nil, intercalate_splitAll])
    | cons l rest =>
      rw [intercalate_append c (splitAll_ne_nil c s) (by simp), intercalate_splitAll] at ht
      exact .inr ⟨[c].intercalate (l :: rest), by rw [← ht, List.append_assoc]; rfl⟩
  · rintro (rfl | ⟨rest, rfl⟩)
    · exact List.prefix_rfl
    · rw [List.append_assoc, List.singleton_append, splitAll_append]
      exact List.prefix_append _ _

end Treatise.Text
