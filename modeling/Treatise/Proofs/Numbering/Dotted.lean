import Treatise.Numbering
import Treatise.Proofs.Pieces

/-!
# Dotted numbers

A section number is a list of counters, and it shows as these with dots between them.

* **`segments_dotted`** — a table of contents gets the counters back.
* **`dotted_injective`** — two lists that show alike are the same.
* **`isDigit_or_dot_of_mem_dotted`** — a dotted number is made of digits and dots, so that it is no
  anchor of a section (`sectionAnchor_ne_dotted`).
-/

namespace Treatise

/-! ## Counters as text -/

theorem repr_injective {m n : Nat} (h : Nat.repr m = Nat.repr n) : m = n := by
  -- a number is read back from its digits
  have hdigits : Nat.toDigits 10 m = Nat.toDigits 10 n := by
    rw [← Nat.toList_repr, ← Nat.toList_repr, h]
  have hm : Nat.ofDigitChars 10 (Nat.toDigits 10 m) 0 = m :=
    Nat.ofDigitChars_toDigits (by decide) (by decide)
  rw [← hm, hdigits]
  exact Nat.ofDigitChars_toDigits (by decide) (by decide)

theorem isDigit_of_mem_repr {n : Nat} {c : Char} (h : c ∈ (Nat.repr n).toList) :
    c.isDigit = true := by
  rw [Nat.toList_repr] at h
  exact Nat.isDigit_of_mem_toDigits (by decide) (by decide) h

theorem dot_notMem_repr (n : Nat) : '.' ∉ (Nat.repr n).toList := by
  intro h
  exact absurd (isDigit_of_mem_repr h) (by decide)

/-! ## Lists of counters as text -/

theorem dotted_nil : dotted [] = "" := rfl

theorem toList_dotted_cons (n : Nat) {cs : List Nat} (h : cs ≠ []) :
    (dotted (n :: cs)).toList = (Nat.repr n).toList ++ '.' :: (dotted cs).toList := by
  cases cs with
  | nil => exact absurd rfl h
  | cons m cs => simp [dotted, String.toList_intercalate, List.intercalate]

theorem dotted_singleton (n : Nat) : dotted [n] = Nat.repr n := by
  rw [← String.toList_inj]
  simp [dotted]

theorem dotted_concat {cs : List Nat} (h : cs ≠ []) (n : Nat) :
    dotted (cs ++ [n]) = dotted cs ++ "." ++ Nat.repr n := by
  rw [← String.toList_inj]
  induction cs with
  | nil => exact absurd rfl h
  | cons m cs ih =>
    rw [List.cons_append, toList_dotted_cons m (by simp)]
    cases cs with
    | nil => simp [dotted_singleton]
    | cons k cs =>
      rw [ih (by simp)]
      simp only [String.toList_append, toList_dotted_cons m (List.cons_ne_nil k cs)]
      simp

/-- A table of contents gets the counters back. -/
theorem segments_dotted {cs : List Nat} (h : cs ≠ []) :
    Contents.segments (dotted cs) = cs.map Nat.repr := by
  unfold Contents.segments
  induction cs with
  | nil => exact absurd rfl h
  | cons n cs ih =>
    cases cs with
    | nil =>
      rw [dotted_singleton, Text.splitAll_of_notMem (dot_notMem_repr n), List.map_singleton,
        String.ofList_toList]
      rfl
    | cons m cs =>
      rw [toList_dotted_cons n (by simp), Text.splitAll_append_cons (dot_notMem_repr n),
        List.map_cons, ih (by simp), String.ofList_toList]
      rfl

theorem dotted_eq_empty_iff {cs : List Nat} : dotted cs = "" ↔ cs = [] := by
  constructor
  · intro h
    cases cs with
    | nil => rfl
    | cons n cs =>
      have hsegments := segments_dotted (List.cons_ne_nil n cs)
      rw [h, List.map_cons] at hsegments
      exact absurd (List.cons.inj hsegments).1.symm Nat.repr_ne_empty
  · rintro rfl
    rfl

theorem dotted_injective {cs ds : List Nat} (h : dotted cs = dotted ds) : cs = ds := by
  by_cases hcs : cs = []
  · rw [hcs, dotted_nil] at h
    rw [hcs, dotted_eq_empty_iff.1 h.symm]
  · have hds : ds ≠ [] := by
      rintro rfl
      exact hcs (dotted_eq_empty_iff.1 h)
    have hsegments : cs.map Nat.repr = ds.map Nat.repr := by
      rw [← segments_dotted hcs, ← segments_dotted hds, h]
    exact List.map_inj_right (fun _ _ => repr_injective) |>.1 hsegments

/-- A dotted number is made of digits and dots. -/
theorem isDigit_or_dot_of_mem_dotted {cs : List Nat} {c : Char} (h : c ∈ (dotted cs).toList) :
    c.isDigit = true ∨ c = '.' := by
  induction cs with
  | nil => simp [dotted_nil] at h
  | cons n cs ih =>
    by_cases hcs : cs = []
    · rw [hcs, dotted_singleton] at h
      exact .inl (isDigit_of_mem_repr h)
    · rw [toList_dotted_cons n hcs, List.mem_append, List.mem_cons] at h
      rcases h with h | h | h
      · exact .inl (isDigit_of_mem_repr h)
      · exact .inr h
      · exact ih h

/-! ## Anchors -/

theorem sectionAnchor_injective {a b : String} (h : sectionAnchor a = sectionAnchor b) : a = b := by
  rw [← String.toList_inj] at h ⊢
  simpa [sectionAnchor] using h

/-- The anchor of a section is no number. -/
theorem sectionAnchor_ne_dotted (number : String) (cs : List Nat) :
    sectionAnchor number ≠ dotted cs := by
  intro h
  -- the anchor begins with a letter
  have hs : 's' ∈ (dotted cs).toList := by simp [← h, sectionAnchor]
  rcases isDigit_or_dot_of_mem_dotted hs with hs | hs
  · exact absurd hs (by decide)
  · exact absurd hs (by decide)

end Treatise
