/-!
# Lines

A text is cut behind each line feed, so that the pieces put together give the text back
(`Text.flatten_splitLines`). The other functions drop what ends a line.
-/

namespace Treatise.Text

/-- The lines of a text, each with the line feed that ends it; the last may have none. -/
def splitLines : List Char → List (List Char)
  | [] => []
  | c :: s =>
    if c = '\n' then [c] :: splitLines s
    else match splitLines s with
      | [] => [[c]]
      | l :: ls => (c :: l) :: ls

theorem flatten_splitLines (s : List Char) : (splitLines s).flatten = s := by
  induction s with
  | nil => rfl
  | cons c s ih =>
    unfold splitLines
    by_cases h : c = '\n'
    · simp [h, ih]
    · cases hs : splitLines s with
      | nil => simp [hs] at ih; simp [h, ih]
      | cons l ls => rw [hs] at ih; simp [h, ← ih]

theorem ne_nil_of_mem_splitLines {s l : List Char} (h : l ∈ splitLines s) : l ≠ [] := by
  induction s generalizing l with
  | nil => simp [splitLines] at h
  | cons c s ih =>
    unfold splitLines at h
    by_cases hc : c = '\n'
    · simp only [hc, if_true, List.mem_cons] at h
      rcases h with rfl | h
      · simp
      · exact ih h
    · simp only [hc, if_false] at h
      cases hs : splitLines s with
      | nil => simp [hs] at h; simp [h]
      | cons l' ls =>
        simp only [hs, List.mem_cons] at h
        rcases h with rfl | h
        · simp
        · exact ih (by simp [hs, h])

/-- A line without the line feed at its end and one carriage return before that. -/
def chompLine (l : List Char) : List Char :=
  match l.reverse with
  | '\n' :: '\r' :: r => r.reverse
  | '\n' :: r => r.reverse
  | _ => l

/-- The lines of a text without their ends. -/
def lines (s : List Char) : List (List Char) := (splitLines s).map chompLine

/-- `lines` on strings. -/
def stringLines (s : String) : List String := (lines s.toList).map String.ofList

end Treatise.Text
