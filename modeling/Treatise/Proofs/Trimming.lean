import Treatise.Proofs.Markdown.Tails
import Treatise.Text.Blank

/-!
# Trimming

Trimming drops blanks at the ends of a text and nothing else.

* `Text.exists_eq_trimStart`, `Text.exists_eq_trimEnd` — what is dropped is blank;
* `Text.stops_trimStart`, `Text.stops_reverse_trimEnd` — what is left neither begins nor ends in a
  blank;
* `Text.trimStart_append`, `Text.trimEnd_append` — blanks at the ends do not matter;
* `Text.trim_eq_self_iff` — trimming leaves alone just the texts without a blank at either end;
* `Text.isPadded_iff` — trimming takes the blanks around a text away, and no other text is left.
-/

namespace Treatise.Text

open Markdown (Stops)

variable {s t lead stop : List Char}

theorem isAllBlank_iff : isAllBlank s = true ↔ ∀ c ∈ s, isBlank c = true := List.all_eq_true

theorem isAllBlank_reverse (s : List Char) : isAllBlank s.reverse = isAllBlank s := List.all_reverse

/-! ## Texts that no character of a class begins -/

theorem stops_of_forall {p : Char → Bool} (h : ∀ c ∈ s, p c = false) : Stops p s :=
  fun c hc => h c (List.mem_of_mem_head? hc)

@[simp] theorem stops_cons {p : Char → Bool} {c : Char} : Stops p (c :: s) ↔ p c = false := by
  simp [Stops]

theorem stops_append {p : Char → Bool} (hs : Stops p s) (ht : Stops p t) : Stops p (s ++ t) := by
  cases s with
  | nil => exact ht
  | cons c s => exact stops_cons.2 (stops_cons.1 hs)

theorem stops_of_start {p : Char → Bool} (hs : Stops p s) (h : t <+: s) : Stops p t := by
  obtain ⟨u, rfl⟩ := h
  intro c hc
  exact hs c (by rw [List.head?_append, Option.mem_def.1 hc]; rfl)

theorem stops_dropWhile {p : Char → Bool} (s : List Char) : Stops p (s.dropWhile p) := by
  intro c hc
  have hnot := List.head?_dropWhile_not p s
  rwa [hc] at hnot

theorem takeWhile_append_of_stops {p : Char → Bool} (hs : ∀ c ∈ s, p c = true) (ht : Stops p t) :
    (s ++ t).takeWhile p = s := by
  rw [Markdown.takeWhile_append ht, List.takeWhile_eq_self_iff.2 hs]

theorem dropWhile_append_of_stops {p : Char → Bool} (hs : ∀ c ∈ s, p c = true) (ht : Stops p t) :
    (s ++ t).dropWhile p = t := by
  rw [Markdown.dropWhile_append ht, List.dropWhile_eq_nil_iff.2 hs, List.nil_append]

/-! ## Letters -/

theorem toNat_of_isAlpha {c : Char} (h : c.isAlpha = true) : 65 ≤ c.toNat ∧ c.toNat ≤ 122 := by
  rcases Bool.or_eq_true_iff.1 h with hupper | hlower
  · have hrange : 'A'.val ≤ c.val ∧ c.val ≤ 'Z'.val := of_decide_eq_true hupper
    have hstart : 65 ≤ c.toNat := UInt32.le_iff_toNat_le.1 hrange.1
    have hstop : c.toNat ≤ 90 := UInt32.le_iff_toNat_le.1 hrange.2
    omega
  · obtain ⟨hfirst, hlast⟩ := Bool.and_eq_true_iff.1 hlower
    have hstart : 97 ≤ c.toNat := UInt32.le_iff_toNat_le.1 (of_decide_eq_true hfirst)
    have hstop : c.toNat ≤ 122 := UInt32.le_iff_toNat_le.1 (of_decide_eq_true hlast)
    omega

theorem isAlpha_eq_false_of_isBlank {c : Char} (h : isBlank c = true) : c.isAlpha = false := by
  rw [Bool.eq_false_iff]
  intro halpha
  have hrange := toNat_of_isAlpha halpha
  simp only [isBlank, Bool.or_eq_true, Bool.and_eq_true, decide_eq_true_eq, beq_iff_eq] at h
  omega

/-! ## At the start -/

theorem stops_trimStart (s : List Char) : Stops isBlank (trimStart s) := stops_dropWhile s

theorem exists_eq_trimStart (s : List Char) :
    ∃ lead, isAllBlank lead = true ∧ s = lead ++ trimStart s :=
  ⟨s.takeWhile isBlank, List.all_takeWhile, List.takeWhile_append_dropWhile.symm⟩

theorem trimStart_append (h : isAllBlank lead = true) (s : List Char) :
    trimStart (lead ++ s) = trimStart s :=
  List.dropWhile_append_of_pos (isAllBlank_iff.1 h)

theorem trimStart_eq_self (h : Stops isBlank s) : trimStart s = s :=
  Markdown.dropWhile_append h []

theorem trimStart_append_of_stops (h : isAllBlank lead = true) (hs : Stops isBlank s) :
    trimStart (lead ++ s) = s :=
  (trimStart_append h s).trans (trimStart_eq_self hs)

/-! ## At the end -/

theorem reverse_trimEnd (s : List Char) : (trimEnd s).reverse = trimStart s.reverse :=
  List.reverse_reverse _

theorem stops_reverse_trimEnd (s : List Char) : Stops isBlank (trimEnd s).reverse := by
  rw [reverse_trimEnd]
  exact stops_trimStart s.reverse

theorem exists_eq_trimEnd (s : List Char) :
    ∃ stop, isAllBlank stop = true ∧ s = trimEnd s ++ stop := by
  obtain ⟨lead, hlead, heq⟩ := exists_eq_trimStart s.reverse
  refine ⟨lead.reverse, (isAllBlank_reverse lead).trans hlead, ?_⟩
  rw [← reverse_trimEnd, ← List.reverse_reverse lead, ← List.reverse_append] at heq
  exact List.reverse_inj.1 heq

theorem trimEnd_append (h : isAllBlank stop = true) (s : List Char) :
    trimEnd (s ++ stop) = trimEnd s := by
  have hstop : isAllBlank stop.reverse = true := (isAllBlank_reverse stop).trans h
  rw [← List.reverse_inj, reverse_trimEnd, reverse_trimEnd, List.reverse_append,
    trimStart_append hstop]

theorem trimEnd_eq_self (h : Stops isBlank s.reverse) : trimEnd s = s := by
  rw [← List.reverse_inj, reverse_trimEnd, trimStart_eq_self h]

theorem trimEnd_append_of_stops (h : isAllBlank stop = true) (hs : Stops isBlank s.reverse) :
    trimEnd (s ++ stop) = s :=
  (trimEnd_append h s).trans (trimEnd_eq_self hs)

/-- A character that is not blank stays, and so does what stands in front of it. -/
theorem trimEnd_append_cons {c : Char} (hc : isBlank c = false) (s t : List Char) :
    trimEnd (s ++ c :: t) = s ++ c :: trimEnd t := by
  have hstop : Stops isBlank (c :: s.reverse) := stops_cons.2 hc
  have hreverse : (s ++ c :: t).reverse = t.reverse ++ c :: s.reverse := by simp
  rw [trimEnd, hreverse, Markdown.dropWhile_append hstop]
  simp [trimEnd]

/-! ## At both ends -/

theorem stops_trim (s : List Char) : Stops isBlank (trim s) := by
  obtain ⟨stop, -, heq⟩ := exists_eq_trimEnd (trimStart s)
  exact stops_of_start (stops_trimStart s) ⟨stop, heq.symm⟩

theorem stops_reverse_trim (s : List Char) : Stops isBlank (trim s).reverse :=
  stops_reverse_trimEnd (trimStart s)

theorem trim_subset (s : List Char) : trim s ⊆ s := by
  obtain ⟨stop, -, hstop⟩ := exists_eq_trimEnd (trimStart s)
  obtain ⟨lead, -, hlead⟩ := exists_eq_trimStart s
  intro c hc
  rw [hlead, hstop]
  exact List.mem_append_right _ (List.mem_append_left _ hc)

/-- A text with blanks around another, which has none at either end. -/
inductive IsPadded : List Char → List Char → Prop where
  | intro {lead inner stop : List Char} (hlead : isAllBlank lead = true)
      (hstop : isAllBlank stop = true) (hstart : Stops isBlank inner)
      (hend : Stops isBlank inner.reverse) :
      IsPadded (lead ++ (inner ++ stop)) inner

theorem isPadded_iff : IsPadded s t ↔ trim s = t := by
  constructor
  · rintro ⟨hlead, hstop, hstart, hend⟩
    rename_i lead stop
    cases t with
    | nil =>
      have hall : isAllBlank (lead ++ ([] ++ stop)) = true := by
        rw [List.nil_append, isAllBlank, List.all_append, Bool.and_eq_true]
        exact ⟨hlead, hstop⟩
      have hnil : trimStart (lead ++ ([] ++ stop)) = [] :=
        List.dropWhile_eq_nil_iff.2 (isAllBlank_iff.1 hall)
      rw [trim, hnil]
      rfl
    | cons c t =>
      have hbehind : Stops isBlank (c :: t ++ stop) := stops_cons.2 (stops_cons.1 hstart)
      rw [trim, trimStart_append_of_stops hlead hbehind, trimEnd_append_of_stops hstop hend]
  · rintro rfl
    obtain ⟨lead, hlead, hs⟩ := exists_eq_trimStart s
    obtain ⟨stop, hstop, hinner⟩ := exists_eq_trimEnd (trimStart s)
    have hpadded : IsPadded (lead ++ (trim s ++ stop)) (trim s) :=
      .intro hlead hstop (stops_trim s) (stops_reverse_trim s)
    have heq : lead ++ (trim s ++ stop) = s := by
      rw [trim, ← hinner, ← hs]
    rwa [heq] at hpadded

theorem trim_append (h : isAllBlank lead = true) (s : List Char) : trim (lead ++ s) = trim s := by
  rw [trim, trimStart_append h, trim]

theorem trim_eq_self_iff : trim s = s ↔ Stops isBlank s ∧ Stops isBlank s.reverse := by
  constructor
  · intro h
    rw [← h]
    exact ⟨stops_trim s, stops_reverse_trim s⟩
  · rintro ⟨hstart, hstop⟩
    rw [trim, trimStart_eq_self hstart, trimEnd_eq_self hstop]

theorem trim_trim (s : List Char) : trim (trim s) = trim s :=
  trim_eq_self_iff.2 ⟨stops_trim s, stops_reverse_trim s⟩

/-- A part at the end of a text without a blank there has none there either. -/
theorem trim_eq_trimStart_of_suffix (hs : Stops isBlank s.reverse) (h : t <:+ s) :
    trim t = trimStart t := by
  have hsuffix : trimStart t <:+ s := (List.dropWhile_suffix isBlank).trans h
  exact trimEnd_eq_self (stops_of_start hs (List.reverse_prefix.2 hsuffix))

end Treatise.Text
