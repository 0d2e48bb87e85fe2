import Mathlib.Data.List.Infix
import Mathlib.Logic.Function.Basic
import Treatise.Render.Latex

/-!
# Escaped text

Text outside a formula is escaped by replacing one special character after the other. Because the
backslash comes first, none of the later passes meets a character that an earlier one put in, and
the four passes are one.

* `Latex.escapeChar` — what stands for a character.
* `Latex.eq_of_escapeChar_starts` — what stands for a character does not begin what stands for
  another, so that a text can be read back from its start.
* **`Latex.Escaped`** — a text in which every special character belongs to one of the four sequences
  that stand for special characters.
* **`Latex.escape_eq_and_injective_and_image`** — escaping is one pass over the characters, no two
  texts are escaped alike, and what it makes are just the texts that are escaped.
-/

namespace Treatise.Latex

/-! ## One pass -/

/-- The characters that do not stand for themselves. -/
def specials : List Char := ['\\', '_', '&', '%']

/-- What stands for a character outside a formula. -/
def escapeChar : Char → List Char
  | '\\' => "\\textbackslash\x7b\x7d".toList
  | '_' => "\\_".toList
  | '&' => "\\&".toList
  | '%' => "\\%".toList
  | c => [c]

variable {c d : Char} {s t : List Char}

/-- What holds of all special characters is checked for the four of them. -/
theorem forall_mem_specials {p : Char → Prop} :
    (∀ c ∈ specials, p c) ↔ p '\\' ∧ p '_' ∧ p '&' ∧ p '%' := by
  simp [specials]

theorem escapeChar_of_mem (h : c ∈ specials) : ∃ rest, escapeChar c = '\\' :: rest := by
  have hhead : ∀ c ∈ specials, (escapeChar c).head? = some '\\' :=
    forall_mem_specials.2 (by decide +kernel)
  exact List.head?_eq_some_iff.1 (hhead c h)

theorem escapeChar_of_notMem (h : c ∉ specials) : escapeChar c = [c] := by
  unfold escapeChar
  split
  · exact absurd (by decide) h
  · exact absurd (by decide) h
  · exact absurd (by decide) h
  · exact absurd (by decide) h
  · rfl

/-- The four passes over a text. -/
def passes (s : List Char) : List Char :=
  replaceChar '%' "\\%" (replaceChar '&' "\\&" (replaceChar '_' "\\_"
    (replaceChar '\\' "\\textbackslash\x7b\x7d" s)))

theorem passes_append (s t : List Char) : passes (s ++ t) = passes s ++ passes t := by
  simp only [passes, replaceChar, List.flatMap_append]

theorem passes_singleton (c : Char) : passes [c] = escapeChar c := by
  by_cases h : c ∈ specials
  · have hspecial : ∀ c ∈ specials, passes [c] = escapeChar c :=
      forall_mem_specials.2 (by decide +kernel)
    exact hspecial c h
  · rw [escapeChar_of_notMem h]
    simp only [specials, List.mem_cons, List.not_mem_nil, or_false, not_or] at h
    simp only [passes, replaceChar, List.flatMap_cons, List.flatMap_nil, List.append_nil, h,
      if_false]

theorem escape_eq (s : String) : escape s = String.ofList (s.toList.flatMap escapeChar) := by
  show String.ofList (passes s.toList) = _
  congr 1
  induction s.toList with
  | nil => rfl
  | cons c s ih =>
    rw [List.flatMap_cons, ← ih, ← passes_singleton, ← passes_append, List.singleton_append]

theorem escape_append (s t : String) : escape (s ++ t) = escape s ++ escape t := by
  rw [escape_eq, escape_eq, escape_eq, String.toList_append, List.flatMap_append,
    String.ofList_append]

/-! ## Reading back -/

/-- What stands for a character does not begin what stands for another. -/
theorem eq_of_escapeChar_starts (h : escapeChar c <+: escapeChar d) : c = d := by
  by_cases hc : c ∈ specials
  · by_cases hd : d ∈ specials
    · have hspecial : ∀ c ∈ specials, ∀ d ∈ specials, escapeChar c <+: escapeChar d → c = d := by
        simp only [forall_mem_specials]
        decide +kernel
      exact hspecial c hc d hd h
    · obtain ⟨rest, hrest⟩ := escapeChar_of_mem hc
      rw [hrest, escapeChar_of_notMem hd, List.cons_prefix_cons] at h
      exact absurd (h.1 ▸ List.mem_cons_self) hd
  · rw [escapeChar_of_notMem hc] at h
    by_cases hd : d ∈ specials
    · obtain ⟨rest, hrest⟩ := escapeChar_of_mem hd
      rw [hrest, List.cons_prefix_cons] at h
      exact absurd (h.1 ▸ List.mem_cons_self) hc
    · rw [escapeChar_of_notMem hd, List.cons_prefix_cons] at h
      exact h.1

/-- Of what stands for characters, at most one begins a text. -/
theorem eq_of_starts_of_starts (hc : escapeChar c <+: t) (hd : escapeChar d <+: t) :
    c = d :=
  (List.prefix_or_prefix_of_prefix hc hd).elim eq_of_escapeChar_starts
    fun h => (eq_of_escapeChar_starts h).symm

theorem escapeChar_append_inj (h : escapeChar c ++ s = escapeChar d ++ t) : c = d ∧ s = t := by
  have hc : escapeChar c <+: escapeChar c ++ s := List.prefix_append _ _
  have hd : escapeChar d <+: escapeChar c ++ s := h ▸ List.prefix_append _ _
  obtain rfl := eq_of_starts_of_starts hc hd
  exact ⟨rfl, List.append_cancel_left h⟩

theorem escapeChar_ne_nil (c : Char) : escapeChar c ≠ [] := by
  by_cases h : c ∈ specials
  · obtain ⟨rest, hrest⟩ := escapeChar_of_mem h
    simp [hrest]
  · simp [escapeChar_of_notMem h]

theorem escape_injective : Function.Injective escape := by
  intro s t h
  rw [escape_eq, escape_eq, String.ofList_inj] at h
  rw [← String.toList_inj]
  generalize s.toList = cs, t.toList = ds at h
  induction cs generalizing ds with
  | nil =>
    cases ds with
    | nil => rfl
    | cons d ds => exact absurd h.symm (by simp [escapeChar_ne_nil])
  | cons c cs ih =>
    cases ds with
    | nil => exact absurd h (by simp [escapeChar_ne_nil])
    | cons d ds =>
      rw [List.flatMap_cons, List.flatMap_cons] at h
      obtain ⟨rfl, hrest⟩ := escapeChar_append_inj h
      rw [ih ds hrest]

/-! ## What is made -/

/-- A text in which every special character but the backslash is directly behind a backslash, and
every backslash begins what stands for exactly one special character. -/
structure Escaped (t : List Char) : Prop where
  behind : ∀ front c rest, t = front ++ c :: rest → c ∈ ['_', '&', '%'] →
    front.getLast? = some '\\'
  begins : ∀ front rest, t = front ++ '\\' :: rest →
    ∃! c, c ∈ specials ∧ escapeChar c <+: '\\' :: rest

theorem Escaped.nil : Escaped [] := ⟨by simp, by simp⟩

theorem getLast?_escapeChar_ne (c : Char) : (escapeChar c).getLast? ≠ some '\\' := by
  by_cases h : c ∈ specials
  · have hlast : ∀ c ∈ specials, (escapeChar c).getLast? ≠ some '\\' :=
      forall_mem_specials.2 (by decide +kernel)
    exact hlast c h
  · rw [escapeChar_of_notMem h]
    rintro ⟨rfl⟩
    exact h (by decide)

section Place

variable {front rest : List Char}

/-- A special character within what stands for a character is the second one of a sequence. -/
theorem getLast?_of_escapeChar_eq (h : escapeChar c = front ++ d :: rest)
    (hd : d ∈ ['_', '&', '%']) : front.getLast? = some '\\' := by
  by_cases hc : c ∈ specials
  · have hplace : ∀ c ∈ specials, ∀ i < (escapeChar c).length,
        (escapeChar c)[i]?.any (['_', '&', '%'].contains ·) = true →
          ((escapeChar c).take i).getLast? = some '\\' :=
      forall_mem_specials.2 (by decide +kernel)
    have hfront := hplace c hc front.length (by simp [h]) (by simpa [h] using hd)
    rwa [h, List.take_left] at hfront
  · rw [escapeChar_of_notMem hc] at h
    obtain rfl : c = d := List.mem_singleton.1 (h ▸ by simp) |>.symm
    exact absurd (List.mem_cons_of_mem _ hd) hc

/-- A backslash within what stands for a character begins a sequence. -/
theorem eq_nil_of_escapeChar_eq (h : escapeChar c = front ++ '\\' :: rest) :
    front = [] ∧ c ∈ specials := by
  by_cases hc : c ∈ specials
  · refine ⟨?_, hc⟩
    have htail : ∀ c ∈ specials, '\\' ∉ (escapeChar c).tail :=
      forall_mem_specials.2 (by decide +kernel)
    cases front with
    | nil => rfl
    | cons d front => exact absurd (by simp [h]) (htail c hc)
  · rw [escapeChar_of_notMem hc] at h
    obtain rfl : '\\' = c := List.mem_singleton.1 (h ▸ by simp)
    exact absurd (by decide) hc

/-- A place in two texts is in the first or in the second one. -/
theorem place_of_append_eq (h : s ++ t = front ++ c :: rest) :
    (∃ s', s = front ++ c :: s' ∧ rest = s' ++ t) ∨
      ∃ t', front = s ++ t' ∧ t = t' ++ c :: rest := by
  rcases List.append_eq_append_iff.1 h with ⟨t', hfront, ht⟩ | ⟨s', hs, hrest⟩
  · exact .inr ⟨t', hfront, ht⟩
  · cases s' with
    | nil => exact .inr ⟨[], by simpa using hs.symm, by simpa using hrest.symm⟩
    | cons d s' =>
      obtain ⟨rfl, heq⟩ := List.cons.inj hrest
      exact .inl ⟨s', hs, heq⟩

end Place

/-- What stands for a character in front makes no difference. -/
theorem escaped_append_iff : Escaped (escapeChar c ++ t) ↔ Escaped t := by
  constructor
  · intro h
    refine ⟨fun front d rest ht hd => ?_, fun front rest ht => ?_⟩
    · have hlast := h.behind (escapeChar c ++ front) d rest (by rw [ht, List.append_assoc]) hd
      rw [List.getLast?_append] at hlast
      -- nothing special can follow directly, as no sequence ends in a backslash
      cases hfront : front.getLast? with
      | none => exact absurd (by simpa [hfront] using hlast) (getLast?_escapeChar_ne c)
      | some e => simpa [hfront] using hlast
    · exact h.begins (escapeChar c ++ front) rest (by rw [ht, List.append_assoc])
  · intro h
    refine ⟨fun front d rest ht hd => ?_, fun front rest ht => ?_⟩
    · rcases place_of_append_eq ht with ⟨s', hs, -⟩ | ⟨t', rfl, ht'⟩
      · exact getLast?_of_escapeChar_eq hs hd
      · rw [List.getLast?_append, h.behind t' d rest ht' hd]
        rfl
    · rcases place_of_append_eq ht with ⟨s', hs, -⟩ | ⟨t', rfl, ht'⟩
      · obtain ⟨rfl, hc⟩ := eq_nil_of_escapeChar_eq hs
        rw [List.nil_append] at ht
        have hprefix : escapeChar c <+: '\\' :: rest := ht ▸ List.prefix_append _ _
        exact ⟨c, ⟨hc, hprefix⟩, fun d hd => eq_of_starts_of_starts hd.2 hprefix⟩
      · exact h.begins t' rest ht'

/-- A text that is escaped begins with what stands for a character. -/
theorem Escaped.exists_eq_append (h : Escaped t) (hne : t ≠ []) :
    ∃ c s, t = escapeChar c ++ s := by
  obtain ⟨d, s, rfl⟩ := List.exists_cons_of_ne_nil hne
  by_cases hd : d ∈ specials
  · rcases List.mem_cons.1 hd with rfl | hd
    · obtain ⟨c, ⟨-, rest, hrest⟩, -⟩ := h.begins [] s rfl
      exact ⟨c, rest, hrest.symm⟩
    · -- nothing is in front of the first character
      cases h.behind [] d s rfl hd
  · exact ⟨d, s, by rw [escapeChar_of_notMem hd]; rfl⟩

theorem escaped_flatMap_escapeChar (s : List Char) : Escaped (s.flatMap escapeChar) := by
  induction s with
  | nil => exact .nil
  | cons c s ih => exact escaped_append_iff.2 ih

/-- Induction on the length: a sequence is read at the start, and what follows is escaped too. -/
theorem Escaped.exists_eq_flatMap (h : Escaped t) : ∃ s : List Char, t = s.flatMap escapeChar := by
  induction hlength : t.length using Nat.strong_induction_on generalizing t with
  | _ length ih =>
    by_cases hne : t = []
    · exact ⟨[], hne⟩
    · obtain ⟨c, u, rfl⟩ := h.exists_eq_append hne
      have hshorter : u.length < length := by
        have hpos := List.length_pos_iff.2 (escapeChar_ne_nil c)
        rw [List.length_append] at hlength
        omega
      obtain ⟨s, hs⟩ := ih u.length hshorter (escaped_append_iff.1 h) rfl
      exact ⟨c :: s, by rw [List.flatMap_cons, hs]⟩

/-- Escaping is one pass, in which each character is replaced on its own; so a text is escaped part
by part, and no two texts are escaped alike. The texts that it makes are just those in which a
special character is directly behind a backslash and a backslash begins a sequence. -/
theorem escape_eq_and_injective_and_image :
    (∀ s, escape s = String.ofList (s.toList.flatMap escapeChar)) ∧
      (∀ s t, escape (s ++ t) = escape s ++ escape t) ∧ Function.Injective escape ∧
      ∀ t : String, (∃ s, escape s = t) ↔ Escaped t.toList := by
  refine ⟨escape_eq, escape_append, escape_injective, fun t => ⟨?_, fun h => ?_⟩⟩
  · rintro ⟨s, rfl⟩
    rw [escape_eq, String.toList_ofList]
    exact escaped_flatMap_escapeChar s.toList
  · obtain ⟨s, hs⟩ := h.exists_eq_flatMap
    exact ⟨String.ofList s, by rw [escape_eq, String.toList_ofList, ← hs, String.ofList_toList]⟩

example : escape "a_b & 5% \\_" = "a\\_b \\& 5\\% \\textbackslash\x7b\x7d\\_" := by decide +kernel

end Treatise.Latex
