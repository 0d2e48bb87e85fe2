import Mathlib.Data.List.TakeWhile
import Treatise.Proofs.Chunk.Slices

/-!
# Places of chunks

Where the chunks of a body stand. All of it is read off the slices of the body, of which the chunks
are the texts.

* **`Chunk.Covers`** — chunks that are slices of a body, each behind the one before it, with nothing
  but blanks around them.
* **`Chunk.covers_split`** — the chunks of a body are such, and they move with the body.
-/

namespace Treatise

namespace Chunk

variable {start : Nat} {slices : List Slice}

/-- The chunk in a body that stands `n` bytes further on. -/
def shift (n : Nat) (c : Chunk) : Chunk := { c with start := c.start + n }

/-- Chunks of a body whose first byte is byte `base`. -/
structure Covers (source : List Char) (base : Nat) (chunks : List Chunk) : Prop where
  /-- Each chunk ends before the next ones start. -/
  ordered : chunks.Pairwise fun c d => c.stop < d.start
  /-- Each chunk is the slice of the body from its first byte up to its last, which begins where a
  line does. -/
  slice : ∀ c ∈ chunks, ∃ before after, source = before ++ c.text ++ after ∧
    c.start = base + Text.byteLength before ∧ c.stop = base + Text.byteLength (before ++ c.text) ∧
      (before = [] ∨ before.getLast? = some '\n')
  /-- No chunk is empty or blank. -/
  inked : ∀ c ∈ chunks, ∃ x ∈ c.text, Text.isBlank x = false
  /-- A character of the body that stands in no chunk is a blank. -/
  outside : ∀ before x after, source = before ++ x :: after →
    (∀ c ∈ chunks, ¬(c.start ≤ base + Text.byteLength before ∧
      base + Text.byteLength before < c.stop)) → Text.isBlank x = true

/-! ## Blanks between chunks -/

theorem isBlank_of_mem_lineStop {line : List Char} {x : Char} (h : x ∈ lineStop line) :
    Text.isBlank x = true := by
  rw [lineStop_eq, List.mem_reverse] at h
  have hx := List.mem_takeWhile_imp (p := fun c : Char => c == '\n' || c == '\r') h
  simp only [Bool.or_eq_true, beq_iff_eq] at hx
  rcases hx with rfl | rfl <;> decide

theorem isBlank_of_mem_blankLine {line : List Char} (h : Text.isAllBlank (content line) = true)
    {x : Char} (hx : x ∈ line) : Text.isBlank x = true := by
  rw [← content_append_lineStop line, List.mem_append] at hx
  rcases hx with hx | hx
  · exact List.all_eq_true.1 h x hx
  · exact isBlank_of_mem_lineStop hx

/-- What is dropped is blank. -/
theorem isBlank_of_mem_slicesOf (fence : Option Fence) (lines : List (List Char)) :
    (∀ x ∈ (slicesOf fence lines).1, Text.isBlank x = true) ∧
      ∀ s ∈ (slicesOf fence lines).2, ∀ x ∈ s.gap, Text.isBlank x = true := by
  induction lines generalizing fence with
  | nil => exact ⟨nofun, nofun⟩
  | cons line lines ih =>
    by_cases hblank : fence.isNone ∧ Text.isAllBlank (content line)
    · rw [slicesOf_of_blank hblank]
      obtain ⟨hlead, hgaps⟩ := ih none
      refine ⟨fun x hx => ?_, hgaps⟩
      rcases List.mem_append.1 hx with hx | hx
      · exact isBlank_of_mem_blankLine hblank.2 hx
      · exact hlead x hx
    · rw [slicesOf_of_not_blank hblank]
      refine ⟨nofun, ?_⟩
      obtain ⟨hlead, hgaps⟩ := ih (Fence.next fence (content line))
      unfold attach
      split
      · -- the chunk goes on, and its gap is the one behind
        next first slices heq =>
        rw [heq] at hgaps
        rw [List.forall_mem_cons] at hgaps ⊢
        exact hgaps
      · next lead slices _ heq =>
        rw [heq] at hlead hgaps
        rw [List.forall_mem_cons]
        refine ⟨fun x hx => ?_, hgaps⟩
        rcases List.mem_append.1 hx with hx | hx
        · exact isBlank_of_mem_lineStop hx
        · exact hlead x hx

/-! ## Order -/

/-- Behind each slice but the last, something is dropped. -/
theorem isChain_slicesOf (fence : Option Fence) (lines : List (List Char)) :
    (slicesOf fence lines).2.IsChain fun s _ => s.gap ≠ [] := by
  induction lines generalizing fence with
  | nil => exact .nil
  | cons line lines ih =>
    by_cases hblank : fence.isNone ∧ Text.isAllBlank (content line)
    · rw [slicesOf_of_blank hblank]
      exact ih none
    · rw [slicesOf_of_not_blank hblank]
      have hmore := ih (Fence.next fence (content line))
      unfold attach
      split
      · next first slices heq =>
        rw [heq] at hmore
        exact List.isChain_cons.2 ⟨(List.isChain_cons.1 hmore).1, (List.isChain_cons.1 hmore).2⟩
      · next lead slices hlead heq =>
        rw [heq] at hmore
        refine List.isChain_cons.2 ⟨fun s hs hnil => ?_, hmore⟩
        -- with no blank line between, the chunk would have gone on
        obtain ⟨-, rfl⟩ := List.append_eq_nil_iff.1 hnil
        cases slices with
        | nil => cases hs
        | cons first slices => exact hlead first slices rfl rfl

theorem byteLength_pos {s : List Char} (h : s ≠ []) : 0 < Text.byteLength s := by
  obtain ⟨c, s, rfl⟩ := List.exists_cons_of_ne_nil h
  rw [Text.byteLength_cons]
  exact Nat.add_pos_left c.utf8Size_pos _

/-- Each chunk is the text of a slice, behind the slices before it. -/
theorem exists_of_mem_place {c : Chunk} (h : c ∈ place start slices) :
    ∃ front s rest, slices = front ++ s :: rest ∧
      c = ⟨s.text, start + Text.byteLength (Slice.flatten front)⟩ := by
  induction slices generalizing start with
  | nil => cases h
  | cons s slices ih =>
    rw [place, List.mem_cons] at h
    rcases h with rfl | h
    · exact ⟨[], s, slices, rfl, rfl⟩
    · obtain ⟨front, t, rest, rfl, rfl⟩ := ih h
      refine ⟨s :: front, t, rest, rfl, ?_⟩
      show _ = Chunk.mk t.text (start + Text.byteLength (s.text ++ s.gap ++ Slice.flatten front))
      rw [Text.byteLength_append, Text.byteLength_append, Nat.add_assoc, Nat.add_assoc,
        Nat.add_assoc]

theorem start_le_of_mem_place {c : Chunk} (h : c ∈ place start slices) : start ≤ c.start := by
  obtain ⟨front, s, rest, -, rfl⟩ := exists_of_mem_place h
  exact Nat.le_add_right _ _

theorem pairwise_place (h : slices.IsChain fun s _ => s.gap ≠ []) :
    (place start slices).Pairwise fun c d => c.stop < d.start := by
  induction slices generalizing start with
  | nil => exact .nil
  | cons s slices ih =>
    refine .cons (fun d hd => ?_) (ih h.tail)
    have hle := start_le_of_mem_place hd
    have hgap : 0 < Text.byteLength s.gap := by
      cases slices with
      | nil => cases hd
      | cons t slices => exact byteLength_pos (List.isChain_cons_cons.1 h).1
    show start + Text.byteLength s.text < d.start
    omega

/-! ## Starts of lines -/

/-- What stands before a slice is whole lines, and not all of them. -/
theorem exists_lines_of_slicesOf (fence : Option Fence) {lines : List (List Char)}
    {front rest : List Slice} {s : Slice} (h : (slicesOf fence lines).2 = front ++ s :: rest) :
    ∃ ls m ms, lines = ls ++ m :: ms ∧
      (slicesOf fence lines).1 ++ Slice.flatten front = ls.flatten := by
  induction lines generalizing fence front with
  | nil => cases front <;> cases h
  | cons line lines ih =>
    by_cases hblank : fence.isNone ∧ Text.isAllBlank (content line)
    · rw [slicesOf_of_blank hblank] at h ⊢
      obtain ⟨ls, m, ms, rfl, heq⟩ := ih none h
      exact ⟨line :: ls, m, ms, rfl, by rw [List.append_assoc, heq, List.flatten_cons]⟩
    · rw [slicesOf_of_not_blank hblank] at h ⊢
      cases front with
      | nil => exact ⟨[], line, lines, rfl, rfl⟩
      | cons t front =>
        -- the slice in front is at least the first line
        have hmore : ∃ front', (slicesOf (Fence.next fence (content line)) lines).2 =
              front' ++ s :: rest ∧
            Slice.flatten (t :: front) = content line ++ lineStop line ++
              ((slicesOf (Fence.next fence (content line)) lines).1 ++ Slice.flatten front') := by
          unfold attach at h
          split at h
          · next first slices heq =>
            obtain ⟨rfl, rfl⟩ := List.cons.inj h
            exact ⟨first :: front, by rw [heq]; rfl, by rw [heq]; simp [Slice.flatten]⟩
          · next lead slices _ heq =>
            obtain ⟨rfl, rfl⟩ := List.cons.inj h
            exact ⟨front, by rw [heq]; rfl, by rw [heq]; simp [Slice.flatten]⟩
        obtain ⟨front', hmore, hflatten⟩ := hmore
        obtain ⟨ls, m, ms, rfl, hls⟩ := ih _ hmore
        refine ⟨line :: ls, m, ms, rfl, ?_⟩
        rw [List.flatten_cons, ← hls, hflatten, content_append_lineStop]
        rfl

/-- Lines of a text, behind which there are others, are ended. -/
theorem ended_of_isChain {ls ms : List (List Char)} {m : List Char}
    (h : (ls ++ m :: ms).IsChain fun line _ => line.getLast? = some '\n') :
    ∀ l ∈ ls, l.getLast? = some '\n' := by
  induction ls with
  | nil => nofun
  | cons l ls ih =>
    rw [List.cons_append, List.isChain_cons] at h
    rw [List.forall_mem_cons]
    refine ⟨?_, ih h.2⟩
    cases ls with
    | nil => exact h.1 m rfl
    | cons k ls => exact h.1 k rfl

theorem getLast?_flatten {ls : List (List Char)} (h : ∀ l ∈ ls, l.getLast? = some '\n') :
    ls.flatten = [] ∨ ls.flatten.getLast? = some '\n' := by
  rcases List.eq_nil_or_concat ls with rfl | ⟨ls, l, rfl⟩
  · exact .inl rfl
  · right
    simp [List.getLast?_append, h l (by simp)]

/-! ## The chunks of a body -/

/-- A character of two texts together is one of the first or one of the second. -/
theorem mem_left_or_right {u w before after : List Char} {x : Char}
    (h : u ++ w = before ++ x :: after) :
    (∃ v, u = before ++ x :: v) ∨ ∃ front, before = u ++ front ∧ w = front ++ x :: after := by
  rcases List.append_eq_append_iff.1 h with ⟨front, hbefore, hw⟩ | ⟨v, hu, hafter⟩
  · exact .inr ⟨front, hbefore, hw⟩
  · cases v with
    | nil => exact .inr ⟨[], by simpa using hu.symm, hafter.symm⟩
    | cons y v =>
      obtain ⟨rfl, -⟩ := List.cons.inj hafter
      exact .inl ⟨v, hu⟩

/-- A character that is in no chunk is in what is dropped. -/
theorem isBlank_of_outside_place (start : Nat)
    (hgap : ∀ s ∈ slices, ∀ x ∈ s.gap, Text.isBlank x = true) {before after : List Char} {x : Char}
    (h : Slice.flatten slices = before ++ x :: after)
    (hout : ∀ c ∈ place start slices, ¬(c.start ≤ start + Text.byteLength before ∧
      start + Text.byteLength before < c.stop)) : Text.isBlank x = true := by
  induction slices generalizing start before with
  | nil => cases before <;> cases h
  | cons s slices ih =>
    rw [List.forall_mem_cons] at hgap
    rw [place, List.forall_mem_cons] at hout
    have hflatten : s.text ++ (s.gap ++ Slice.flatten slices) = before ++ x :: after := by
      rw [← h, ← List.append_assoc]
      rfl
    rcases mem_left_or_right hflatten with ⟨v, htext⟩ | ⟨front, rfl, hmore⟩
    · refine absurd ⟨Nat.le_add_right _ _, ?_⟩ hout.1
      show start + Text.byteLength before < start + Text.byteLength s.text
      rw [htext, Text.byteLength_append]
      have := byteLength_pos (List.cons_ne_nil x v)
      omega
    · rcases mem_left_or_right hmore with ⟨v, hv⟩ | ⟨front, rfl, hrest⟩
      · exact hgap.1 x (by simp [hv])
      · refine ih (start + Text.byteLength s.text + Text.byteLength s.gap) hgap.2 hrest
          fun c hc => ?_
        have hc := hout.2 c hc
        rwa [Text.byteLength_append, Text.byteLength_append, ← Nat.add_assoc, ← Nat.add_assoc] at hc

theorem place_add (n : Nat) :
    place (start + n) slices = (place start slices).map (shift n) := by
  induction slices generalizing start with
  | nil => rfl
  | cons s slices ih =>
    rw [place, place, List.map_cons, ← ih]
    congr 2
    omega

section Split

variable {source : List Char} {base : Nat}

/-- Each chunk of a body is a slice of it, behind whole lines. -/
theorem exists_slice_of_mem_split {c : Chunk} (hc : c ∈ split source base) :
    ∃ before after, source = before ++ c.text ++ after ∧
      c.start = base + Text.byteLength before ∧
        c.stop = base + Text.byteLength (before ++ c.text) ∧
          (before = [] ∨ before.getLast? = some '\n') := by
  rw [split_eq_place] at hc
  obtain ⟨front, s, rest, hslices, rfl⟩ := exists_of_mem_place hc
  obtain ⟨ls, m, ms, hlines, hbefore⟩ := exists_lines_of_slicesOf none hslices
  refine ⟨ls.flatten, s.gap ++ Slice.flatten rest, ?_, ?_, ?_, ?_⟩
  · refine (flatten_slices source).symm.trans ?_
    rw [hslices, ← hbefore]
    simp [Slice.flatten, slices]
  · rw [← hbefore, Text.byteLength_append, Nat.add_assoc]
    rfl
  · rw [Text.byteLength_append, ← hbefore, Text.byteLength_append, ← Nat.add_assoc,
      ← Nat.add_assoc]
    rfl
  · exact getLast?_flatten (ended_of_isChain (hlines ▸ isChain_splitLines source))

/-- What stands in no chunk of a body is in front of its slices, or in the gap behind one. -/
theorem isBlank_of_outside_split {before after : List Char} {x : Char}
    (hx : source = before ++ x :: after)
    (hout : ∀ c ∈ split source base, ¬(c.start ≤ base + Text.byteLength before ∧
      base + Text.byteLength before < c.stop)) : Text.isBlank x = true := by
  obtain ⟨hlead, hgaps⟩ := isBlank_of_mem_slicesOf none (Text.splitLines source)
  rw [split_eq_place] at hout
  rcases mem_left_or_right ((flatten_slices source).trans hx) with ⟨v, hv⟩ | ⟨front, rfl, hrest⟩
  · have hmem : x ∈ (slices source).1 := by simp [hv]
    exact hlead x hmem
  · refine isBlank_of_outside_place (base + Text.byteLength (slices source).1) hgaps hrest
      fun c hc => ?_
    have hc := hout c hc
    rwa [Text.byteLength_append, ← Nat.add_assoc] at hc

end Split

/-- The chunks of a body are slices of it in the order of their places, which begin where lines do and
leave out blanks only. In a body that starts `n` bytes further on, they do so too. -/
theorem covers_split (source : List Char) (base : Nat) :
    Covers source base (split source base) ∧
      ∀ n, split source (base + n) = (split source base).map (shift n) := by
  refine ⟨⟨?_, fun c hc => exists_slice_of_mem_split hc, fun c hc => ?_,
    fun before x after hx hout => isBlank_of_outside_split hx hout⟩, fun n => ?_⟩
  · rw [split_eq_place]
    exact pairwise_place (isChain_slicesOf none _)
  · have hinked := not_blank_of_mem_split hc
    rw [Text.isAllBlank, List.all_eq_false] at hinked
    simpa using hinked
  · rw [split_eq_place, split_eq_place, ← place_add, Nat.add_right_comm]

end Chunk

end Treatise
