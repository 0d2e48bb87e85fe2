import Mathlib.Data.List.Chain
import Mathlib.Data.List.Infix
import Treatise.Chunk

/-!
# Slices of a body

A body is its chunks and what stands between them. The chunks are found line by line; here the body
is cut once more, with nothing dropped.

* `Chunk.slices` — the chunks of a body, each with what is dropped behind it. Nothing else is lost
  (`flatten_slices`).
* **`Chunk.split_eq_place`** — the chunks of a body are its slices, each at the place where it stands.
* `Chunk.not_blank_of_mem_split` — no chunk is blank.
-/

namespace Treatise

namespace Chunk

/-! ## Lines -/

/-- All lines of a text but the last one are ended. -/
theorem isChain_splitLines (s : List Char) :
    (Text.splitLines s).IsChain fun line _ => line.getLast? = some '\n' := by
  induction s with
  | nil => exact .nil
  | cons c s ih =>
    rw [Text.splitLines]
    split
    next hc =>
      subst hc
      cases hlines : Text.splitLines s with
      | nil => exact .singleton _
      | cons line lines => exact .cons_cons rfl (hlines ▸ ih)
    · cases hlines : Text.splitLines s with
      | nil => exact .singleton _
      | cons line lines =>
        rw [hlines] at ih
        cases lines with
        | nil => exact .singleton _
        | cons next lines =>
          obtain ⟨hlast, hmore⟩ := List.isChain_cons_cons.1 ih
          have hline : line ≠ [] := by rintro rfl; cases hlast
          refine .cons_cons ?_ hmore
          obtain ⟨d, line, rfl⟩ := List.exists_cons_of_ne_nil hline
          exact hlast

/-! ## What is dropped -/

/-- A chunk, and what is dropped behind it: the end of its last line and the blank lines up to the
next chunk. -/
structure Slice where
  text : List Char
  gap : List Char
  deriving DecidableEq, Repr

/-- The end of a line, as it is dropped behind the last line of a chunk. -/
def lineStop (line : List Char) : List Char := line.drop (content line).length

/-- The slices of a chunk that ends in the given line end, unless the lines behind it go on with it.
These are given by the blank lines before their first chunk, and their slices. -/
def attach (text stop : List Char) : List Char × List Slice → List Slice
  | ([], first :: slices) => ⟨text ++ stop ++ first.text, first.gap⟩ :: slices
  | (lead, slices) => ⟨text, stop ++ lead⟩ :: slices

/-- The blank lines before the first chunk of lines, and the slices of the lines. -/
def slicesOf : (fence : Option Fence) → List (List Char) → List Char × List Slice
  | _, [] => ([], [])
  | fence, line :: lines =>
    if fence.isNone ∧ Text.isAllBlank (content line) then
      let (lead, slices) := slicesOf none lines
      (line ++ lead, slices)
    else
      ([], attach (content line) (lineStop line)
        (slicesOf (Fence.next fence (content line)) lines))

theorem slicesOf_of_blank {fence : Option Fence} {line : List Char}
    (h : fence.isNone ∧ Text.isAllBlank (content line)) (lines : List (List Char)) :
    slicesOf fence (line :: lines) =
      (line ++ (slicesOf none lines).1, (slicesOf none lines).2) := by
  rw [slicesOf, if_pos h]

theorem slicesOf_of_not_blank {fence : Option Fence} {line : List Char}
    (h : ¬(fence.isNone ∧ Text.isAllBlank (content line))) (lines : List (List Char)) :
    slicesOf fence (line :: lines) =
      ([], attach (content line) (lineStop line)
        (slicesOf (Fence.next fence (content line)) lines)) := by
  rw [slicesOf, if_neg h]

/-- The blank lines before the first chunk of a body, and its slices. -/
def slices (source : List Char) : List Char × List Slice := slicesOf none (Text.splitLines source)

/-- The text that slices are cut from. -/
def Slice.flatten (slices : List Slice) : List Char := slices.flatMap fun s => s.text ++ s.gap

theorem content_append_lineStop (line : List Char) : content line ++ lineStop line = line := by
  have hprefix : content line <+: line := by
    rw [← List.reverse_suffix]
    simpa [content] using List.dropWhile_suffix fun c : Char => c == '\n' || c == '\r'
  exact List.prefix_iff_eq_append.1 hprefix

theorem lineStop_eq (line : List Char) :
    lineStop line = (line.reverse.takeWhile fun c => c == '\n' || c == '\r').reverse := by
  have hsplit := List.takeWhile_append_dropWhile (p := fun c : Char => c == '\n' || c == '\r')
    (l := line.reverse)
  have hline := congrArg List.reverse hsplit
  rw [List.reverse_append, List.reverse_reverse] at hline
  have hstop := content_append_lineStop line
  rw [content] at hstop
  exact List.append_cancel_left (hstop.trans hline.symm)

/-- A line that is ended ends in its line end. -/
theorem getLast?_lineStop {line : List Char} (h : line.getLast? = some '\n') :
    (lineStop line).getLast? = some '\n' := by
  rw [lineStop_eq, List.getLast?_reverse]
  rw [List.getLast?_eq_head?_reverse] at h
  cases hline : line.reverse with
  | nil => rw [hline] at h; cases h
  | cons c r =>
    rw [hline] at h
    obtain rfl := Option.some.inj h
    rfl

theorem flatten_attach (text stop : List Char) (lead : List Char) (slices : List Slice) :
    Slice.flatten (attach text stop (lead, slices)) =
      text ++ stop ++ (lead ++ Slice.flatten slices) := by
  unfold attach
  split <;> simp_all [Slice.flatten]

/-- Slices and the blank lines before them are the whole text. -/
theorem flatten_slicesOf (fence : Option Fence) (lines : List (List Char)) :
    (slicesOf fence lines).1 ++ Slice.flatten (slicesOf fence lines).2 = lines.flatten := by
  induction lines generalizing fence with
  | nil => rfl
  | cons line lines ih =>
    rw [slicesOf]
    split
    · simp only [List.append_assoc, List.flatten_cons, ih]
    · rw [List.nil_append, flatten_attach, ih, content_append_lineStop, List.flatten_cons]

theorem flatten_slices (source : List Char) :
    (slices source).1 ++ Slice.flatten (slices source).2 = source :=
  (flatten_slicesOf none _).trans (Text.flatten_splitLines source)

/-! ## The places of slices -/

/-- Slices as chunks, where the first one starts at byte `start`. -/
def place : (start : Nat) → List Slice → List Chunk
  | _, [] => []
  | start, s :: slices =>
    ⟨s.text, start⟩ ::
      place (start + Text.byteLength s.text + Text.byteLength s.gap) slices

theorem map_text_place (start : Nat) (slices : List Slice) :
    (place start slices).map (·.text) = slices.map (·.text) := by
  induction slices generalizing start with
  | nil => rfl
  | cons s slices ih => rw [place, List.map_cons, ih, List.map_cons]

theorem attach_attach (text stop text' stop' : List Char) (behind : List Char × List Slice) :
    attach text stop ([], attach text' stop' behind) =
      attach (text ++ stop ++ text') stop' behind := by
  rcases behind with ⟨_ | ⟨c, lead⟩, _ | ⟨first, slices⟩⟩ <;> simp [attach]

/-- The place of the next line, where a chunk is begun: right behind the lines of the chunk. -/
def Partial.Before (offset : Nat) (p : Partial) : Prop :=
  p.start + Text.byteLength (p.lines ++ p.last ++ p.lastEnd) = offset

theorem Partial.last_extend (current : Option Partial) (offset : Nat) (line : List Char) :
    (Partial.extend current offset line).last = content line ∧
      (Partial.extend current offset line).lastEnd = lineStop line := by
  cases current <;> exact ⟨rfl, rfl⟩

/-- A line that a chunk gets starts behind the lines that the chunk has. -/
theorem Partial.start_extend {offset : Nat} {current : Option Partial}
    (h : ∀ p ∈ current, p.Before offset) (line : List Char) :
    (Partial.extend current offset line).start +
      Text.byteLength (Partial.extend current offset line).lines = offset := by
  cases current with
  | none => rfl
  | some p => exact h p rfl

theorem Partial.before_extend {offset : Nat} {current : Option Partial}
    (h : ∀ p ∈ current, p.Before offset) (line : List Char) :
    (Partial.extend current offset line).Before (offset + Text.byteLength line) := by
  obtain ⟨hlast, hend⟩ := Partial.last_extend current offset line
  rw [Partial.Before, hlast, hend, List.append_assoc, content_append_lineStop,
    Text.byteLength_append, ← Nat.add_assoc, Partial.start_extend h]

section Cut

variable {fence : Option Fence} {line : List Char}

/-- A line that is dropped ends the chunk before it. -/
theorem cut_of_blank (h : fence.isNone ∧ Text.isAllBlank (content line)) (base offset : Nat)
    (current : Option Partial) (lines : List (List Char)) :
    cut base offset fence current (line :: lines) =
      (current.map (·.toChunk base)).toList ++
        cut base (offset + Text.byteLength line) none none lines := by
  cases current <;> rw [cut, if_pos h] <;> rfl

theorem cut_of_not_blank (h : ¬(fence.isNone ∧ Text.isAllBlank (content line)))
    (base offset : Nat) (current : Option Partial) (lines : List (List Char)) :
    cut base offset fence current (line :: lines) =
      cut base (offset + Text.byteLength line) (Fence.next fence (content line))
        (some (Partial.extend current offset line)) lines := by
  cases current <;> rw [cut, if_neg h]

end Cut

/-- A chunk that is begun gets the lines behind it up to a blank one; then, and where no chunk is
begun, the next one starts behind the blank lines. -/
theorem cut_eq_place (base : Nat) {lines : List (List Char)} (hne : ∀ l ∈ lines, l ≠ [])
    (offset : Nat) (fence : Option Fence) (current : Option Partial)
    (hcurrent : ∀ p ∈ current, p.Before offset) :
    cut base offset fence current lines =
      match current with
      | none => place (base + offset + Text.byteLength (slicesOf fence lines).1)
          (slicesOf fence lines).2
      | some p => place (base + p.start)
          (attach (p.lines ++ p.last) p.lastEnd (slicesOf fence lines)) := by
  induction lines generalizing offset fence current with
  | nil => cases current <;> rfl
  | cons line lines ih =>
    obtain ⟨hline, hlines⟩ := List.forall_mem_cons.1 hne
    by_cases hblank : fence.isNone ∧ Text.isAllBlank (content line)
    · -- the line ends the chunk that is begun, and is dropped
      rw [cut_of_blank hblank, slicesOf_of_blank hblank,
        ih hlines (offset + Text.byteLength line) none none nofun]
      cases current with
      | none =>
        dsimp only [Option.map_none, Option.toList_none, List.nil_append]
        rw [Text.byteLength_append, ← Nat.add_assoc, ← Nat.add_assoc]
      | some p =>
        obtain ⟨c, cs, rfl⟩ := List.exists_cons_of_ne_nil hline
        have hp : p.start + Text.byteLength (p.lines ++ p.last ++ p.lastEnd) = offset :=
          hcurrent p rfl
        have hstart : base + (offset + Text.byteLength (c :: cs)) +
              Text.byteLength (slicesOf none lines).1 =
            base + p.start + Text.byteLength (p.lines ++ p.last) +
              Text.byteLength (p.lastEnd ++ (c :: cs ++ (slicesOf none lines).1)) := by
          rw [← hp]
          simp only [Text.byteLength_append]
          omega
        dsimp only
        rw [hstart]
        rfl
    · -- the line joins the chunk that is begun, or begins one
      rw [cut_of_not_blank hblank, slicesOf_of_not_blank hblank,
        ih hlines _ _ (some _) fun p hp => Option.some.inj hp ▸ Partial.before_extend hcurrent line]
      cases current with
      | none => rfl
      | some p => exact congrArg (place _) (attach_attach ..).symm

/-- The chunks of a body are its slices, where they stand. -/
theorem split_eq_place (source : List Char) (base : Nat) :
    split source base =
      place (base + Text.byteLength (slices source).1) (slices source).2 :=
  cut_eq_place base (fun _ => Text.ne_nil_of_mem_splitLines) 0 none none nofun

theorem map_text_split (source : List Char) (base : Nat) :
    (split source base).map (·.text) = (slices source).2.map (·.text) := by
  rw [split_eq_place, map_text_place]

/-! ## No chunk is blank -/

/-- What is dropped in front is blank, so that no fence is open. -/
theorem lead_slicesOf_some (f : Fence) (lines : List (List Char)) :
    (slicesOf (some f) lines).1 = [] := by
  cases lines with
  | nil => rfl
  | cons line lines => rw [slicesOf_of_not_blank (by simp)]

theorem exists_attach_eq_cons (text stop : List Char) (behind : List Char × List Slice) :
    ∃ more gap slices, attach text stop behind = ⟨text ++ more, gap⟩ :: slices := by
  rcases behind with ⟨_ | ⟨c, lead⟩, _ | ⟨first, slices⟩⟩
  · exact ⟨[], stop, [], by simp [attach]⟩
  · exact ⟨stop ++ first.text, first.gap, slices, by simp [attach]⟩
  · exact ⟨[], stop ++ c :: lead, [], by simp [attach]⟩
  · exact ⟨[], stop ++ c :: lead, first :: slices, by simp [attach]⟩

theorem tail_attach (text stop : List Char) (behind : List Char × List Slice) :
    (attach text stop behind).tail = if behind.1 = [] then behind.2.tail else behind.2 := by
  rcases behind with ⟨_ | ⟨c, lead⟩, _ | ⟨first, slices⟩⟩ <;> simp [attach]

/-- A chunk begins with a line that is not blank; only the first of slices may be the rest of a chunk
that began before. -/
theorem not_blank_of_mem_slicesOf (fence : Option Fence) (lines : List (List Char)) :
    (∀ s ∈ (slicesOf fence lines).2.tail, Text.isAllBlank s.text = false) ∧
      (fence = none → ∀ s ∈ (slicesOf fence lines).2, Text.isAllBlank s.text = false) := by
  induction lines generalizing fence with
  | nil => simp [slicesOf]
  | cons line lines ih =>
    by_cases hblank : fence.isNone ∧ Text.isAllBlank (content line)
    · rw [slicesOf_of_blank hblank]
      have hall := (ih none).2 rfl
      exact ⟨fun s hs => hall s (List.mem_of_mem_tail hs), fun _ => hall⟩
    · rw [slicesOf_of_not_blank hblank]
      -- the chunk goes on behind the line, or blank lines end it, and then no fence is open
      have htail : ∀ s ∈ (attach (content line) (lineStop line)
          (slicesOf (Fence.next fence (content line)) lines)).tail,
          Text.isAllBlank s.text = false := by
        rw [tail_attach]
        split
        · exact (ih _).1
        next hlead =>
          cases hnext : Fence.next fence (content line) with
          | none => exact (ih none).2 rfl
          | some f => rw [hnext] at hlead; exact absurd (lead_slicesOf_some f lines) hlead
      refine ⟨htail, fun hfence s hs => ?_⟩
      obtain ⟨more, gap, slices, heq⟩ := exists_attach_eq_cons (content line) (lineStop line)
        (slicesOf (Fence.next fence (content line)) lines)
      rw [heq] at hs htail
      cases hs with
      | head =>
        have hline : Text.isAllBlank (content line) = false := by simpa [hfence] using hblank
        rw [Text.isAllBlank] at hline ⊢
        rw [List.all_append, hline, Bool.false_and]
      | tail _ hs => exact htail s hs

theorem not_blank_of_mem_split {source : List Char} {base : Nat} {c : Chunk}
    (h : c ∈ split source base) : Text.isAllBlank c.text = false := by
  have htext := List.mem_map_of_mem (f := (·.text)) h
  rw [map_text_split, List.mem_map] at htext
  obtain ⟨s, hs, heq⟩ := htext
  rw [← heq]
  exact (not_blank_of_mem_slicesOf none _).2 rfl s hs

end Chunk

end Treatise
