import Mathlib.Data.List.Chain
import Treatise.Document
import Treatise.Proofs.Chunk.Slices
import Treatise.Proofs.Markdown.Seams
import Treatise.Proofs.Nesting

/-!
# Sources without statements

A body in which no chunk opens a statement is one run of text: its chunks are put together again,
with one empty line between, and read at once. What the body had between its chunks is lost, which
shows where blank lines are content: in code that is not fenced for the chunks, because it is indented
or its fence stands behind the marker of an item, and in raw HTML.

* `Chunk.gaps_slices` — what stands behind each slice of a body.
* `root_parse_eq_readInto_rejoin` — what the tree of such a source is the reading of.
* `Chunk.Sealed` — each chunk ends where nothing is open that blank lines could go into, or one empty
  line follows it.
* **`root_parse_eq_readInto`** — then the tree is the reading of the source itself.
-/

namespace Treatise

namespace Chunk

/-! ## Gaps -/

theorem isLineEnd_of_mem_lineStop {line : List Char} {c : Char} (h : c ∈ lineStop line) :
    Markdown.isLineEnd c = true := by
  rw [lineStop_eq, List.mem_reverse] at h
  exact List.mem_takeWhile_imp h

/-- Behind each slice but the last, lines are dropped; behind the last one, there may be nothing. -/
def Gaps : List Slice → Prop
  | [] => True
  | [s] => ∀ c ∈ s.gap.head?, Markdown.isLineEnd c = true
  | s :: rest => Markdown.IsGap s.gap ∧ Gaps rest

/-- A chunk that ends before dropped lines, or at the end of the text. -/
theorem gaps_attach {line lead : List Char} {slices : List Slice} (hgaps : Gaps slices)
    (hline : slices ≠ [] ∨ lead ≠ [] → line.getLast? = some '\n')
    (hlead : slices ≠ [] → lead ≠ [] → lead.getLast? = some '\n') :
    Gaps (attach (content line) (lineStop line) (lead, slices)) := by
  have hstop (rest : List Char) (hne : rest ≠ [] → line.getLast? = some '\n') :
      ∀ c ∈ (lineStop line ++ rest).head?, Markdown.isLineEnd c = true := by
    intro c hc
    cases hs : lineStop line with
    | cons d r =>
      rw [hs] at hc
      obtain rfl := Option.some.inj hc
      exact isLineEnd_of_mem_lineStop (hs ▸ List.mem_cons_self)
    | nil =>
      rw [hs] at hc
      have hlast := getLast?_lineStop (hne (by rintro rfl; cases hc))
      rw [hs] at hlast
      cases hlast
  cases slices with
  | nil =>
    have hattach : attach (content line) (lineStop line) (lead, []) =
        [⟨content line, lineStop line ++ lead⟩] := by cases lead <;> rfl
    rw [hattach]
    exact hstop lead fun h => hline (.inr h)
  | cons first slices =>
    cases lead with
    | nil =>
      -- the lines behind go on with the chunk, and the gap is theirs
      rw [attach]
      cases slices with
      | nil => exact hgaps
      | cons => exact hgaps
    | cons c lead =>
      have hended := hline (.inl (List.cons_ne_nil first slices))
      have hlast := hlead (List.cons_ne_nil _ _) (List.cons_ne_nil c lead)
      have hmem (l : List Char) (h : l.getLast? = some '\n') : 1 ≤ l.count '\n' :=
        List.one_le_count_iff.2 (List.mem_of_getLast? h)
      have hcount := hmem _ (getLast?_lineStop hended)
      have hcount' := hmem _ hlast
      refine ⟨⟨hstop _ fun _ => hended, ?_, ?_⟩, hgaps⟩
      · rw [List.getLast?_append, hlast]
        rfl
      · rw [List.count_append]
        omega

theorem gaps_slicesOf (fence : Option Fence) {lines : List (List Char)}
    (h : lines.IsChain fun line _ => line.getLast? = some '\n') :
    Gaps (slicesOf fence lines).2 ∧
      ((slicesOf fence lines).2 ≠ [] → (slicesOf fence lines).1 ≠ [] →
        (slicesOf fence lines).1.getLast? = some '\n') := by
  induction lines generalizing fence with
  | nil => exact ⟨trivial, fun h => absurd rfl h⟩
  | cons line lines ih =>
    -- a line that anything follows ends in a line feed
    have hmore : ∀ fence, (slicesOf fence lines).2 ≠ [] ∨ (slicesOf fence lines).1 ≠ [] →
        line.getLast? = some '\n' := by
      intro fence hne
      cases lines with
      | nil => simp [slicesOf] at hne
      | cons next lines => exact (List.isChain_cons_cons.1 h).1
    by_cases hblank : fence.isNone ∧ Text.isAllBlank (content line)
    · obtain ⟨hgaps, hlead⟩ := ih none h.tail
      rw [slicesOf_of_blank hblank]
      refine ⟨hgaps, fun hne _ => ?_⟩
      dsimp only at hne ⊢
      rw [List.getLast?_append]
      by_cases hnil : (slicesOf none lines).1 = []
      · rw [hnil]
        exact hmore none (.inl hne)
      · rw [hlead hne hnil]
        rfl
    · obtain ⟨hgaps, hlead⟩ := ih (Fence.next fence (content line)) h.tail
      rw [slicesOf_of_not_blank hblank]
      exact ⟨gaps_attach hgaps (hmore _) hlead, fun _ hne => absurd rfl hne⟩

theorem gaps_slices (source : List Char) :
    Gaps (slices source).2 ∧
      ((slices source).2 ≠ [] → (slices source).1 ≠ [] → (slices source).1.getLast? = some '\n') :=
  gaps_slicesOf none (isChain_splitLines source)

/-- The body as the assembly puts it together from its chunks. -/
def rejoin (source : List Char) : List Char :=
  ['\n', '\n'].intercalate ((split source 0).map (·.text))

/-! ## Seams -/

/-- The gap behind a slice may have any number of lines: the slice ends in the middle of a line, with
more than marks of quotes there, and nothing is open then that blank lines could go into; the gap is
made of spaces, tabs and line ends. `front` is the text in front of the slice. -/
structure Seals (front : List Char) (s : Slice) : Prop where
  endsInLine : Markdown.EndsInLine s.text
  bare : Markdown.Bare s.text
  plain : Markdown.isPlain s.gap = true
  closed : Markdown.Closed (front ++ s.text)

instance (front : List Char) (s : Slice) : Decidable (Seals front s) :=
  decidable_of_iff (Markdown.EndsInLine s.text ∧ Markdown.Bare s.text ∧
      Markdown.isPlain s.gap = true ∧ Markdown.Closed (front ++ s.text))
    ⟨fun ⟨h₁, h₂, h₃, h₄⟩ => ⟨h₁, h₂, h₃, h₄⟩, fun h => ⟨h.1, h.2, h.3, h.4⟩⟩

/-- Behind each slice there is one empty line, or any gap will do; behind the last one, any gap. -/
def Sealed : (front : List Char) → List Slice → Prop
  | _, [] => True
  | front, [s] => Seals front s
  | front, s :: rest =>
    (s.gap = ['\n', '\n'] ∨ Seals front s) ∧ Sealed (front ++ s.text ++ s.gap) rest

instance instDecidableSealed : (front : List Char) → (slices : List Slice) →
    Decidable (Sealed front slices)
  | _, [] => inferInstanceAs (Decidable True)
  | front, [s] => inferInstanceAs (Decidable (Seals front s))
  | front, s :: next :: rest =>
    have := instDecidableSealed (front ++ s.text ++ s.gap) (next :: rest)
    inferInstanceAs (Decidable ((s.gap = ['\n', '\n'] ∨ Seals front s) ∧
      Sealed (front ++ s.text ++ s.gap) (next :: rest)))

/-- Texts joined as the assembly joins chunks. -/
def joined (slices : List Slice) : List Char := ['\n', '\n'].intercalate (slices.map (·.text))

theorem joined_cons_cons (s next : Slice) (slices : List Slice) :
    joined (s :: next :: slices) = s.text ++ ['\n', '\n'] ++ joined (next :: slices) := by
  simp [joined, List.intercalate]

theorem rejoin_eq (source : List Char) : rejoin source = joined (slices source).2 := by
  rw [rejoin, map_text_split, joined]

open Markdown in
/-- Slices and their texts joined are read alike. In front of both stand texts behind which the same
is read, and a run `u` of slices that is the same in both. -/
theorem readEvents_flatten {before before' u : List Char} {o : Outline}
    (hreads : Outline.Reads before o) (hreads' : Outline.Reads before' o)
    (halt : Alternating o.shape) (hu : ∀ c ∈ u.getLast?, c = '\n') {slices : List Slice}
    (hne : slices ≠ []) (hgaps : Gaps slices) (hsealed : Sealed (before ++ u) slices) :
    readEvents (before ++ u ++ Slice.flatten slices) =
      readEvents (before' ++ u ++ joined slices) := by
  induction slices generalizing before before' u o with
  | nil => exact absurd rfl hne
  | cons s slices ih =>
    -- the run of slices up to this one, if it is sealed
    have hrun (hseals : Seals (before ++ u) s) :
        u ++ s.text ≠ [] ∧ ∃ e, Outline.ReadsTo (u ++ s.text) o e ∧ Alternating e.shape := by
      have hx := hseals.endsInLine.append u hseals.bare.ne_nil
      have hbare := hseals.bare.append hu
      exact ⟨hbare.ne_nil, hreads.exists_readsTo halt hx hbare
        (by rw [← List.append_assoc]; exact hseals.closed)⟩
    cases slices with
    | nil =>
      obtain ⟨hx, e, hto, -⟩ := hrun hsealed
      obtain ⟨b, hend⟩ := hreads.chomp_closeAll_ofText hx hto hsealed.plain hgaps
      obtain ⟨b', hend'⟩ := hreads'.chomp_closeAll_ofText hx hto (g := []) rfl nofun
      have hflatten : before ++ u ++ Slice.flatten [s] = before ++ (u ++ s.text) ++ s.gap := by
        simp [Slice.flatten]
      have hjoined : before' ++ u ++ joined [s] = before' ++ (u ++ s.text) ++ [] := by
        simp [joined, List.intercalate]
      rw [hflatten, hjoined]
      exact Outline.readEvents_eq_of_chomp_eq hend hend'
    | cons next slices =>
      have hmore : next :: slices ≠ [] := List.cons_ne_nil _ _
      have hflatten : Slice.flatten (s :: next :: slices) =
          s.text ++ s.gap ++ Slice.flatten (next :: slices) := rfl
      rw [hflatten, joined_cons_cons]
      rcases hsealed.1 with hgap | hseals
      · -- the slices go on as a run
        have hgo := ih (u := u ++ s.text ++ ['\n', '\n']) hreads hreads' halt (by simp) hmore hgaps.2
          (by simpa only [List.append_assoc, hgap] using hsealed.2)
        simpa only [List.append_assoc, hgap] using hgo
      · obtain ⟨-, e, hto, halt'⟩ := hrun hseals
        have hgo := ih (u := []) (hreads.gap hto hgaps.1 hseals.plain)
          (hreads'.gap hto isGap_emptyLine rfl) (Outline.keeps_takeBlank halt').alternating (by simp)
          hmore hgaps.2
          (by simpa only [List.append_assoc, List.append_nil] using hsealed.2)
        simpa only [List.append_assoc, List.nil_append] using hgo

end Chunk

/-! ## One run -/

/-- Outside statements, chunks that open nothing wait to be read at once. -/
theorem Assembly.feedAll_of_forall_none (reader : Reader) {chunks : List Chunk}
    (hopen : ∀ c ∈ chunks, Opening.read? c.text = none)
    (hblank : ∀ c ∈ chunks, Text.isAllBlank c.text = false) (root : Node)
    (run : List (List Char)) :
    Assembly.feedAll reader ⟨root, [], run⟩ chunks = ⟨root, [], run ++ chunks.map (·.text)⟩ := by
  induction chunks generalizing run with
  | nil => rw [List.map_nil, List.append_nil]; rfl
  | cons c chunks ih =>
    rw [List.forall_mem_cons] at hopen hblank
    have hfeed : (Assembly.feed reader ⟨root, [], run⟩ c).2 = ⟨root, [], run ++ [c.text]⟩ := by
      simp [feed, hopen.1, pushText, hblank.1]
    rw [feedAll_cons, hfeed, ih hopen.2 hblank.2, List.map_cons, List.append_assoc,
      List.singleton_append]

theorem assemble_of_forall_none (reader : Reader) {chunks : List Chunk} (fileId : Nat)
    (hopen : ∀ c ∈ chunks, Opening.read? c.text = none)
    (hblank : ∀ c ∈ chunks, Text.isAllBlank c.text = false) :
    (assemble reader chunks fileId).1 =
      if chunks = [] then Node.ofTag .root
      else reader (['\n', '\n'].intercalate (chunks.map (·.text))) (Node.ofTag .root) := by
  rw [assemble, Assembly.empty, Assembly.feedAll_of_forall_none reader hopen hblank,
    Assembly.finish, Assembly.flush]
  by_cases hne : chunks = [] <;> simp [hne, Assembly.mapContainer, Assembly.closeAll]

theorem readInto_nil (base : Node) : readInto [] base = base := by
  have hevents : Markdown.readEvents [] = [] := rfl
  simp [readInto, hevents, Node.grow, Growth.finish, Growth.flush, Growth.start, Growth.mapTop,
    Growth.closeAll, Node.addText, Segment.scan]

/-- The tree of a source without statements is the reading of its chunks, joined. -/
theorem root_parse_eq_readInto_rejoin {source : List Char} (fileId : Nat)
    (hregion : Abbreviation.Region.find? source = none)
    (hfront : FrontMatter.Cut.ofSource? source = none)
    (hopen : ∀ c ∈ Chunk.split source 0, Opening.read? c.text = none) :
    (Document.parse source fileId).root =
      readInto (Chunk.rejoin source) (Node.ofTag .root) := by
  have hroot : (Document.parse source fileId).root =
      (assemble readInto (Chunk.split source 0) fileId).1 := by
    simp [Document.parse, Document.parseWith, Abbreviation.expand, hregion, FrontMatter.split,
      hfront, FrontMatter.absent]
  rw [hroot, assemble_of_forall_none readInto fileId hopen fun c => Chunk.not_blank_of_mem_split]
  split
  next hne => rw [Chunk.rejoin, hne]; exact (readInto_nil _).symm
  next => rfl

open Markdown in
/-- Chunks joined with one empty line between are read as the body is. -/
theorem Chunk.readEvents_rejoin {source : List Char}
    (hlead : isPlain (Chunk.slices source).1 = true)
    (hsealed : Chunk.Sealed (Chunk.slices source).1 (Chunk.slices source).2) :
    readEvents (Chunk.rejoin source) = readEvents source := by
  obtain ⟨hgaps, hlast⟩ := Chunk.gaps_slices source
  have hsource := Chunk.flatten_slices source
  rw [Chunk.rejoin_eq]
  conv => rhs; rw [← hsource]
  by_cases hne : (Chunk.slices source).2 = []
  · -- nothing but blank lines
    rw [hne, show Chunk.Slice.flatten [] = [] from rfl, List.append_nil,
      Outline.readEvents_of_isPlain hlead]
    rfl
  · have hreads := Outline.reads_of_isPlain hlead (hlast hne)
    have := Chunk.readEvents_flatten (u := []) hreads Outline.reads_nil trivial (by simp) hne hgaps
      (by rwa [List.append_nil])
    simpa only [List.append_nil, List.nil_append] using this.symm

/-- A source without statements is read at once, where its chunks are sealed. -/
theorem root_parse_eq_readInto {source : List Char} (fileId : Nat)
    (hregion : Abbreviation.Region.find? source = none)
    (hfront : FrontMatter.Cut.ofSource? source = none)
    (hopen : ∀ c ∈ Chunk.split source 0, Opening.read? c.text = none)
    (hlead : Markdown.isPlain (Chunk.slices source).1 = true)
    (hsealed : Chunk.Sealed (Chunk.slices source).1 (Chunk.slices source).2) :
    (Document.parse source fileId).root = readInto source (Node.ofTag .root) := by
  rw [root_parse_eq_readInto_rejoin fileId hregion hfront hopen, readInto,
    Chunk.readEvents_rejoin hlead hsealed, readInto]

theorem root_parse_eq_readInto_of_loose_item :
    (Document.parse "- a\n\n\n\n  b\n".toList 0).root =
      readInto "- a\n\n\n\n  b\n".toList (Node.ofTag .root) :=
  root_parse_eq_readInto 0 (by decide) (by decide) (by decide) (by decide) (by decide +kernel)

end Treatise
