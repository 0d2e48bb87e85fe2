import Treatise.Proofs.Markdown.BlankLines
import Treatise.Proofs.Markdown.RunningText

/-!
# Seams

Where a text ends before the end of a line and no code and no HTML is open, the number of blank lines
behind it does not matter: whatever follows is read alike.

* `Closed` — nothing that holds literal text is open at the end of a text;
* `Outline.Reads` — what follows a text is read from the given outline on;
* `Outline.Reads.exists_readsTo` — a text that is closed is read to its end;
* **`Outline.Reads.gap`** — behind the text and a gap of any length, the same is read;
* `Outline.Reads.chomp_closeAll_ofText` — a gap at the end of a document does nothing.
-/

namespace Treatise.Markdown

/-- An empty line behind the text goes into no code and into no HTML. -/
def Closed (s : List Char) : Prop :=
  literalsOfBlocks (readBlocks (s ++ ['\n', '\n'])).1 = literalsOfBlocks (readBlocks s).1

instance (s : List Char) : Decidable (Closed s) :=
  inferInstanceAs (Decidable (literalsOfBlocks (readBlocks (s ++ ['\n', '\n'])).1 =
    literalsOfBlocks (readBlocks s).1))

/-- The end of a line, and more lines behind it. -/
structure IsGap (g : List Char) : Prop where
  stop : ∀ c ∈ g.head?, isLineEnd c = true
  last : g.getLast? = some '\n'
  count : 2 ≤ g.count '\n'

/-- Plain text behind a line is the end of the line, and blank lines. -/
theorem exists_stop_of_isPlain {g : List Char} (hg : isPlain g = true)
    (hstop : ∀ c ∈ g.head?, isLineEnd c = true) :
    ∃ stop rest, g = stop ++ rest ∧ LineStop stop ∧ isPlain rest = true ∧ (stop = [] → rest = []) ∧
      stop.count '\n' ≤ 1 := by
  fun_cases isPlain g with
  | case1 => exact ⟨[], [], rfl, ⟨.inl rfl⟩, rfl, fun _ => rfl, Nat.zero_le 1⟩
  | case2 s => exact ⟨['\r', '\n'], s, rfl, ⟨.inr (.inr rfl)⟩, hg, nofun, by decide⟩
  | case3 c s h =>
    rw [isPlain, Bool.and_eq_true] at hg
    · obtain ⟨hc, hs⟩ := hg
      obtain rfl : c = '\n' := by
        rcases isLineEnd_iff.1 (hstop c rfl) with rfl | rfl
        · rfl
        · simp at hc
      exact ⟨['\n'], s, rfl, ⟨.inr (.inl rfl)⟩, hs, nofun, by decide⟩
    · exact h

theorem blank_of_isPlain {g : List Char} (hg : isPlain g = true) : Blank g := by
  by_cases hne : g = []
  · rw [hne]
    exact .nil
  · obtain ⟨rest, -, -, -, hline⟩ := exists_skipBlankLine hg hne
    have := (hline [] (.inr rfl)).1
    rwa [List.append_nil] at this

theorem IsGap.exists_stop {g : List Char} (hg : IsGap g) (hplain : isPlain g = true) :
    ∃ stop rest, g = stop ++ rest ∧ isPlain rest = true ∧ rest.getLast? = some '\n' ∧
      ∀ w, (Tail.mk stop (rest ++ w)).Valid := by
  obtain ⟨stop, rest, rfl, hstop, hrest, hnil, hcount⟩ := exists_stop_of_isPlain hplain hg.stop
  have hmore : rest ≠ [] := by
    rintro rfl
    have := hg.count
    rw [List.append_nil] at this
    omega
  have hlast : rest.getLast? = some '\n' := by
    have := hg.last
    obtain ⟨c, rest, rfl⟩ := List.exists_cons_of_ne_nil hmore
    simpa [List.getLast?_append] using this
  refine ⟨stop, rest, rfl, hrest, hlast, fun w => ⟨hstop.eq, fun h => absurd (hnil h) hmore, ?_⟩⟩
  obtain ⟨_, -, -, -, hline⟩ := exists_skipBlankLine hrest hmore
  exact (hline w (.inl hlast)).1

theorem isGap_emptyLine : IsGap ['\n', '\n'] := ⟨by simp [isLineEnd], rfl, by decide⟩

namespace Outline

/-- Whatever follows the text is read from the given outline on, but for the line ends that passages
end in. -/
def Reads (before : List Char) (o : Outline) : Prop :=
  ∀ (w : List Char) (bound : Nat), w ≠ [] → (before ++ w).length < bound →
    ∃ bound' o', w.length < bound' ∧ o'.chomp = o.chomp ∧
      readAll bound .empty (before ++ w) = readAll bound' o' w

theorem reads_nil : Reads [] .empty := fun _ bound _ hb => ⟨bound, .empty, hb, rfl, rfl⟩

/-- Blank lines at the start of a document do nothing. -/
theorem reads_of_isPlain {g : List Char} (hg : isPlain g = true)
    (hlast : g ≠ [] → g.getLast? = some '\n') : Reads g .empty := by
  intro w bound hw hb
  by_cases hne : g = []
  · subst hne
    exact reads_nil w bound hw hb
  obtain ⟨bound', hb', hread⟩ := readAll_blankLines hg (hlast hne) w hb .empty
  obtain ⟨n, rfl⟩ : ∃ n, bound' = n + 1 := ⟨bound' - 1, by omega⟩
  refine ⟨n + 1, .empty, hb', rfl, ?_⟩
  rw [hread, readAll_succ _ _ hw, readAll_succ _ _ hw, take_takeBlank_empty]

/-- The outline behind a whole text. -/
def ofText (s : List Char) : Outline := readAll (s.length + 1) .empty s

theorem readBlocks_eq (s : List Char) :
    readBlocks s = ((ofText s).closeAll.blocks, (ofText s).closeAll.definitions) := by
  rw [readBlocks, takeAll_eq _ (Nat.lt_succ_self _)]
  rfl

theorem literals_readBlocks (s : List Char) :
    literalsOfBlocks (readBlocks s).1 = (ofText s).literals := by
  have halt : Alternating (ofText s).shape := (keeps_readAll _ (o := .empty) trivial s).1
  rw [← (keeps_closeMany halt (ofText s).spine.length).literals, readBlocks_eq]
  have hspine : (ofText s).closeAll.spine = [] := spine_closeMany (le_refl _)
  change _ = (ofText s).closeAll.literals
  rw [literals, hspine]
  exact (List.append_nil _).symm

/-- Outlines that differ in the line ends of passages only, and in what comes last, say the same. -/
theorem readEvents_eq_of_chomp_eq {s s' : List Char} {o : Outline} {b b' : Bool}
    (h : (ofText s).closeAll.chomp = { o with afterBlank := b })
    (h' : (ofText s').closeAll.chomp = { o with afterBlank := b' }) :
    readEvents s = readEvents s' := by
  have hblocks : chompBlocks (ofText s).closeAll.blocks = chompBlocks (ofText s').closeAll.blocks :=
    (congrArg Outline.blocks h).trans (congrArg Outline.blocks h').symm
  have hdefinitions : (ofText s).closeAll.definitions = (ofText s').closeAll.definitions :=
    (congrArg Outline.definitions h).trans (congrArg Outline.definitions h').symm
  rw [readEvents, readEvents, readBlocks_eq, readBlocks_eq]
  dsimp only
  rw [hdefinitions, ← blocksEvents_chomp, hblocks, blocksEvents_chomp]

theorem readEvents_of_isPlain {g : List Char} (hg : isPlain g = true) : readEvents g = [] := by
  have hblocks : readBlocks g = ([], []) := by
    rw [readBlocks_eq]
    rcases readAll_plain hg (Nat.lt_succ_self _) .empty with h | h <;> rw [ofText, h] <;> rfl
  rw [readEvents, hblocks]
  rfl

/-! ## Over a seam -/

variable {before : List Char} {o : Outline}

/-- Where an empty line goes into no literal text, the text is read to its end. -/
theorem Reads.exists_readsTo (h : Reads before o) (halt : Alternating o.shape) {x : List Char}
    (hx : EndsInLine x) (hbare : Bare x) (hclosed : Closed (before ++ x)) :
    ∃ e, ReadsTo x o e ∧ Alternating e.shape := by
  have hne := hbare.ne_nil
  obtain ⟨bound, o', hb, ho, hread⟩ := h x _ hne (Nat.lt_succ_self _)
  have halt' : Alternating o'.shape := by rwa [shape_of_chomp_eq ho]
  refine ⟨readAll bound o' x, ?_, (keeps_readAll bound halt' x).1⟩
  rcases readsTo_or_literals_ne hx hbare halt' (List.suffix_refl x) hne hb with hto | hliterals
  · exact fun t n o'' ht hn ho' => hto t n o'' ht hn (ho'.trans ho.symm)
  · obtain ⟨bound', o'', hb', ho', hread'⟩ := h (x ++ ['\n', '\n']) _ (by simp) (Nat.lt_succ_self _)
    have htext : ofText (before ++ x) = readAll bound o' x := hread
    have htext' : ofText (before ++ x ++ ['\n', '\n']) =
        readAll bound' o'' (x ++ Tail.emptyLine.text) := by
      rw [List.append_assoc]
      exact hread'
    rw [Closed, literals_readBlocks, literals_readBlocks, htext, htext'] at hclosed
    exact absurd hclosed (hliterals bound' o'' (by simpa using hb') (ho'.trans ho.symm))

/-- What follows a gap is read from the outline behind a blank line. -/
theorem Reads.gap (h : Reads before o) {x : List Char} {e : Outline} (hto : ReadsTo x o e)
    {g : List Char} (hg : IsGap g) (hplain : isPlain g = true) :
    Reads (before ++ x ++ g) e.takeBlank := by
  intro w bound hw hb
  obtain ⟨stop, rest, rfl, hrest, hlast, hvalid⟩ := hg.exists_stop hplain
  obtain ⟨bound₁, o₁, hb₁, ho₁, hread₁⟩ := h (x ++ (stop ++ rest) ++ w) bound
    (List.append_ne_nil_of_right_ne_nil _ hw) (by simpa only [List.append_assoc] using hb)
  obtain ⟨bound₂, e', hb₂, he, hread₂⟩ := hto ⟨stop, rest ++ w⟩ bound₁ o₁ (hvalid w)
    (by simpa only [Tail.text, List.append_assoc] using hb₁) ho₁
  obtain ⟨bound₃, hb₃, hread₃⟩ := readAll_blankLines hrest hlast w hb₂ e'
  refine ⟨bound₃, e'.takeBlank, hb₃, by rw [chomp_takeBlank, he, ← chomp_takeBlank], ?_⟩
  simp only [Tail.text, List.append_assoc] at hread₁ hread₂ ⊢
  rw [hread₁, hread₂, hread₃]

/-- Plain text at the end of a document does nothing. -/
theorem Reads.chomp_closeAll_ofText (h : Reads before o) {x : List Char} (hx : x ≠ []) {e : Outline}
    (hto : ReadsTo x o e) {g : List Char} (hg : isPlain g = true)
    (hstop : ∀ c ∈ g.head?, isLineEnd c = true) :
    ∃ b, (ofText (before ++ x ++ g)).closeAll.chomp = { e.closeAll.chomp with afterBlank := b } := by
  obtain ⟨stop, rest, rfl, hline, hrest, hnil, -⟩ := exists_stop_of_isPlain hg hstop
  obtain ⟨bound₁, o₁, hb₁, ho₁, hread₁⟩ := h (x ++ (stop ++ rest)) _
    (List.append_ne_nil_of_left_ne_nil hx _) (Nat.lt_succ_self _)
  obtain ⟨bound₂, e', hb₂, he, hread₂⟩ := hto ⟨stop, rest⟩ bound₁ o₁
    ⟨hline.eq, hnil, blank_of_isPlain hrest⟩ hb₁ ho₁
  have hall : ofText (before ++ x ++ (stop ++ rest)) = readAll bound₂ e' rest := by
    rw [ofText, List.append_assoc, hread₁]
    exact hread₂
  rw [hall]
  rcases readAll_plain hrest hb₂ e' with heq | heq
  · exact ⟨e.closeAll.chomp.afterBlank, by rw [heq, chomp_closeAll, he, chomp_closeAll]⟩
  · obtain ⟨b, hb⟩ := closeAll_takeBlank e'
    refine ⟨b, ?_⟩
    rw [heq, hb]
    have hclose : e'.closeAll.chomp = e.closeAll.chomp := by
      rw [chomp_closeAll, he, chomp_closeAll]
    rw [← hclose]
    rfl

end Outline

end Treatise.Markdown
