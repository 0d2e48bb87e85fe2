import Treatise.Proofs.Marks

/-!
# A label in front of a statement and within a text

The group `{#key}` is read in two places. In front of a statement it is the label of the statement;
within running text it is a mark. The two readers trim the words between the braces in different
ways: behind the `#` only the first one drops blanks.

* `Opening.read?_group_append` — what a group does to the statement that opens behind it;
* `Segment.scan_group_eq_iff` — when a group alone is a mark;
* **`labelsText_and_readers_agree_iff`** — a label of running text is one in front of a statement as
  well, with the same key; the readers agree about a group unless a blank stands behind its `#`.
-/

namespace Treatise

variable {inner key text : List Char}

/-- In front of `text`, the group with the words `inner` is the label of what opens there. -/
def LabelsStatement (text inner key : List Char) : Prop :=
  ∃ o, Opening.read? ('{' :: inner ++ '}' :: text) = some o ∧ o.label = some key

/-- Within running text, the group with the words `inner` is a label and nothing else. -/
def LabelsText (inner key : List Char) : Prop :=
  ∃ words, Segment.scan ('{' :: inner ++ ['}']) = [.mark ⟨.label, key⟩ words]

/-- A blank stands between the `#` of the group and its key. -/
def HasGapBehindHash (inner : List Char) : Prop :=
  ∃ blank rest, Text.trim inner = '#' :: blank :: rest ∧ Text.isBlank blank = true ∧
    isKey (Text.trimStart rest) = true

/-! ## In front of a statement -/

namespace Opening

/-- The reader of labels leaves a text without a label as it is. -/
theorem eq_of_readLabel?_eq_none {s r : List Char} (h : readLabel? s = some (none, r)) : r = s := by
  obtain ⟨t, ht, hs⟩ := exists_of_readLabel? h
  cases ht with
  | absent => exact hs.symm

/-- A group must be a label, and what stands behind it is read without the blanks in front. -/
theorem readLabel?_group (hclosing : '}' ∉ inner) (text : List Char) :
    readLabel? ('{' :: inner ++ '}' :: text) =
      (labelKey? inner).map fun key => (some key, Text.trimStart text) := by
  have hsplit : Text.splitOnce? '}' (inner ++ '}' :: text) = some (inner, text) :=
    Text.splitOnce?_eq_some_iff.2 ⟨rfl, hclosing⟩
  cases hkey : labelKey? inner <;> simp [readLabel?, hsplit, hkey]

/-- A group in front of a statement without a label adds its key, if it has one, and otherwise
nothing opens any more. -/
theorem read?_group_append {o : Opening} (hclosing : '}' ∉ inner) (hopens : read? text = some o)
    (hlabel : o.label = none) :
    read? ('{' :: inner ++ '}' :: text) =
      (labelKey? inner).map fun key => { o with label := some key } := by
  have hstart : Text.trimStart ('{' :: inner ++ '}' :: text) = '{' :: inner ++ '}' :: text :=
    Text.trimStart_eq_self (Text.stops_cons.2 rfl)
  rw [read?, hstart, readLabel?_group hclosing]
  cases labelKey? inner with
  | none => simp
  | some key =>
    rw [read?] at hopens
    simp only [Option.bind_eq_bind, Option.bind_eq_some_iff, Prod.exists] at hopens
    obtain ⟨label, s, hread, hopens⟩ := hopens
    split at hopens
    · cases hopens
    · next hshaped =>
      simp only [Option.bind_eq_some_iff, Prod.exists] at hopens
      obtain ⟨name, s₁, hname, references, s₂, hreferences, rest, hrest, kind, hkind, subject,
        hsubject, heq⟩ := hopens
      cases heq
      obtain rfl : label = none := hlabel
      obtain rfl := eq_of_readLabel?_eq_none hread
      -- behind the label both texts are read in the same way
      simp only [Option.map_some, Option.bind_eq_bind, Option.bind_some, if_neg hshaped, hname,
        hreferences, hrest, hkind, hsubject]
      rfl

end Opening

theorem labelsStatement_iff {o : Opening} (hclosing : '}' ∉ inner)
    (hopens : Opening.read? text = some o) (hlabel : o.label = none) :
    LabelsStatement text inner key ↔
      ∃ blanks, Text.trim inner = '#' :: (blanks ++ key) ∧ Text.isAllBlank blanks = true ∧
        isKey key = true := by
  rw [← Opening.labelKey?_eq_some_iff, LabelsStatement,
    Opening.read?_group_append hclosing hopens hlabel]
  constructor
  · rintro ⟨o', hmap, hkey⟩
    obtain ⟨key', hread, rfl⟩ := Option.map_eq_some_iff.1 hmap
    cases hkey
    exact hread
  · intro hread
    exact ⟨{ o with label := some key }, by rw [hread]; rfl, rfl⟩

/-! ## Within running text -/

/-- A group is cut as one mark if its words are those of the mark. -/
theorem Segment.scan_group_eq_iff {m : Mark} {words : List Char} (hclosing : '}' ∉ inner) :
    scan ('{' :: inner ++ ['}']) = [.mark m words] ↔
      words = inner ∧ Mark.IsWritten (Text.trim inner) m := by
  constructor
  · intro h
    have hscanned := scanned_scan ('{' :: inner ++ ['}'])
    rw [h] at hscanned
    have hjoined : '{' :: words ++ ['}'] = '{' :: inner ++ ['}'] := by
      simpa [source] using hscanned.joined
    obtain rfl : words = inner := by simpa using hjoined
    exact ⟨rfl, (hscanned.marks m words List.mem_cons_self).2⟩
  · rintro ⟨rfl, hwritten⟩
    show scan ('{' :: (words ++ '}' :: [])) = _
    rw [scan_mark ⟨rfl, hclosing, hwritten⟩, scan]

theorem Mark.isWritten_label_iff {words : List Char} :
    IsWritten words ⟨.label, key⟩ ↔ words = '#' :: key ∧ isKey key = true := by
  constructor
  · intro h
    cases h with
    | label hkey => exact ⟨rfl, hkey⟩
  · rintro ⟨rfl, hkey⟩
    exact .label hkey

theorem labelsText_iff (hclosing : '}' ∉ inner) :
    LabelsText inner key ↔ Text.trim inner = '#' :: key ∧ isKey key = true := by
  simp only [LabelsText, Segment.scan_group_eq_iff hclosing, Mark.isWritten_label_iff,
    exists_eq_left]

/-! ## The readers compared -/

/-- The gap is what one reader drops and the other one refuses. -/
theorem hasGapBehindHash_iff : HasGapBehindHash inner ↔
    ∃ blanks key, blanks ≠ [] ∧ Text.trim inner = '#' :: (blanks ++ key) ∧
      Text.isAllBlank blanks = true ∧ isKey key = true := by
  constructor
  · rintro ⟨blank, rest, htrim, hblank, hkey⟩
    obtain ⟨gap, hgap, hrest⟩ := Text.exists_eq_trimStart rest
    refine ⟨blank :: gap, Text.trimStart rest, List.cons_ne_nil _ _, ?_, ?_, hkey⟩
    · rw [htrim, List.cons_append, ← hrest]
    · exact Text.isAllBlank_iff.2 (List.forall_mem_cons.2 ⟨hblank, Text.isAllBlank_iff.1 hgap⟩)
  · rintro ⟨blanks, key, hne, htrim, hblanks, hkey⟩
    obtain ⟨blank, gap, rfl⟩ := List.exists_cons_of_ne_nil hne
    obtain ⟨hblank, hgap⟩ := List.forall_mem_cons.1 (Text.isAllBlank_iff.1 hblanks)
    refine ⟨blank, gap ++ key, htrim, hblank, ?_⟩
    rwa [Text.trimStart_append_of_stops (Text.isAllBlank_iff.2 hgap) (stops_of_isKey hkey)]

/-- Let a statement without a label open behind the group. If the group is a label of running text,
it labels the statement with the same key. The two readers agree about the group if and only if no
blank stands between its `#` and a key: such a group labels a statement and is no label in a text.
-/
theorem labelsText_and_readers_agree_iff {o : Opening} (hclosing : '}' ∉ inner)
    (hopens : Opening.read? text = some o) (hlabel : o.label = none) :
    (∀ key, LabelsText inner key → LabelsStatement text inner key) ∧
      ((∀ key, LabelsStatement text inner key ↔ LabelsText inner key) ↔
        ¬HasGapBehindHash inner) := by
  simp only [labelsStatement_iff hclosing hopens hlabel, labelsText_iff hclosing]
  have hsame (key : List Char) (h : Text.trim inner = '#' :: key ∧ isKey key = true) :
      ∃ blanks, Text.trim inner = '#' :: (blanks ++ key) ∧ Text.isAllBlank blanks = true ∧
        isKey key = true := ⟨[], h.1, rfl, h.2⟩
  refine ⟨hsame, fun hagree hgap => ?_, fun hgap key => ⟨?_, hsame key⟩⟩
  · obtain ⟨blanks, key, hne, htrim, hblanks, hkey⟩ := hasGapBehindHash_iff.1 hgap
    obtain ⟨htext, -⟩ := (hagree key).1 ⟨blanks, htrim, hblanks, hkey⟩
    -- both readers have found this key, so that nothing stands in front of it
    have hlength : (blanks ++ key).length = key.length := by
      rw [(List.cons.inj (htrim.symm.trans htext)).2]
    apply hne
    apply List.length_eq_zero_iff.1
    rw [List.length_append] at hlength
    omega
  · rintro ⟨blanks, htrim, hblanks, hkey⟩
    obtain rfl : blanks = [] := by
      by_contra hne
      exact hgap (hasGapBehindHash_iff.2 ⟨blanks, key, hne, htrim, hblanks, hkey⟩)
    exact ⟨htrim, hkey⟩

/-- The group `{# a}` labels a theorem, but it is no label in the text of the theorem. -/
theorem readers_disagree_behind_hash :
    ¬∀ key, LabelsStatement " Theorem: x".toList "# a".toList key ↔
      LabelsText "# a".toList key := by
  rw [(labelsText_and_readers_agree_iff (o := ⟨none, .thm, false, none, none, none, ['x']⟩)
    (by decide) (by decide +kernel) rfl).2, not_not]
  exact ⟨' ', ['a'], by decide +kernel, by decide +kernel, by decide +kernel⟩

end Treatise
