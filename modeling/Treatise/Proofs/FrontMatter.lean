import Treatise.Proofs.Dictionaries
import Treatise.Proofs.Issues

/-!
# Front matter

Which documents have front matter, and where it ends. Both are said of the lines of the source: the
first is a delimiter, the second is not blank, and the table ends at the next delimiter.

* **`FrontMatter.Delimits`** — the lines of a source with two delimiters.
* `FrontMatter.Delimits.ofSource?`, `FrontMatter.exists_delimits` — just such a source is cut, and
  it is cut at these lines.
* **`FrontMatter.split_follows_delimiters`** — what is split off for every reader of tables, and
  what a document is when its table is refused.
-/

namespace Treatise

namespace FrontMatter

/-! ## Delimiters -/

/-- The lines of a source that has a table between two delimiters: three dashes each, and blanks. -/
structure Delimits (source first : List Char) (table : List (List Char)) (last : List Char)
    (body : List (List Char)) : Prop where
  lines : Text.splitLines source = first :: (table ++ last :: body)
  opens : Text.trimEnd first = "---".toList
  /-- The second line, which may be the closing delimiter, is not blank. -/
  second : ∀ line ∈ (table ++ [last]).head?, Text.isAllBlank line = false
  /-- The first delimiter behind the first line closes the table. -/
  inside : ∀ line ∈ table, Text.trimEnd line ≠ "---".toList
  closes : Text.trimEnd last = "---".toList

variable {source first last : List Char} {table body : List (List Char)} {cut : Cut}

theorem isDelimiter_iff {line : List Char} :
    isDelimiter line = true ↔ Text.trimEnd line = "---".toList := beq_iff_eq

theorem isDelimiter_eq_false_iff {line : List Char} :
    isDelimiter line = false ↔ Text.trimEnd line ≠ "---".toList := beq_eq_false_iff_ne

/-- A list is cut in front of its first element that is none of a kind. -/
theorem span_eq_iff {α : Type} {p : α → Bool} {l front behind : List α} {x : α} :
    l.span p = (front, x :: behind) ↔
      l = front ++ x :: behind ∧ (∀ y ∈ front, p y = true) ∧ p x = false := by
  rw [List.span_eq_takeWhile_dropWhile, Prod.mk.injEq]
  constructor
  · rintro ⟨hfront, hbehind⟩
    refine ⟨?_, ?_, ?_⟩
    · rw [← hfront, ← hbehind, List.takeWhile_append_dropWhile]
    · rw [← hfront]
      exact List.all_eq_true.1 List.all_takeWhile
    · have hnot := List.head?_dropWhile_not p l
      rwa [hbehind] at hnot
  · rintro ⟨rfl, hfront, hx⟩
    have hstop : ¬p x = true := by rw [hx]; exact Bool.false_ne_true
    constructor
    · rw [List.takeWhile_append_of_pos hfront, List.takeWhile_cons_of_neg hstop, List.append_nil]
    · rw [List.dropWhile_append_of_pos hfront, List.dropWhile_cons_of_neg hstop]

/-- The second line of a source is looked at in the same way, whether it is in the table or closes
it. -/
theorem second_iff : ((table ++ last :: body).head?.map (!Text.isAllBlank ·)).getD false = true ↔
    ∀ line ∈ (table ++ [last]).head?, Text.isAllBlank line = false := by
  cases table <;> simp

theorem span_delimiter_iff {rest : List (List Char)} :
    rest.span (!isDelimiter ·) = (table, last :: body) ↔
      rest = table ++ last :: body ∧ (∀ line ∈ table, Text.trimEnd line ≠ "---".toList) ∧
        Text.trimEnd last = "---".toList := by
  simp only [span_eq_iff, Bool.not_eq_true', Bool.not_eq_false', isDelimiter_iff,
    isDelimiter_eq_false_iff]

theorem Delimits.ofSource? (h : Delimits source first table last body) :
    Cut.ofSource? source = some ⟨first, table.flatten, last, body.flatten⟩ := by
  have hspan : (table ++ last :: body).span (!isDelimiter ·) = (table, last :: body) :=
    span_delimiter_iff.2 ⟨rfl, h.inside, h.closes⟩
  unfold Cut.ofSource?
  rw [h.lines]
  dsimp only
  rw [if_pos ⟨isDelimiter_iff.2 h.opens, second_iff.2 h.second⟩, hspan]

theorem exists_delimits (h : Cut.ofSource? source = some cut) :
    ∃ table body, Delimits source cut.first table cut.last body ∧
      cut.table = table.flatten ∧ cut.body = body.flatten := by
  unfold Cut.ofSource? at h
  split at h
  · cases h
  · rename_i first rest hlines
    split at h
    · rename_i hopens
      obtain ⟨hfirst, hsecond⟩ := hopens
      obtain ⟨⟨table, behind⟩, hspan⟩ : ∃ cut, rest.span (!isDelimiter ·) = cut := ⟨_, rfl⟩
      rw [hspan] at h
      cases behind with
      | nil => cases h
      | cons last body =>
        cases h
        obtain ⟨rfl, hinside, hcloses⟩ := span_delimiter_iff.1 hspan
        exact ⟨table, body, ⟨hlines, isDelimiter_iff.1 hfirst, second_iff.1 hsecond, hinside,
          hcloses⟩, rfl, rfl⟩
    · cases h

theorem ofSource?_eq_none_iff :
    Cut.ofSource? source = none ↔
      ∀ first table last body, ¬Delimits source first table last body := by
  constructor
  · intro hnone first table last body h
    cases hnone.symm.trans h.ofSource?
  · intro hnone
    cases hcut : Cut.ofSource? source with
    | none => rfl
    | some cut =>
      obtain ⟨table, body, h, -, -⟩ := exists_delimits hcut
      exact absurd h (hnone _ _ _ _)

/-! ## What is split off -/

variable {readTable : TableReader}

theorem split_of_delimits_of_ok {entries : List (String × Toml.Value)}
    (h : Delimits source first table last body) (hread : readTable table.flatten = .ok entries) :
    split readTable source =
      ⟨Dict.ofList (entries.map fun e => (e.1, flatten e.2)), body.flatten,
        Text.byteLength (first ++ table.flatten ++ last), none⟩ := by
  unfold split
  simp [h.ofSource?, hread, Cut.bodyStart, Nat.add_assoc]

theorem split_of_delimits_of_error {reason : String}
    (h : Delimits source first table last body) (hread : readTable table.flatten = .error reason) :
    split readTable source =
      { absent source with error := some (.malformedFrontMatter reason) } := by
  unfold split
  simp [h.ofSource?, hread]

theorem split_of_forall_not_delimits
    (h : ∀ first table last body, ¬Delimits source first table last body) :
    split readTable source = absent source := by
  unfold split
  rw [ofSource?_eq_none_iff.2 h]

/-- The three cases: a table that is read, a table that is refused, and no table. -/
theorem split_cases (readTable : TableReader) (source : List Char) :
    (∃ first table last body entries, Delimits source first table last body ∧
      readTable table.flatten = .ok entries) ∨
    (∃ first table last body reason, Delimits source first table last body ∧
      readTable table.flatten = .error reason) ∨
    ∀ first table last body, ¬Delimits source first table last body := by
  cases hcut : Cut.ofSource? source with
  | none => exact .inr (.inr (ofSource?_eq_none_iff.1 hcut))
  | some cut =>
    obtain ⟨table, body, h, -, -⟩ := exists_delimits hcut
    cases hread : readTable table.flatten with
    | error reason => exact .inr (.inl ⟨_, _, _, _, reason, h, hread⟩)
    | ok entries => exact .inl ⟨_, _, _, _, entries, h, hread⟩

theorem Delimits.byteLength_pos (h : Delimits source first table last body) :
    0 < Text.byteLength (first ++ table.flatten ++ last) := by
  have hfirst : first ∈ Text.splitLines source := by
    rw [h.lines]
    exact List.mem_cons_self
  have hpos := Chunk.byteLength_pos (Text.ne_nil_of_mem_splitLines hfirst)
  rw [Text.byteLength_append, Text.byteLength_append]
  omega

theorem bodyStart_pos_iff : 0 < (split readTable source).bodyStart ↔
    ∃ first table last body entries, Delimits source first table last body ∧
      readTable table.flatten = .ok entries := by
  constructor
  · intro hpos
    rcases split_cases readTable source with hread | ⟨_, _, _, _, _, h, hread⟩ | hnone
    · exact hread
    · rw [split_of_delimits_of_error h hread] at hpos
      exact absurd hpos (Nat.lt_irrefl 0)
    · rw [split_of_forall_not_delimits hnone] at hpos
      exact absurd hpos (Nat.lt_irrefl 0)
  · rintro ⟨first, table, last, body, entries, h, hread⟩
    rw [split_of_delimits_of_ok h hread]
    exact h.byteLength_pos

/-- The error is that of the reader. -/
theorem error_eq_some_iff {kind : IssueKind} : (split readTable source).error = some kind ↔
    ∃ first table last body reason, Delimits source first table last body ∧
      readTable table.flatten = .error reason ∧ kind = .malformedFrontMatter reason := by
  constructor
  · intro herror
    rcases split_cases readTable source with
      ⟨_, _, _, _, _, h, hread⟩ | ⟨first, table, last, body, reason, h, hread⟩ | hnone
    · rw [split_of_delimits_of_ok h hread] at herror
      cases herror
    · rw [split_of_delimits_of_error h hread] at herror
      exact ⟨first, table, last, body, reason, h, hread, (Option.some.inj herror).symm⟩
    · rw [split_of_forall_not_delimits hnone] at herror
      cases herror
  · rintro ⟨first, table, last, body, reason, h, hread, rfl⟩
    rw [split_of_delimits_of_error h hread]

/-- Where no table is read, nothing is split off. -/
theorem eq_absent_of_bodyStart_eq_zero (hzero : (split readTable source).bodyStart = 0) :
    (split readTable source).values = ∅ ∧ (split readTable source).body = source := by
  rcases split_cases readTable source with
    ⟨_, _, _, _, _, h, hread⟩ | ⟨_, _, _, _, _, h, hread⟩ | hnone
  · have hpos := h.byteLength_pos
    rw [split_of_delimits_of_ok h hread] at hzero
    change Text.byteLength _ = 0 at hzero
    omega
  · rw [split_of_delimits_of_error h hread]
    exact ⟨rfl, rfl⟩
  · rw [split_of_forall_not_delimits hnone]
    exact ⟨rfl, rfl⟩

end FrontMatter

/-! ## Documents -/

/-- The issue is about a table that was refused. -/
def IssueKind.isMalformedFrontMatter : IssueKind → Bool
  | malformedFrontMatter _ => true
  | _ => false

namespace Document

variable (readTable : TableReader) (source : List Char) (fileId : Nat)

/-- Neither the expansion nor the assembly of a document looks at tables. -/
theorem filter_malformed_issues :
    (parseWith readTable source fileId).issues.filter (·.kind.isMalformedFrontMatter) =
      (FrontMatter.split readTable (parseWith readTable source fileId).source).issues fileId := by
  have hissues : (parseWith readTable source fileId).issues =
      (Abbreviation.expand source fileId).issues ++
        (FrontMatter.split readTable (parseWith readTable source fileId).source).issues fileId ++
          (assemble readInto _ fileId).2 := rfl
  have hexpanded : ∀ i ∈ (Abbreviation.expand source fileId).issues,
      ¬i.kind.isMalformedFrontMatter = true := by
    intro i hi
    unfold Abbreviation.expand at hi
    split at hi
    · cases hi
    · simp only [List.mem_filterMap, Abbreviation.Definition.issue?, Option.map_eq_some_iff] at hi
      obtain ⟨_, -, _, -, rfl⟩ := hi
      exact Bool.false_ne_true
  have hassembled (chunks : List Chunk) : ∀ i ∈ (assemble readInto chunks fileId).2,
      ¬i.kind.isMalformedFrontMatter = true := by
    intro i hi
    rw [snd_assemble] at hi
    obtain ⟨_, -, rfl⟩ := List.mem_map.1 hi
    exact Bool.false_ne_true
  rw [hissues, List.filter_append, List.filter_append, List.filter_eq_nil_iff.2 hexpanded,
    List.filter_eq_nil_iff.2 (hassembled _), List.nil_append, List.append_nil,
    List.filter_eq_self.2]
  intro i hi
  obtain ⟨kind, hkind, rfl⟩ := List.mem_map.1 hi
  obtain ⟨reason, rfl⟩ := FrontMatter.exists_of_error (Option.mem_toList.1 hkind)
  rfl

end Document

/-- Front matter is split off just where two delimiters hold a table that the reader takes. The body
starts behind the closing one, and the values have the keys of the table. Otherwise everything is
body; if the reader refused a table between delimiters, the document has one issue with the reason
that it gave, and its tree is that of the whole expanded source. -/
theorem FrontMatter.split_follows_delimiters (readTable : TableReader) (source : List Char)
    (fileId : Nat) :
    let f := split readTable source
    let d := Document.parseWith readTable source fileId
    (0 < f.bodyStart ↔ ∃ first table last body entries, Delimits source first table last body ∧
      readTable table.flatten = .ok entries) ∧
    (∀ first table last body entries, Delimits source first table last body →
      readTable table.flatten = .ok entries →
        f.bodyStart = Text.byteLength (first ++ table.flatten ++ last) ∧ f.body = body.flatten ∧
          ∀ key, key ∈ f.values.keys ↔ key ∈ entries.map (·.1)) ∧
    (f.bodyStart = 0 → f.values = ∅ ∧ f.body = source) ∧
    (∀ kind, f.error = some kind ↔
      ∃ first table last body reason, Delimits source first table last body ∧
        readTable table.flatten = .error reason ∧ kind = .malformedFrontMatter reason) ∧
    d.source = (Abbreviation.expand source fileId).text ∧
    (∀ first table last body reason, Delimits d.source first table last body →
      readTable table.flatten = .error reason →
        d.issues.filter (·.kind.isMalformedFrontMatter) =
            [⟨.malformedFrontMatter reason, some ⟨0, 3⟩, fileId, []⟩] ∧
          d.root = (assemble readInto (Chunk.split d.source 0) fileId).1 ∧ d.values = ∅) ∧
    ((∀ first table last body reason, Delimits d.source first table last body →
        readTable table.flatten ≠ .error reason) →
      d.issues.filter (·.kind.isMalformedFrontMatter) = []) := by
  intro f d
  have hissues : d.issues.filter (·.kind.isMalformedFrontMatter) =
      (split readTable d.source).issues fileId :=
    Document.filter_malformed_issues readTable source fileId
  refine ⟨bodyStart_pos_iff, ?_, eq_absent_of_bodyStart_eq_zero, fun _ => error_eq_some_iff, rfl,
    ?_, ?_⟩
  · intro first table last body entries h hread
    have hsplit := split_of_delimits_of_ok h hread
    refine ⟨congrArg bodyStart hsplit, congrArg FrontMatter.body hsplit, fun key => ?_⟩
    show key ∈ (split readTable source).values.keys ↔ _
    rw [hsplit, Dict.mem_keys_ofList, List.map_map]
    rfl
  · intro first table last body reason h hread
    have hsplit := split_of_delimits_of_error h hread
    -- nothing is cut off, so that the chunks are those of the whole text
    have hroot : d.root = (assemble readInto (Chunk.split (split readTable d.source).body
        (split readTable d.source).bodyStart) fileId).1 := rfl
    have hvalues : d.values = (split readTable d.source).values := rfl
    rw [hissues, hroot, hvalues, hsplit]
    exact ⟨rfl, rfl, rfl⟩
  · intro hread
    have herror : (split readTable d.source).error = none := by
      refine Option.eq_none_iff_forall_ne_some.2 fun kind herror => ?_
      obtain ⟨first, table, last, body, reason, h, hrefused, -⟩ := error_eq_some_iff.1 herror
      exact hread first table last body reason h hrefused
    rw [hissues, issues, herror]
    rfl

/-- A table may be empty, but a blank second line makes the first one a rule. -/
example : (FrontMatter.split Toml.parse? "---\n---\nx".toList).bodyStart = 8 ∧
    (FrontMatter.split Toml.parse? "---\n\n---\nx".toList).bodyStart = 0 := by decide +kernel

end Treatise
