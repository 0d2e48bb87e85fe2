import Treatise.Document
import Treatise.Proofs.Chunk.Places
import Treatise.Proofs.OpenStatements
import Treatise.Proofs.Trimming

/-!
# Issues of a document

What the issues of a document are about. The statements that are never closed are known from the
chunks of the body; their spans count bytes of the expanded source, which front matter may precede.

* **`Span.IsRangeOf`** — a span that can be cut out of a source;
* `FrontMatter.exists_lead_of_split` — the body follows the byte at which it is said to start;
* `Chunk.isRangeOf_of_mem_split` — from the start of a chunk to the end of the last is such a span;
* **`Document.Reports`**, **`Document.reports_parse`** — what a document reports.
-/

namespace Treatise

/-- The span is the range of a part of the source: not empty, and made of whole characters. -/
def Span.IsRangeOf (span : Span) (source : List Char) : Prop :=
  ∃ before inside after, inside ≠ [] ∧ source = before ++ inside ++ after ∧
    span = ⟨Text.byteLength before, Text.byteLength (before ++ inside)⟩

/-! ## Front matter -/

namespace FrontMatter

variable {source : List Char}

theorem Cut.eq_of_ofSource? {cut : Cut} (h : Cut.ofSource? source = some cut) :
    isDelimiter cut.first = true ∧
      source = cut.first ++ cut.table ++ cut.last ++ cut.body := by
  unfold Cut.ofSource? at h
  split at h
  · cases h
  · rename_i first rest hlines
    split at h
    · rename_i hfirst
      rw [List.span_eq_takeWhile_dropWhile] at h
      have hrest := List.takeWhile_append_dropWhile (p := (!isDelimiter ·)) (l := rest)
      generalize List.takeWhile (!isDelimiter ·) rest = table at h hrest
      dsimp only at h
      split at h
      · cases h
      · rename_i last body hbody
        cases h
        rw [hbody] at hrest
        refine ⟨hfirst.1, ?_⟩
        rw [← Text.flatten_splitLines source, hlines, ← hrest]
        simp
    · cases h

/-- The body follows the byte at which it is said to start. -/
theorem exists_lead_of_split (read : TableReader) (source : List Char) :
    ∃ lead, source = lead ++ (split read source).body ∧
      Text.byteLength lead = (split read source).bodyStart := by
  unfold split
  split
  · exact ⟨[], rfl, rfl⟩
  · rename_i cut hcut
    split
    · refine ⟨cut.first ++ cut.table ++ cut.last, (Cut.eq_of_ofSource? hcut).2, ?_⟩
      simp [Cut.bodyStart, Nat.add_assoc]
    · exact ⟨[], rfl, rfl⟩

/-- What is wrong with front matter is that its table is refused. -/
theorem exists_of_error {read : TableReader} {kind : IssueKind}
    (h : (split read source).error = some kind) : ∃ reason, kind = .malformedFrontMatter reason := by
  unfold split at h
  split at h
  · cases h
  · split at h
    · cases h
    · exact ⟨_, (Option.some.inj h).symm⟩

/-- Front matter that is refused begins with a delimiter. -/
theorem isRangeOf_of_error {read : TableReader} {kind : IssueKind}
    (h : (split read source).error = some kind) : Span.IsRangeOf ⟨0, 3⟩ source := by
  unfold split at h
  split at h
  · cases h
  · rename_i cut hcut
    obtain ⟨hfirst, hsource⟩ := Cut.eq_of_ofSource? hcut
    obtain ⟨stop, -, hstop⟩ := Text.exists_eq_trimEnd cut.first
    rw [beq_iff_eq.1 hfirst] at hstop
    refine ⟨[], ['-', '-', '-'], stop ++ cut.table ++ cut.last ++ cut.body, by simp, ?_, rfl⟩
    rw [hsource, hstop]
    simp

end FrontMatter

/-! ## Chunks -/

/-- Of two parts at the start of a source, the shorter one is at the start of the longer one. -/
theorem Text.exists_append_of_byteLength_lt {front front' back back' : List Char}
    (h : front ++ back = front' ++ back') (hlt : byteLength front < byteLength front') :
    ∃ inside, inside ≠ [] ∧ front' = front ++ inside := by
  rcases List.append_eq_append_iff.1 h with ⟨inside, rfl, -⟩ | ⟨inside, rfl, -⟩
  · refine ⟨inside, ?_, rfl⟩
    rintro rfl
    rw [List.append_nil] at hlt
    exact Nat.lt_irrefl _ hlt
  · rw [byteLength_append] at hlt
    omega

namespace Chunk

variable {body : List Char} {base : Nat} {c : Chunk}

theorem start_lt_stop_of_mem_split (hc : c ∈ split body base) : c.start < c.stop := by
  refine Nat.lt_add_of_pos_right (byteLength_pos ?_)
  intro hnil
  have hinked := not_blank_of_mem_split hc
  rw [hnil] at hinked
  cases hinked

/-- The last chunk is that chunk or stands behind it. -/
theorem start_lt_stop_getLast (hc : c ∈ split body base) (hne : split body base ≠ []) :
    c.start < ((split body base).getLast hne).stop := by
  have hordered : (split body base).Pairwise fun c d => c.stop < d.start := by
    rw [split_eq_place]
    exact pairwise_place (isChain_slicesOf none _)
  have hstop := start_lt_stop_of_mem_split hc
  have hlast := start_lt_stop_of_mem_split (List.getLast_mem hne)
  rw [← List.dropLast_append_getLast hne, List.mem_append, List.mem_singleton] at hc
  rw [← List.dropLast_append_getLast hne, List.pairwise_append] at hordered
  rcases hc with hc | hc
  · have hbefore := hordered.2.2 c hc _ (List.mem_singleton_self _)
    omega
  · rwa [← hc]

/-- From the start of a chunk to the end of the last one is a part of what the body stands in. -/
theorem isRangeOf_of_mem_split {source lead : List Char} (hsource : source = lead ++ body)
    (hbase : Text.byteLength lead = base) (hc : c ∈ split body base) :
    Span.IsRangeOf ⟨c.start, stopOfAll (split body base)⟩ source := by
  have hne : split body base ≠ [] := List.ne_nil_of_mem hc
  have hstop : stopOfAll (split body base) = ((split body base).getLast hne).stop := by
    rw [stopOfAll, List.getLast?_eq_some_getLast hne]
    rfl
  have hlt := start_lt_stop_getLast hc hne
  obtain ⟨before, after, hbody, hstart, -, -⟩ := exists_slice_of_mem_split hc
  obtain ⟨before', after', hbody', -, hend, -⟩ :=
    exists_slice_of_mem_split (List.getLast_mem hne)
  generalize (split body base).getLast hne = last at hstop hlt hbody' hend
  -- both ends cut the body, the start of the chunk in front of the end of the last
  have hcut : before ++ (c.text ++ after) = before' ++ last.text ++ after' := by
    rw [← List.append_assoc, ← hbody, hbody']
  obtain ⟨inside, hinside, hbetween⟩ := Text.exists_append_of_byteLength_lt hcut (by omega)
  refine ⟨lead ++ before, inside, after', hinside, ?_, ?_⟩
  · rw [hsource, hbody', hbetween]
    simp
  · rw [hstop, hstart, hend, hbetween, ← hbase]
    simp

end Chunk

/-! ## Documents -/

/-- The issue is about a statement that was still open at the end. -/
def IssueKind.isUnterminated : IssueKind → Bool
  | unterminatedBlock _ => true
  | _ => false

namespace Document

/-- The chunks of the body. -/
def chunks (d : Document) : List Chunk :=
  let front := FrontMatter.split Toml.parse? d.source
  Chunk.split front.body front.bodyStart

/-- What a document reports. -/
structure Reports (d : Document) : Prop where
  /-- The statements left open are reported, the innermost first, from the chunk that opens each to
  the end of the last chunk. -/
  unterminated : d.issues.filter (·.kind.isUnterminated) =
    (Chunk.leftOpen d.chunks).reverse.map fun p =>
      Assembly.warning d.fileId (Chunk.stopOfAll d.chunks) (p.2.kind, p.1.start)
  /-- Each is what its chunk opens. -/
  opened : ∀ p ∈ Chunk.leftOpen d.chunks,
    p.1 ∈ d.chunks ∧ Opening.read? p.1.text = some p.2
  /-- There are as many as chunks that open a statement, less those that close one. -/
  count : (d.issues.filter (·.kind.isUnterminated)).length + (Chunk.closing [] d.chunks).length =
    d.chunks.countP Chunk.opens
  /-- The span of an issue can be cut out of the source. -/
  spans : ∀ i ∈ d.issues, ∀ span ∈ i.span, span.IsRangeOf d.source

/-- Expansion warns about definitions, which have no place. -/
theorem span_of_mem_expand (source : List Char) (fileId : Nat) :
    ∀ i ∈ (Abbreviation.expand source fileId).issues,
      i.kind.isUnterminated = false ∧ i.span = none := by
  intro i hi
  unfold Abbreviation.expand at hi
  split at hi
  · cases hi
  · simp only [List.mem_filterMap, Abbreviation.Definition.issue?, Option.map_eq_some_iff] at hi
    obtain ⟨d, -, fault, -, rfl⟩ := hi
    exact ⟨rfl, rfl⟩

theorem isRangeOf_of_mem_frontMatter (read : TableReader) (source : List Char) (fileId : Nat) :
    ∀ i ∈ (FrontMatter.split read source).issues fileId,
      i.kind.isUnterminated = false ∧ ∀ span ∈ i.span, span.IsRangeOf source := by
  intro i hi
  obtain ⟨kind, hkind, rfl⟩ := List.mem_map.1 hi
  have herror := Option.mem_toList.1 hkind
  obtain ⟨reason, rfl⟩ := FrontMatter.exists_of_error herror
  refine ⟨rfl, ?_⟩
  rintro span ⟨⟩
  exact FrontMatter.isRangeOf_of_error herror

theorem issues_parse (source : List Char) (fileId : Nat) :
    (parse source fileId).issues =
      (Abbreviation.expand source fileId).issues ++
        (FrontMatter.split Toml.parse? (parse source fileId).source).issues fileId ++
          (assemble readInto (parse source fileId).chunks fileId).2 := rfl

/-- The span of an issue can be cut out of the source: it is that of front matter or of a statement
that was left open. -/
theorem isRangeOf_of_mem_issues (source : List Char) (fileId : Nat) :
    ∀ i ∈ (parse source fileId).issues, ∀ span ∈ i.span,
      span.IsRangeOf (parse source fileId).source := by
  intro i hi span hspan
  rw [issues_parse, snd_assemble, List.mem_append, List.mem_append] at hi
  rcases hi with (hi | hi) | hi
  · rw [(span_of_mem_expand source fileId i hi).2] at hspan
    cases hspan
  · exact (isRangeOf_of_mem_frontMatter Toml.parse? _ fileId i hi).2 span hspan
  · obtain ⟨p, hp, rfl⟩ := List.mem_map.1 hi
    cases hspan
    obtain ⟨lead, hsource, hbase⟩ :=
      FrontMatter.exists_lead_of_split Toml.parse? (parse source fileId).source
    exact Chunk.isRangeOf_of_mem_split hsource hbase
      (Chunk.read?_of_mem_leftOpen (List.mem_reverse.1 hp)).1

/-- A document reports the statements left open, and every place that it names can be cut out of its
source. -/
theorem reports_parse (source : List Char) (fileId : Nat) :
    Reports (Document.parse source fileId) := by
  have hissues := issues_parse source fileId
  have hexpanded := span_of_mem_expand source fileId
  have hfront := isRangeOf_of_mem_frontMatter Toml.parse? (parse source fileId).source fileId
  rw [snd_assemble] at hissues
  have hunterminated : (parse source fileId).issues.filter (·.kind.isUnterminated) =
      (Chunk.leftOpen (parse source fileId).chunks).reverse.map fun p =>
        Assembly.warning fileId (Chunk.stopOfAll (parse source fileId).chunks)
          (p.2.kind, p.1.start) := by
    rw [hissues, List.filter_append, List.filter_append,
      List.filter_eq_nil_iff.2 fun i hi => by simp [(hexpanded i hi).1],
      List.filter_eq_nil_iff.2 fun i hi => by simp [(hfront i hi).1], List.filter_eq_self.2]
    · rfl
    · intro i hi
      obtain ⟨p, -, rfl⟩ := List.mem_map.1 hi
      rfl
  refine ⟨hunterminated, fun p hp => Chunk.read?_of_mem_leftOpen hp, ?_,
    isRangeOf_of_mem_issues source fileId⟩
  rw [hunterminated, List.length_map, List.length_reverse]
  exact Chunk.length_leftOpen_add_length_closing _

end Document

end Treatise
