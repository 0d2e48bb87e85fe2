import Mathlib.Data.List.Chain
import Treatise.Mark
import Treatise.Proofs.Openings

/-!
# Marks in running text

Running text is cut into marks and the text between them. Here the cut is described by the segments
alone, without the order in which braces are looked at.

* `Mark.IsWritten` — the words of a mark; `Mark.Begins` — a text that goes on with a mark behind its
  opening brace. This is what `Mark.read?` looks for (`Mark.read?_eq_some_iff_begins`).
* `Segment.Plain` — a stretch of text in which no mark starts, with all that follows it.
* **`Segment.Scanned`** — the segments give the text back, no two texts are adjacent, and no mark
  starts in a text.
* **`Segment.scanned_scan_and_scan_text`** — `Segment.scan` cuts the text like this; it is the only
  such cut, and its texts have no marks when they stand alone either.
-/

namespace Treatise

/-! ## Marks -/

namespace Mark

variable {m : Mark} {inner rest s t words : List Char}

/-- The words between the braces of a mark, without blanks around them. -/
inductive IsWritten : List Char → Mark → Prop where
  | label {key : List Char} (hkey : isKey key = true) : IsWritten ('#' :: key) ⟨.label, key⟩
  | reference {gap key : List Char} (hgap : Text.isAllBlank gap = true) (hkey : isKey key = true) :
      IsWritten ("ref:".toList ++ (gap ++ '#' :: key)) ⟨.reference, key⟩
  | bibEntry {gap key : List Char} (hgap : Text.isAllBlank gap = true) (hkey : isKey key = true) :
      IsWritten ("bibitem:".toList ++ (gap ++ key)) ⟨.bibEntry, key⟩
  | citation {gap key : List Char} (hgap : Text.isAllBlank gap = true) (hkey : isKey key = true) :
      IsWritten ("bib:".toList ++ (gap ++ key)) ⟨.citation, key⟩

theorem IsWritten.isKey_key (h : IsWritten words m) : isKey m.key = true := by
  cases h <;> assumption

/-- The text goes on with the words of the mark and a closing brace, and then with `rest`. The first
closing brace ends the mark. -/
structure Begins (m : Mark) (inner rest s : List Char) : Prop where
  eq : s = inner ++ '}' :: rest
  first : '}' ∉ inner
  written : IsWritten (Text.trim inner) m

theorem Begins.append (h : m.Begins inner rest s) (t : List Char) :
    m.Begins inner (rest ++ t) (s ++ t) where
  eq := by simp [h.eq]
  first := h.first
  written := h.written

theorem exists_gap {key : List Char} (h : Text.trimStart rest = key) :
    ∃ gap, Text.isAllBlank gap = true ∧ rest = gap ++ key := by
  rw [← h]
  exact Text.exists_eq_trimStart rest

theorem isWritten_of_kind {kind : MarkKind} {key : List Char}
    (h : MarkKind.ofInner? words = some (kind, key)) (hkey : isKey key = true) :
    IsWritten words ⟨kind, key⟩ := by
  -- the first words decide the kind, and what is behind them is the key
  rw [MarkKind.ofInner?] at h
  split at h
  · next key' hlabel =>
    cases h
    rw [Text.after?_eq_some_iff.1 hlabel]
    exact .label hkey
  split at h
  · next rest hreference =>
    obtain ⟨key', hmark, heq⟩ := Option.map_eq_some_iff.1 h
    cases heq
    obtain ⟨gap, hgap, rfl⟩ := exists_gap (Text.after?_eq_some_iff.1 hmark)
    rw [Text.after?_eq_some_iff.1 hreference]
    exact .reference hgap hkey
  split at h
  · next rest hentry =>
    obtain ⟨rfl, hstart⟩ := Prod.mk.inj (Option.some.inj h)
    obtain ⟨gap, hgap, rfl⟩ := exists_gap hstart
    rw [Text.after?_eq_some_iff.1 hentry]
    exact .bibEntry hgap hkey
  split at h
  · next rest hcitation =>
    obtain ⟨rfl, hstart⟩ := Prod.mk.inj (Option.some.inj h)
    obtain ⟨gap, hgap, rfl⟩ := exists_gap hstart
    rw [Text.after?_eq_some_iff.1 hcitation]
    exact .citation hgap hkey
  · cases h

theorem IsWritten.kind (h : IsWritten words m) :
    MarkKind.ofInner? words = some (m.kind, m.key) := by
  cases h with
  | label hkey => rfl
  | @reference gap key hgap hkey =>
    have hstart : Text.trimStart (gap ++ '#' :: key) = '#' :: key :=
      Text.trimStart_append_of_stops hgap (Text.stops_cons.2 rfl)
    simp [MarkKind.ofInner?, Text.after?, Text.stripStart?, hstart]
  | bibEntry hgap hkey =>
    have hstart := Text.trimStart_append_of_stops hgap (stops_of_isKey hkey)
    simp [MarkKind.ofInner?, Text.after?, Text.stripStart?, hstart]
  | citation hgap hkey =>
    have hstart := Text.trimStart_append_of_stops hgap (stops_of_isKey hkey)
    simp [MarkKind.ofInner?, Text.after?, Text.stripStart?, hstart]

theorem ofInner?_eq_some_iff : ofInner? inner = some m ↔ IsWritten (Text.trim inner) m := by
  rw [ofInner?]
  generalize Text.trim inner = words
  constructor
  · intro h
    split at h
    · next kind key hkind =>
      split at h
      · next hkey =>
        obtain rfl := Option.some.inj h
        exact isWritten_of_kind hkind hkey
      · cases h
    · cases h
  · intro h
    simp only [h.kind, h.isKey_key, if_true]

theorem read?_eq_some_iff_begins : read? s = some (m, inner, rest) ↔ m.Begins inner rest s := by
  rw [read?]
  constructor
  · intro h
    split at h
    · next inner' rest' hsplit =>
      obtain ⟨mark, hmark, heq⟩ := Option.map_eq_some_iff.1 h
      cases heq
      obtain ⟨hs, hfirst⟩ := Text.splitOnce?_eq_some_iff.1 hsplit
      exact ⟨hs, hfirst, ofInner?_eq_some_iff.1 hmark⟩
    · cases h
  · intro h
    rw [Text.splitOnce?_eq_some_iff.2 ⟨h.eq, h.first⟩]
    simp [ofInner?_eq_some_iff.2 h.written]

theorem read?_eq_none_iff_begins :
    read? s = none ↔ ∀ (m : Mark) inner rest, ¬m.Begins inner rest s := by
  rw [Option.eq_none_iff_forall_ne_some]
  simp only [Prod.forall, ne_eq, read?_eq_some_iff_begins]

end Mark

/-! ## Segments -/

namespace Segment

variable {m : Mark} {c : Char} {inner rest s t text : List Char} {segments : List Segment}

def isText : Segment → Bool
  | .text _ => true
  | .mark _ _ => false

/-- No mark starts in the stretch `t` of a text that goes on with `rest`. -/
def Plain (t rest : List Char) : Prop :=
  ∀ front back, t = front ++ '{' :: back →
    ∀ m inner behind, ¬Mark.Begins m inner behind (back ++ rest)

theorem plain_nil (rest : List Char) : Plain [] rest := by
  intro front back h
  simp at h

theorem plain_cons : Plain (c :: t) rest ↔
    (c = '{' → ∀ m inner behind, ¬Mark.Begins m inner behind (t ++ rest)) ∧ Plain t rest := by
  constructor
  · intro h
    refine ⟨fun hc => h [] t (by rw [hc]; rfl), fun front back ht => ?_⟩
    exact h (c :: front) back (by rw [ht]; rfl)
  · rintro ⟨hc, ht⟩ front back heq
    cases front with
    | nil =>
      obtain ⟨rfl, rfl⟩ := List.cons.inj heq
      exact hc rfl
    | cons d front => exact ht front back (List.cons.inj heq).2

/-- Without what follows it, a stretch holds no more marks. -/
theorem Plain.of_append (h : Plain t rest) : Plain t [] := by
  intro front back ht m inner behind hbegins
  refine h front back ht m inner (behind ++ rest) ?_
  simpa using hbegins.append rest

/-- The text is cut into these segments. -/
structure Scanned (text : List Char) (segments : List Segment) : Prop where
  joined : segments.flatMap source = text
  texts : ∀ t, .text t ∈ segments → t ≠ []
  /-- There is a mark between two texts. -/
  apart : segments.IsChain fun a b => a.isText = false ∨ b.isText = false
  /-- A mark is what the words between its braces say. -/
  marks : ∀ m inner, .mark m inner ∈ segments → '}' ∉ inner ∧ Mark.IsWritten (Text.trim inner) m
  /-- No mark is missed. -/
  plain : ∀ t behind, .text t :: behind <:+ segments → Plain t (behind.flatMap source)

theorem scanned_nil_iff : Scanned text [] ↔ text = [] := by
  constructor
  · intro h
    exact h.joined.symm
  · rintro rfl
    exact ⟨rfl, nofun, .nil, nofun, fun t behind h => by simp at h⟩

/-- What stands behind the first segment is cut into the others. -/
theorem Scanned.tail {segment : Segment} (h : Scanned text (segment :: segments)) :
    Scanned (segments.flatMap source) segments where
  joined := rfl
  texts t ht := h.texts t (List.mem_cons_of_mem _ ht)
  apart := h.apart.tail
  marks m inner hm := h.marks m inner (List.mem_cons_of_mem _ hm)
  plain t behind hsuffix := h.plain t behind (hsuffix.trans (List.suffix_cons _ _))

theorem scanned_mark_iff : Scanned text (.mark m inner :: segments) ↔
    ∃ s rest, text = '{' :: s ∧ m.Begins inner rest s ∧ Scanned rest segments := by
  constructor
  · intro h
    obtain ⟨hfirst, hwritten⟩ := h.marks m inner List.mem_cons_self
    refine ⟨inner ++ '}' :: segments.flatMap source, _, ?_, ⟨rfl, hfirst, hwritten⟩, h.tail⟩
    rw [← h.joined]
    simp [source]
  · rintro ⟨s, rest, rfl, hbegins, h⟩
    refine ⟨?_, fun t ht => ?_, ?_, fun m' inner' hm => ?_, fun t behind hsuffix => ?_⟩
    · simp [source, h.joined, hbegins.eq]
    · exact h.texts t (by simpa using ht)
    · exact List.isChain_cons.2 ⟨fun _ _ => .inl rfl, h.apart⟩
    · rcases List.mem_cons.1 hm with heq | hm
      · cases heq
        exact ⟨hbegins.first, hbegins.written⟩
      · exact h.marks m' inner' hm
    · exact h.plain t behind ((List.suffix_cons_iff.1 hsuffix).resolve_left (by simp))

theorem scanned_text_iff : Scanned text (.text t :: segments) ↔
    t ≠ [] ∧ (∀ next ∈ segments.head?, next.isText = false) ∧
      ∃ rest, text = t ++ rest ∧ Plain t rest ∧ Scanned rest segments := by
  constructor
  · intro h
    have hnext : ∀ next ∈ segments.head?, next.isText = false := fun next hmem =>
      ((List.isChain_cons.1 h.apart).1 next hmem).resolve_left (by simp [isText])
    exact ⟨h.texts t List.mem_cons_self, hnext, _, h.joined.symm, h.plain t _ List.suffix_rfl,
      h.tail⟩
  · rintro ⟨hne, hnext, rest, rfl, hplain, h⟩
    refine ⟨?_, fun t' ht => ?_, ?_, fun m inner hm => ?_, fun t' behind hsuffix => ?_⟩
    · simp [source, h.joined]
    · rcases List.mem_cons.1 ht with heq | ht
      · cases heq
        exact hne
      · exact h.texts t' ht
    · exact List.isChain_cons.2 ⟨fun next hmem => .inr (hnext next hmem), h.apart⟩
    · exact h.marks m inner (by simpa using hm)
    · rcases List.suffix_cons_iff.1 hsuffix with heq | hsuffix
      · cases heq
        rwa [h.joined]
      · exact h.plain t' behind hsuffix

/-! ## The scan -/

theorem scan_mark (h : m.Begins inner rest s) : scan ('{' :: s) = .mark m inner :: scan rest := by
  have hread := Mark.read?_eq_some_iff_begins.2 h
  rw [scan, if_pos rfl]
  split
  · next hread' =>
    cases hread'.symm.trans hread
    rfl
  · next hnone => cases hnone.symm.trans hread

theorem scan_cons (h : c = '{' → ∀ m inner behind, ¬Mark.Begins m inner behind s) :
    scan (c :: s) = consChar c (scan s) := by
  rw [scan]
  split
  · next hc =>
    have hnone := Mark.read?_eq_none_iff_begins.2 (h hc)
    split
    · next hread => cases hread.symm.trans hnone
    · rfl
  · rfl

theorem scan_plain_append (h : Plain t rest) :
    scan (t ++ rest) = t.foldr consChar (scan rest) := by
  induction t with
  | nil => rfl
  | cons c t ih =>
    obtain ⟨hc, ht⟩ := plain_cons.1 h
    rw [List.cons_append, scan_cons hc, ih ht, List.foldr_cons]

/-- Characters in front of a mark, or of nothing, make one text. -/
theorem foldr_consChar (hne : t ≠ []) (hnext : ∀ next ∈ segments.head?, next.isText = false) :
    t.foldr consChar segments = .text t :: segments := by
  induction t with
  | nil => exact absurd rfl hne
  | cons c t ih =>
    rw [List.foldr_cons]
    cases t with
    | nil =>
      rw [List.foldr_nil, consChar]
      intro s rest heq
      cases hnext (.text s) (by rw [heq]; rfl)
    | cons d t => rw [ih (List.cons_ne_nil d t), consChar]

theorem scanned_consChar (h : Scanned s segments)
    (hc : c = '{' → ∀ m inner behind, ¬Mark.Begins m inner behind s) :
    Scanned (c :: s) (consChar c segments) := by
  unfold consChar
  split
  · next t behind =>
    -- the text goes on to the left, and what follows it stays the same
    obtain ⟨-, hnext, rest, rfl, hplain, hrest⟩ := scanned_text_iff.1 h
    exact scanned_text_iff.2
      ⟨List.cons_ne_nil c t, hnext, rest, rfl, plain_cons.2 ⟨hc, hplain⟩, hrest⟩
  · next hnot =>
    refine scanned_text_iff.2 ⟨List.cons_ne_nil c [], fun next hnext => ?_, s, rfl,
      plain_cons.2 ⟨hc, plain_nil s⟩, h⟩
    obtain ⟨behind, rfl⟩ := List.head?_eq_some_iff.1 hnext
    cases next with
    | text t => exact absurd rfl (hnot t behind)
    | mark m inner => rfl

theorem scanned_scan (text : List Char) : Scanned text (scan text) := by
  fun_induction scan text with
  | case1 => exact scanned_nil_iff.2 rfl
  | case2 s m inner rest hread ih =>
    exact scanned_mark_iff.2 ⟨s, rest, rfl, Mark.read?_eq_some_iff_begins.1 hread, ih⟩
  | case3 s hread ih => exact scanned_consChar ih fun _ => Mark.read?_eq_none_iff_begins.1 hread
  | case4 c s hc ih => exact scanned_consChar ih fun h => absurd h hc

/-- There is one way to cut a text. Induction on the segments: the scan begins with the first one,
because a mark is read where one starts and nothing is read in a plain stretch. -/
theorem Scanned.eq_scan (h : Scanned text segments) : segments = scan text := by
  induction segments generalizing text with
  | nil =>
    rw [scanned_nil_iff.1 h, scan]
  | cons segment segments ih =>
    cases segment with
    | mark m inner =>
      obtain ⟨s, rest, rfl, hbegins, hrest⟩ := scanned_mark_iff.1 h
      rw [scan_mark hbegins, ← ih hrest]
    | text t =>
      obtain ⟨hne, hnext, rest, rfl, hplain, hrest⟩ := scanned_text_iff.1 h
      rw [scan_plain_append hplain, ← ih hrest, foldr_consChar hne hnext]

/-- A text of the cut is left whole when it is cut alone. -/
theorem Scanned.scan_text (h : Scanned text segments) (ht : .text t ∈ segments) :
    scan t = [.text t] := by
  obtain ⟨front, behind, rfl⟩ := List.append_of_mem ht
  have hplain := (h.plain t behind (List.suffix_append front _)).of_append
  have halone : Scanned t [.text t] := scanned_text_iff.2
    ⟨h.texts t ht, nofun, [], (List.append_nil t).symm, hplain, scanned_nil_iff.2 rfl⟩
  exact halone.eq_scan.symm

end Segment

end Treatise
