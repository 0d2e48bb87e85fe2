import Treatise.Template

/-!
# Cuts of templates

A template is cut into text and places without any values. Whatever the values are, filling the
template puts them between the texts of this cut, and so no value is taken for a place.

* **`IsFirstPlace`** — the first place of a text, between the first opening braces and the first
  closing braces behind them.
* **`IsCut`** — the cut of a text, from its first place to the next one, up to text without places.
* `exists_isCut`, `IsCut.unique`, `IsCut.flatMap_source` — there is one such cut, and nothing is lost.
* `IsCut.fill_eq` — to fill a text is to fill each piece of its cut.
* **`substitute_fills_cut`** — all this for a template, and what becomes of braces that are not
  closed.
-/

namespace Treatise.Template

variable {s before inner rest behind : List Char}

/-! ## The first place -/

/-- The text has a place behind `before`, and no opening braces in front of it; they are closed for
the first time behind `inner`. -/
structure IsFirstPlace (s before inner rest : List Char) : Prop where
  eq : s = before ++ ['{', '{'] ++ (inner ++ ['}', '}'] ++ rest)
  opening : ∀ front, front ++ ['{', '{'] <+: s → before <+: front
  closing : ∀ front, front ++ ['}', '}'] <+: inner ++ ['}', '}'] ++ rest → inner <+: front

theorem firstPlace?_eq_some_iff :
    firstPlace? s = some (before, inner, rest) ↔ IsFirstPlace s before inner rest := by
  simp only [firstPlace?, bind, Option.bind_eq_some_iff, Prod.exists, pure, Option.some.injEq,
    Prod.mk.injEq, Text.splitAt?_eq_some_iff]
  constructor
  · rintro ⟨_, _, ⟨heq, hopen⟩, _, _, ⟨rfl, hclose⟩, rfl, rfl, rfl⟩
    exact ⟨heq, hopen, hclose⟩
  · intro h
    exact ⟨before, _, ⟨h.eq, h.opening⟩, inner, rest, ⟨rfl, h.closing⟩, rfl, rfl, rfl⟩

/-- A text has no place if nothing closes its opening braces. -/
theorem firstPlace?_eq_none_iff :
    firstPlace? s = none ↔
      ∀ before behind, s = before ++ ['{', '{'] ++ behind → ¬['}', '}'] <:+: behind := by
  constructor
  · intro hnone before behind heq hclosed
    cases hopen : Text.splitAt? ['{', '{'] s with
    | none => exact Text.splitAt?_eq_none_iff.1 hopen ⟨before, behind, heq.symm⟩
    | some cut =>
      -- the first opening braces are closed too, as what is behind others is behind them
      obtain ⟨first, behindFirst⟩ := cut
      obtain ⟨hfirst, hleast⟩ := Text.splitAt?_eq_some_iff.1 hopen
      have hlength := (hleast before ⟨behind, heq.symm⟩).length_le
      have hsuffix : behind <:+ behindFirst := by
        refine List.suffix_of_suffix_length_le ⟨_, heq.symm⟩ ⟨_, hfirst.symm⟩ ?_
        have hsame := congrArg List.length (heq.symm.trans hfirst)
        simp only [List.length_append] at hsame
        omega
      cases hclose : Text.splitAt? ['}', '}'] behindFirst with
      | none => exact Text.splitAt?_eq_none_iff.1 hclose (hclosed.trans hsuffix.isInfix)
      | some cut => simp [firstPlace?, hopen, hclose] at hnone
  · intro h
    cases hopen : Text.splitAt? ['{', '{'] s with
    | none => simp [firstPlace?, hopen]
    | some cut =>
      have hnot := h cut.1 cut.2 (Text.splitAt?_eq_some_iff.1 hopen).1
      simp [firstPlace?, hopen, Text.splitAt?_eq_none_iff.2 hnot]

/-! ## Pieces -/

inductive Piece where
  | literal (text : List Char)
  /-- A place for a value, with all that stands between the braces. -/
  | place (inner : List Char)
  deriving DecidableEq, Repr

namespace Piece

/-- What a piece was cut from. -/
def source : Piece → List Char
  | literal text => text
  | place inner => ['{', '{'] ++ inner ++ ['}', '}']

/-- The text of a piece when the places have values: a key is what stands between the braces without
the blanks around it, and one without a value stands for nothing. -/
def filled (values : Dict String) : Piece → List Char
  | literal text => text
  | place inner =>
    match values.get? (String.ofList (Text.trim inner)) with
    | some value => value.toList
    | none => []

theorem filled_place (values : Dict String) (inner : List Char) :
    (place inner).filled values = valueOf values inner := by
  rw [filled, valueOf, keyOf]
  cases values.get? (String.ofList (Text.trim inner)) <;> rfl

end Piece

/-- The text is cut into these pieces. -/
inductive IsCut : List Char → List Piece → Prop where
  /-- Nothing closes the opening braces of the text, if there are any. -/
  | text {s : List Char}
      (h : ∀ before behind, s = before ++ ['{', '{'] ++ behind → ¬['}', '}'] <:+: behind) :
      IsCut s [.literal s]
  | place {s before inner rest : List Char} {ps : List Piece}
      (hplace : IsFirstPlace s before inner rest) (hrest : IsCut rest ps) :
      IsCut s (.literal before :: .place inner :: ps)

variable {ps : List Piece}

/-- Each text has a cut. Induction along the places that are filled, whatever the values. -/
theorem exists_isCut (s : List Char) : ∃ ps, IsCut s ps := by
  fun_induction fill ∅ s with
  | case1 s hnone => exact ⟨_, .text (firstPlace?_eq_none_iff.1 hnone)⟩
  | case2 s before inner rest hplace ih =>
    obtain ⟨ps, hrest⟩ := ih
    exact ⟨_, .place (firstPlace?_eq_some_iff.1 hplace) hrest⟩

namespace IsCut

theorem unique {qs : List Piece} (h : IsCut s ps) (h' : IsCut s qs) : ps = qs := by
  induction h generalizing qs with
  | text hopen =>
    cases h' with
    | text => rfl
    | place hplace =>
      have hsome := firstPlace?_eq_some_iff.2 hplace
      rw [firstPlace?_eq_none_iff.2 hopen] at hsome
      cases hsome
  | place hplace _ ih =>
    have hsome := firstPlace?_eq_some_iff.2 hplace
    cases h' with
    | text hopen =>
      rw [firstPlace?_eq_none_iff.2 hopen] at hsome
      cases hsome
    | place hplace' hrest' =>
      rw [firstPlace?_eq_some_iff.2 hplace'] at hsome
      cases hsome
      rw [ih hrest']

theorem flatMap_source (h : IsCut s ps) : ps.flatMap Piece.source = s := by
  induction h with
  | text => simp [Piece.source]
  | place hplace _ ih => simp [Piece.source, ih, hplace.eq]

/-- To fill a text is to fill each piece of its cut. Induction on the cut; the values have no part
in it. -/
theorem fill_eq (h : IsCut s ps) (values : Dict String) :
    fill values s = ps.flatMap (Piece.filled values) := by
  induction h with
  | text hopen =>
    have hnone := firstPlace?_eq_none_iff.2 hopen
    rw [fill]
    split
    · simp [Piece.filled]
    · next hsome => cases hnone.symm.trans hsome
  | place hplace _ ih =>
    have hsome := firstPlace?_eq_some_iff.2 hplace
    rw [fill]
    split
    · next hnone => cases hsome.symm.trans hnone
    · next hsome' =>
      cases hsome.symm.trans hsome'
      rw [ih, List.flatMap_cons, List.flatMap_cons, Piece.filled_place, List.append_assoc]
      rfl

end IsCut

/-! ## Braces that are not closed -/

/-- Opening braces that are not closed stand behind the first place. -/
theorem IsFirstPlace.exists_of_unclosed {front : List Char} (h : IsFirstPlace s before inner rest)
    (heq : s = front ++ ['{', '{'] ++ behind) (hunclosed : ¬['}', '}'] <:+: behind) :
    ∃ between, rest = between ++ ['{', '{'] ++ behind := by
  have hcuts : before ++ ['{', '{'] ++ inner ++ (['}', '}'] ++ rest) =
      front ++ (['{', '{'] ++ behind) := by
    simpa [h.eq] using heq
  rcases List.append_eq_append_iff.1 hcuts with ⟨between, -, hbetween⟩ | ⟨overlap, -, hoverlap⟩
  · -- the braces that close the place are no opening braces
    match between, hbetween with
    | [], hbetween => cases hbetween
    | [_], hbetween => cases hbetween
    | _ :: _ :: between, hbetween =>
      exact ⟨between, by simpa using (List.cons.inj (List.cons.inj hbetween).2).2⟩
  · match overlap, hoverlap with
    | [], hoverlap => cases hoverlap
    | [_], hoverlap => cases hoverlap
    | _ :: _ :: overlap, hoverlap =>
      refine absurd ⟨overlap, rest, ?_⟩ hunclosed
      simpa using (List.cons.inj (List.cons.inj hoverlap).2).2.symm

/-- From opening braces on that are not closed, the text is the end of the last piece. -/
theorem IsCut.exists_eq_of_unclosed {front : List Char} (h : IsCut s ps)
    (heq : s = front ++ ['{', '{'] ++ behind) (hunclosed : ¬['}', '}'] <:+: behind) :
    ∃ qs text, ps = qs ++ [.literal (text ++ ['{', '{'] ++ behind)] := by
  induction h generalizing front with
  | text => exact ⟨[], front, by rw [heq]; rfl⟩
  | place hplace _ ih =>
    obtain ⟨between, hrest⟩ := hplace.exists_of_unclosed heq hunclosed
    obtain ⟨qs, text, rfl⟩ := ih hrest
    exact ⟨_ :: _ :: qs, text, rfl⟩

/-! ## Substitution -/

/-- A template has one cut into text and places, which put together give it back. With any values,
the substitution is the text of the pieces, where a place has the value of its key, or nothing if
there is none. Opening braces without closing ones behind them are text, with all that follows. -/
theorem substitute_fills_cut (template : String) :
    ∃ ps, ps.flatMap Piece.source = template.toList ∧
      (∀ qs, IsCut template.toList qs ↔ qs = ps) ∧
      (∀ values, (substitute template values).toList = ps.flatMap (Piece.filled values)) ∧
      ∀ front behind, template.toList = front ++ ['{', '{'] ++ behind → ¬['}', '}'] <:+: behind →
        ∃ qs text, ps = qs ++ [.literal (text ++ ['{', '{'] ++ behind)] := by
  obtain ⟨ps, hcut⟩ := exists_isCut template.toList
  refine ⟨ps, hcut.flatMap_source, fun qs => ⟨fun h => h.unique hcut, ?_⟩, fun values => ?_, ?_⟩
  · rintro rfl
    exact hcut
  · rw [substitute, String.toList_ofList]
    exact hcut.fill_eq values
  · intro front behind heq hunclosed
    exact hcut.exists_eq_of_unclosed heq hunclosed

/-- A value that looks like a place is put in as it is. -/
example : substitute "\x7b\x7bx\x7d\x7d\x7b\x7b y \x7d\x7d \x7b\x7b z"
    ((Dict.empty.insert "x" "\x7b\x7by\x7d\x7d").insert "y" "1") =
      "\x7b\x7by\x7d\x7d1 \x7b\x7b z" := by
  decide +kernel

end Treatise.Template
