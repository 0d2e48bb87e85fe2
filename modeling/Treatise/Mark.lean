import Treatise.Tree.Node

/-!
# Marks for cross-references

Within running text a brace group may be a mark:

* `\{#key}` — a label;
* `\{ref: #key}` — a reference to a label;
* `\{bib: key}` — a citation;
* `\{bibitem: key}` — a bibliography entry.

A key is not empty and holds no blank. Other brace groups are text. `Segment.scan` cuts a text into
marks and the text between them, and loses nothing (`Segment.flatMap_source_scan`).
-/

namespace Treatise

/-- What a mark stands for. -/
inductive MarkKind where
  | label | reference | citation | bibEntry
  deriving DecidableEq, Repr

def MarkKind.tag : MarkKind → Tag
  | label => .label
  | reference => .reference
  | citation => .citation
  | bibEntry => .bibEntry

structure Mark where
  kind : MarkKind
  key : List Char
  deriving DecidableEq, Repr

def Mark.node (m : Mark) : Node := (Node.ofTag m.kind.tag).setAttr "key" (String.ofList m.key)

/-- What kind of mark the text between the braces announces, and the text of its key. -/
def MarkKind.ofInner? (inner : List Char) : Option (MarkKind × List Char) :=
  match Text.after? "#" inner with
  | some key => some (.label, key)
  | none =>
    match Text.after? "ref:" inner with
    | some rest => (Text.after? "#" (Text.trimStart rest)).map fun key => (.reference, key)
    | none =>
      match Text.after? "bibitem:" inner with
      | some rest => some (.bibEntry, Text.trimStart rest)
      | none =>
        match Text.after? "bib:" inner with
        | some rest => some (.citation, Text.trimStart rest)
        | none => none

/-- The mark that the text between two braces is. -/
def Mark.ofInner? (inner : List Char) : Option Mark :=
  match MarkKind.ofInner? (Text.trim inner) with
  | some (kind, key) => if isKey key then some ⟨kind, key⟩ else none
  | none => none

/-- Reads a mark behind its opening brace: the mark, the text up to the closing brace, and what
follows that brace. The first closing brace ends a group. -/
def Mark.read? (s : List Char) : Option (Mark × List Char × List Char) :=
  match Text.splitOnce? '}' s with
  | some (inner, rest) => (Mark.ofInner? inner).map fun mark => (mark, inner, rest)
  | none => none

/-- A piece of running text. -/
inductive Segment where
  | text (s : List Char)
  /-- A mark with the text between its braces. -/
  | mark (m : Mark) (inner : List Char)
  deriving DecidableEq, Repr

namespace Segment

/-- What a segment was cut from. -/
def source : Segment → List Char
  | text s => s
  | mark _ inner => '{' :: inner ++ ['}']

/-- A character in front of segments, joined to a text that they begin with. -/
def consChar (c : Char) : List Segment → List Segment
  | .text s :: segments => .text (c :: s) :: segments
  | segments => .text [c] :: segments

theorem length_of_read? {s inner rest : List Char} {m : Mark}
    (h : Mark.read? s = some (m, inner, rest)) : s = inner ++ '}' :: rest := by
  unfold Mark.read? at h
  split at h
  · next hs =>
    simp only [Option.map_eq_some_iff, Prod.mk.injEq] at h
    obtain ⟨-, -, -, rfl, rfl⟩ := h
    exact (Text.splitOnce?_eq_some_iff.1 hs).1
  · exact absurd h (by simp)

/-- Cuts running text into marks and the text between them. A brace that opens no mark is text, and
the search goes on behind it. -/
def scan (s : List Char) : List Segment :=
  match s with
  | [] => []
  | c :: s =>
    if c = '{' then
      match _mark : Mark.read? s with
      | some (m, inner, rest) => .mark m inner :: scan rest
      | none => consChar c (scan s)
    else consChar c (scan s)
termination_by s.length
decreasing_by
  all_goals first
    | (have hmark := congrArg List.length (length_of_read? _mark)
       simp at hmark ⊢; omega)
    | simp

theorem flatMap_source_consChar (c : Char) (l : List Segment) :
    (consChar c l).flatMap source = c :: l.flatMap source := by
  unfold consChar
  split <;> simp [source]

theorem flatMap_source_scan (s : List Char) : (scan s).flatMap source = s := by
  fun_induction scan s with
  | case1 => rfl
  | case2 s m inner rest hread ih => simp [source, ih, length_of_read? hread]
  | case3 => simp_all [flatMap_source_consChar]
  | case4 => simp_all [flatMap_source_consChar]

end Segment

end Treatise
