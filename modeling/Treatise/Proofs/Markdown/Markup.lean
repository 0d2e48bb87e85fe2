import Treatise.Proofs.Markdown.Labels
import Treatise.Markdown.Running

/-!
# Inline markup before the end of a line

No markup needs the end of the last line of a passage: what is read of the text is read of the text
with a line end behind it, and the line end stays.

* `RawHtml.readTag?_append`, `RawHtml.readSpecial?_append` — raw HTML;
* `LinkTarget.read?_append` — targets of links.
-/

namespace Treatise.Markdown

theorem readReference?_of_ne {s : List Char} (h : s.head? ≠ some '#') :
    readReference? s =
      if endsReference (s.drop (s.takeWhile Char.isAlphanum).length) then
        (namedCharacters.find? (·.1 == s.takeWhile Char.isAlphanum)).map
          fun found => (found.2, (s.takeWhile Char.isAlphanum).length + 1)
      else none := by
  unfold readReference?
  split
  · exact absurd rfl h
  · rfl

theorem length_of_endsReference {s : List Char} {n : Nat} (h : endsReference (s.drop n) = true) :
    n + 1 ≤ s.length := by
  by_contra hlt
  rw [List.drop_eq_nil_of_le (by omega)] at h
  cases h

theorem size_of_readNumber? {isDigit : Char → Bool} {value : List Char → Nat} {limit size : Nat}
    {s v : List Char} (h : readNumber? isDigit value limit s = some (v, size)) :
    size ≤ s.length := by
  rw [readNumber?, Option.ite_none_right_eq_some] at h
  obtain ⟨⟨-, -, hend⟩, h⟩ := h
  obtain ⟨-, rfl⟩ := Prod.mk.inj (Option.some.inj h)
  exact length_of_endsReference hend

/-- A reference is a part of the text. -/
theorem size_of_readReference? {s v : List Char} {size : Nat}
    (h : readReference? s = some (v, size)) : size ≤ s.length := by
  unfold readReference? at h
  split at h
  next c rest =>
    split at h <;> obtain ⟨⟨u, n⟩, hnumber, heq⟩ := Option.map_eq_some_iff.1 h <;>
      obtain ⟨-, rfl⟩ := Prod.mk.inj heq
    · have := size_of_readNumber? hnumber
      simp only [List.length_cons]
      omega
    · have := size_of_readNumber? hnumber
      simp only [List.length_cons] at this ⊢
      omega
  · simp only [Option.ite_none_right_eq_some] at h
    obtain ⟨hend, h⟩ := h
    obtain ⟨found, -, heq⟩ := Option.map_eq_some_iff.1 h
    obtain ⟨-, rfl⟩ := Prod.mk.inj heq
    exact length_of_endsReference hend

section Line

variable {y : List Char} (hy : atLineEnd y = true)
include hy

/-! ## Character references -/

theorem endsReference_append (x : List Char) : endsReference (x ++ y) = endsReference x := by
  rw [endsReference, endsReference, Bool.eq_iff_iff, beq_iff_eq, beq_iff_eq]
  exact head?_append hy rfl x

theorem readNumber?_append {isDigit : Char → Bool} (hdigit : InLine isDigit)
    (value : List Char → Nat) (limit : Nat) (x : List Char) :
    readNumber? isDigit value limit (x ++ y) = readNumber? isDigit value limit x := by
  have hstops := stops_of_atLineEnd hdigit hy
  simp only [readNumber?, takeWhile_append hstops, drop_length_takeWhile_append hstops,
    drop_length_takeWhile, endsReference_append hy]

theorem readReference?_append (x : List Char) : readReference? (x ++ y) = readReference? x := by
  by_cases hhash : x.head? = some '#'
  · obtain ⟨x, rfl⟩ := List.head?_eq_some_iff.1 hhash
    cases x with
    | cons c x =>
      have hdecimal : InLine Char.isDigit := ⟨rfl, rfl⟩
      have hhexadecimal : InLine fun c => (Text.hexDigit? c).isSome := ⟨rfl, rfl⟩
      have hnumber := readNumber?_append hy hdecimal Text.decimalValue 7 (c :: x)
      have hhex := readNumber?_append hy hhexadecimal (Text.digitsValue 16) 6 x
      rw [List.cons_append] at hnumber
      simp only [List.cons_append, readReference?, hnumber, hhex]
    | nil =>
      cases y with
      | nil => rfl
      | cons c y =>
        rcases isLineEnd_iff.1 hy with rfl | rfl <;> simp [readReference?, readNumber?, endsReference]
  · have hhash' : (x ++ y).head? ≠ some '#' := fun h => hhash ((head?_append hy rfl x).1 h)
    have hstops : Stops Char.isAlphanum y := stops_of_atLineEnd ⟨rfl, rfl⟩ hy
    rw [readReference?_of_ne hhash, readReference?_of_ne hhash', takeWhile_append hstops,
      drop_length_takeWhile_append hstops, drop_length_takeWhile, endsReference_append hy]

/-! ## Addresses -/

/-- What follows a closing angle bracket. -/
theorem closeAngle_append {α : Type} (a : α) (x : List Char) :
    (match x ++ y with
      | '>' :: rest => some (a, rest)
      | _ => none) =
    (match x with
      | '>' :: rest => some (a, rest)
      | _ => none).map (behindBy y) := by
  cases x with
  | nil =>
    cases y with
    | nil => rfl
    | cons d y => rcases isLineEnd_iff.1 hy with rfl | rfl <;> rfl
  | cons d x =>
    by_cases hd : d = '>'
    · subst hd
      rfl
    · simp [hd]

theorem uri?_append (x : List Char) :
    Running.uri? (x ++ y) = (Running.uri? x).map (behindBy y) := by
  have hscheme := stops_of_atLineEnd
    (p := fun c => c.isAlphanum || c == '.' || c == '-' || c == '+') ⟨rfl, rfl⟩ hy
  have hpath := stops_of_atLineEnd
    (p := fun d => 0x20 < d.toNat && d != '<' && d != '>') ⟨rfl, rfl⟩ hy
  simp only [Running.uri?, takeWhile_append hscheme, drop_length_takeWhile_append hscheme,
    drop_length_takeWhile]
  cases (x.takeWhile fun c => c.isAlphanum || c == '.' || c == '-' || c == '+').head? with
  | none => rfl
  | some c =>
    cases x.dropWhile fun c => c.isAlphanum || c == '.' || c == '-' || c == '+' with
    | nil =>
      cases y with
      | nil => rfl
      | cons d y => rcases isLineEnd_iff.1 hy with rfl | rfl <;> rfl
    | cons d rest =>
      by_cases hcolon : d = ':'
      · subst hcolon
        simp only [List.cons_append, takeWhile_append hpath, dropWhile_append hpath]
        split
        · exact closeAngle_append hy _ _
        · rfl
      · simp [hcolon]

theorem mail?_append (x : List Char) :
    Running.mail? (x ++ y) = (Running.mail? x).map (behindBy y) := by
  have hname := stops_of_atLineEnd
    (p := fun c => c.isAlphanum || ".!#$%&'*+/=?^_`\x7b|\x7d~-".toList.contains c)
    ⟨by decide, by decide⟩ hy
  have hdomain := stops_of_atLineEnd
    (p := fun c => c.isAlphanum || c == '-' || c == '.') ⟨rfl, rfl⟩ hy
  simp only [Running.mail?]
  generalize (fun c : Char => c.isAlphanum || ".!#$%&'*+/=?^_`\x7b|\x7d~-".toList.contains c) = p at *
  rw [takeWhile_append hname, drop_length_takeWhile_append hname, drop_length_takeWhile]
  cases x.dropWhile p with
  | nil =>
    cases y with
    | nil => rfl
    | cons d y => rcases isLineEnd_iff.1 hy with rfl | rfl <;> rfl
  | cons d rest =>
    by_cases hat : d = '@'
    · subst hat
      simp only [List.cons_append, takeWhile_append hdomain, drop_length_takeWhile_append hdomain,
        drop_length_takeWhile]
      cases rest.dropWhile fun c => c.isAlphanum || c == '-' || c == '.' with
      | nil =>
        cases y with
        | nil => rfl
        | cons d y => rcases isLineEnd_iff.1 hy with rfl | rfl <;> rfl
      | cons e rest =>
        by_cases he : e = '>'
        · subst he
          simp only [List.cons_append]
          split <;> rfl
        · simp [he]
    · simp [hat]

end Line

/-! ## Line starts -/

/-- Where a line goes on behind a line end is seen in the line, whatever follows it. -/
structure LocalStart (start : List Char → Cursor) (y : List Char) : Prop where
  suffix (s : List Char) : (start s).rest <:+ s
  append (s : List Char) : start (s ++ y) = (start s).append y

theorem Passage.localStart_lineStart (p : Passage) {y : List Char} (hy : atLineEnd y = true) :
    LocalStart p.lineStart y where
  suffix s := Container.follow_suffix p.containers (Cursor.ofLine s)
  append s := by
    rw [lineStart, Cursor.ofLine_append, Container.follow_append hy]
    rfl

theorem LocalStart.rest_nil {start : List Char → Cursor} {y : List Char} (h : LocalStart start y) :
    (start []).rest = [] := List.suffix_nil.1 (h.suffix [])

/-- The end of the last line of a text. -/
structure LineStop (y : List Char) : Prop where
  eq : y = [] ∨ y = ['\n'] ∨ y = ['\r', '\n']

namespace LineStop

variable {y : List Char} (hy : LineStop y)
include hy

theorem atLineEnd : atLineEnd y = true := by rcases hy.eq with rfl | rfl | rfl <;> rfl

theorem splitLineEnd : splitLineEnd y = (y, []) := by rcases hy.eq with rfl | rfl | rfl <;> rfl

theorem isLineEnd {c : Char} (hc : c ∈ y) : isLineEnd c = true := by
  rcases hy.eq with rfl | rfl | rfl
  · cases hc
  · obtain rfl := List.mem_singleton.1 hc
    rfl
  · simp only [List.mem_cons, List.not_mem_nil, or_false] at hc
    rcases hc with rfl | rfl <;> rfl

theorem valid : (Tail.mk y []).Valid := ⟨hy.eq, fun _ => rfl, rfl⟩

end LineStop

/-- What is left of a text with a line end behind it, if `r` is left of the text alone, and blanks and
line ends are skipped. -/
def withStop (y r : List Char) : List Char := if r = [] then [] else r ++ y

theorem withStop_of_ne {r : List Char} (y : List Char) (h : r ≠ []) : withStop y r = r ++ y :=
  if_neg h

/-- What is left of a text, and of the text with a line end behind it: the line end stays, unless there
is nothing else and it is skipped. -/
def Behind (y r r' : List Char) : Prop := r' = r ++ y ∨ r = [] ∧ r' = []

/-! ## Raw HTML -/

/-- The first characters decide. -/
theorem RawHtml.readSpecial?_eq (s : List Char) :
    readSpecial? s =
      match Text.stripStart? ['!', '-', '-'] s with
      | some rest => behind? "-->" ('-' :: '-' :: rest)
      | none =>
        match Text.stripStart? ['!'] s with
        | some rest =>
          match Text.after? "[CDATA[" rest with
          | some rest => behindData? rest
          | none => if rest.head?.any Char.isAlpha then behind? ">" rest else none
        | none => (Text.stripStart? ['?'] s).bind fun rest => behind? "?>" rest := by
  unfold readSpecial?
  split
  · simp [Text.stripStart?]
  next rest hno =>
    have hdash : Text.stripStart? ['!', '-', '-'] ('!' :: rest) = none :=
      Text.stripStart?_eq_none_iff.2 fun h => h.elim fun r hr => hno r (List.cons.inj hr).2.symm
    have hbang : Text.stripStart? ['!'] ('!' :: rest) = some rest := by simp [Text.stripStart?]
    simp only [hdash, hbang]
    cases Text.after? "[CDATA[" rest with
    | some r => rfl
    | none => cases rest <;> rfl
  · simp [Text.stripStart?]
  next hdash hbang hquestion =>
    have hnone {c : Char} {p : List Char} (h : ∀ r, s = c :: r → False) :
        Text.stripStart? (c :: p) s = none :=
      Text.stripStart?_eq_none_iff.2 fun hp => hp.elim fun r hr => h (p ++ r) hr.symm
    rw [hnone hbang, hnone hbang, hnone hquestion]
    rfl

/-- A closing bracket ends the attributes; what stands before another one is an attribute. -/
theorem RawHtml.readAttributes?_eq (next : LineStep) (bound : Nat) (s : List Char) :
    readAttributes? next (bound + 1) s =
      (skipSpace? next (bound + 1) s).bind fun r =>
        match Text.stripStart? ['>'] r with
        | some rest => some rest
        | none =>
          match Text.stripStart? ['/', '>'] r with
          | some rest => some rest
          | none =>
            if (s.head?.map isAnyBlank).getD false then
              (readAttribute? next (bound + 1) r).bind (readAttributes? next bound)
            else none := by
  rw [readAttributes?]
  cases skipSpace? next (bound + 1) s with
  | none => rfl
  | some r =>
    simp only [Option.bind_some]
    split
    · rename_i h; cases h
    next heq =>
      obtain rfl := Option.some.inj heq
      simp [Text.stripStart?, readAttribute?]
    next heq =>
      obtain rfl := Option.some.inj heq
      simp [Text.stripStart?]
    next heq =>
      obtain rfl := Option.some.inj heq
      simp [Text.stripStart?]
    next c rest hclose hslash heq =>
      obtain rfl := Option.some.inj heq
      have hnone : Text.stripStart? ['>'] (c :: rest) = none :=
        Text.stripStart?_eq_none_iff.2 fun h => h.elim fun _ hu => hclose (List.cons.inj hu).1.symm
      have hnone' : Text.stripStart? ['/', '>'] (c :: rest) = none :=
        Text.stripStart?_eq_none_iff.2 fun h => h.elim fun u hu =>
          hslash u (List.cons.inj hu).1.symm (List.cons.inj hu).2.symm
      rw [hnone, hnone']
      split
      · cases readAttribute? next (bound + 1) (c :: rest) <;> rfl
      · rfl

/-- The title of a link behind its destination, and what follows. -/
def LinkTarget.titleBehind (start : List Char → Cursor) (bound : Nat) (s : List Char) :
    List Char × List Char :=
  match (s.head? >>= closingMark?).bind fun closing =>
    readTitleText? start closing bound (s.drop 1) with
  | some (title, rest) => (title, skipSeparator start rest)
  | none => ([], s)

/-- A link target whose title and what follows it are given, if a parenthesis closes it there. -/
def LinkTarget.closed? (destination title : List Char) :
    List Char → Option (LinkTarget × List Char)
  | ')' :: rest => some (⟨destination, title⟩, rest)
  | _ => none

theorem LinkTarget.read?_eq (start : List Char → Cursor) (plain : List Char → List Char)
    (bound : Nat) (s : List Char) :
    LinkTarget.read? start plain bound s =
      (readDestination? maxNesting (skipSeparator start s)).bind fun p =>
        (Text.stripStart? [')'] (titleBehind start bound (skipSeparator start p.2)).2).map
          fun rest => (⟨unescape (plain p.1), (titleBehind start bound (skipSeparator start p.2)).1⟩,
            rest) := by
  rw [LinkTarget.read?]
  cases readDestination? maxNesting (skipSeparator start s) with
  | none => rfl
  | some p =>
    obtain ⟨destination, rest⟩ := p
    show closed? (unescape (plain destination))
      (titleBehind start bound (skipSeparator start rest)).1
      (titleBehind start bound (skipSeparator start rest)).2 = _
    rw [Option.bind_some]
    generalize titleBehind start bound (skipSeparator start rest) = q
    obtain ⟨title, s⟩ := q
    cases s with
    | nil => rfl
    | cons c s =>
      by_cases hc : c = ')'
      · subst hc
        rfl
      · simp [closed?, Text.stripStart?, hc, Ne.symm hc]

theorem readTitleText?_nil (start : List Char → Cursor) (closing : Char) (bound : Nat) :
    readTitleText? start closing bound [] = none := by cases bound <;> rfl

theorem readTitleText?_cons (start : List Char → Cursor) (closing : Char) (bound : Nat) (c : Char)
    (s : List Char) :
    readTitleText? start closing (bound + 1) (c :: s) =
      if c = closing then some ([], s)
      else if c = '(' ∧ closing = ')' then none
      else if c = '\r' ∧ s.head? = some '\n' then
        (readTitleText? start closing bound s).map fun p => ([c] ++ p.1, p.2)
      else if isLineEnd c then
        (readTitleText? start closing bound (dropEscape (start s).skipAll.rest)).map
          fun p => (['\n'] ++ p.1, p.2)
      else if c = '&' then
        match readReference? s with
        | some (value, size) =>
          (readTitleText? start closing bound (s.drop size)).map fun p => (value ++ p.1, p.2)
        | none => (readTitleText? start closing bound s).map fun p => ([c] ++ p.1, p.2)
      else
        match (if c = '\\' then s else []) with
        | d :: rest =>
          if Text.isAsciiPunctuation d then
            (readTitleText? start closing bound rest).map fun p => ([d] ++ p.1, p.2)
          else (readTitleText? start closing bound s).map fun p => ([c] ++ p.1, p.2)
        | [] => (readTitleText? start closing bound s).map fun p => ([c] ++ p.1, p.2) := by
  by_cases hamp : c = '&'
  · subst hamp
    rfl
  by_cases hslash : c = '\\'
  · subst hslash
    cases s <;> rfl
  exact (readTitleText?.eq_5 start closing bound c s hamp fun _ _ h _ => hslash h).trans
    (by simp only [if_neg hamp, if_neg hslash])

theorem dropEscape_suffix (s : List Char) : dropEscape s <:+ s := by
  unfold dropEscape
  split
  · split
    · exact List.suffix_cons _ _
    · exact List.suffix_refl _
  · exact List.suffix_refl _

section Stop

variable {y : List Char} (hy : LineStop y)
include hy

theorem splitAt?_append {p : List Char} (hp : p.any isLineEnd = false) (hne : p ≠ [])
    (x : List Char) :
    Text.splitAt? p (x ++ y) = (Text.splitAt? p x).map (behindBy y) := by
  have hnone : Text.splitAt? p y = none := by
    obtain ⟨c, p, rfl⟩ := List.exists_cons_of_ne_nil hne
    rw [List.any_cons, Bool.or_eq_false_iff] at hp
    have hc := hp.1
    have hn : c ≠ '\n' := by rintro rfl; cases hc
    have hr : c ≠ '\r' := by rintro rfl; cases hc
    rcases hy.eq with rfl | rfl | rfl <;> simp [Text.splitAt?, Text.stripStart?, hn, hr]
  induction x with
  | nil => rw [List.nil_append, hnone, Text.splitAt?, if_neg hne]; rfl
  | cons c x ih =>
    have hstrip := stripStart?_append hy.atLineEnd hp (c :: x)
    rw [List.cons_append] at hstrip ⊢
    rw [Text.splitAt?, Text.splitAt?, hstrip]
    cases Text.stripStart? p (c :: x) with
    | some rest => rfl
    | none =>
      simp only [Option.map_none, ih, Option.map_map]
      rfl

namespace RawHtml

theorem behind?_append {pattern : String} (hp : pattern.toList.any isLineEnd = false)
    (hne : pattern.toList ≠ []) (x : List Char) :
    behind? pattern (x ++ y) = (behind? pattern x).map (· ++ y) := by
  rw [behind?, behind?, splitAt?_append hy hp hne, Option.map_map, Option.map_map]
  rfl

theorem behindData?_append (x : List Char) :
    behindData? (x ++ y) = (behindData? x).map (· ++ y) := by
  have hstop : Stops (· == ']') y := stops_of_atLineEnd ⟨rfl, rfl⟩ hy.atLineEnd
  have hnone : y.dropWhile (· != ']') = [] :=
    List.dropWhile_eq_nil_iff.2 fun c hc => by
      simpa using fun h : c = ']' => by have := hy.isLineEnd hc; rw [h] at this; cases this
  rw [behindData?, behindData?, List.dropWhile_append, hnone]
  cases x.dropWhile (· != ']') with
  | nil => rfl
  | cons c brackets =>
    simp only [List.isEmpty_cons, Bool.false_eq_true, if_false, List.cons_append]
    rw [← List.cons_append, dropWhile_append hstop]
    cases (c :: brackets).dropWhile (· == ']') with
    | nil =>
      rcases hy.eq with rfl | rfl | rfl <;> rfl
    | cons d rest =>
      by_cases hd : d = '>'
      · subst hd
        rfl
      · simp [hd]

theorem readSpecial?_append (x : List Char) :
    readSpecial? (x ++ y) = (readSpecial? x).map (· ++ y) := by
  have hline := hy.atLineEnd
  rw [readSpecial?_eq, readSpecial?_eq, stripStart?_append hline (by decide),
    stripStart?_append hline (by decide), stripStart?_append hline (by decide)]
  cases Text.stripStart? ['!', '-', '-'] x with
  | some rest => exact behind?_append hy (by decide) (by decide) ('-' :: '-' :: rest)
  | none =>
    cases Text.stripStart? ['!'] x with
    | some rest =>
      have hdata := stripStart?_append hline (show "[CDATA[".toList.any isLineEnd = false by decide) rest
      have halpha : (rest ++ y).head?.any Char.isAlpha = rest.head?.any Char.isAlpha := by
        cases rest with
        | cons => rfl
        | nil => rcases hy.eq with rfl | rfl | rfl <;> rfl
      simp only [Option.map_some, Option.map_none, Text.after?, hdata]
      cases Text.stripStart? "[CDATA[".toList rest with
      | some data => exact behindData?_append hy data
      | none =>
        simp only [Option.map_none, halpha]
        split
        · exact behind?_append hy (by decide) (by decide) rest
        · rfl
    | none =>
      cases Text.stripStart? ['?'] x with
      | some rest => exact behind?_append hy (by decide) (by decide) rest
      | none => rfl

/-! ### Tags -/

section Start

variable {start : List Char → Cursor} (hstart : LocalStart start y)
include hstart

omit hy in
/-- Behind a line end within a text, there is more of it. -/
theorem start_skipLineEnd {c : Char} {s : List Char} (hs : EndsInLine (c :: s))
    (hc : isLineEnd c = true) :
    (start (skipLineEnd (c :: s ++ y))).rest = (start (skipLineEnd (c :: s))).rest ++ y ∧
      (start (skipLineEnd (c :: s))).rest <:+ s := by
  have hskip : skipLineEnd (c :: s ++ y) = skipLineEnd (c :: s) ++ y := by
    rw [skipLineEnd, splitLineEnd_append_of_ne hs (List.cons_ne_nil c s)]
    rfl
  exact ⟨by rw [hskip, hstart.append]; rfl,
    (hstart.suffix _).trans (skipLineEnd_suffix_of_isLineEnd hc s)⟩

/-- There is nothing behind the line end. -/
theorem start_stop : y = [] ∨ ∃ c z, y = c :: z ∧ isLineEnd c = true ∧ skipLineEnd y = [] ∧
    (start (skipLineEnd y)).rest = [] := by
  have hnil := hstart.rest_nil
  rcases hy.eq with rfl | rfl | rfl
  · exact .inl rfl
  · exact .inr ⟨_, _, rfl, rfl, rfl, hnil⟩
  · exact .inr ⟨_, _, rfl, rfl, rfl, hnil⟩

theorem skipSpace?_append {bound bound' : Nat} {x : List Char} (hx : EndsInLine x)
    (hb : x.length < bound) (hb' : (x ++ y).length < bound') :
    skipSpace? (fun s => some (start s)) bound' (x ++ y) =
      (skipSpace? (fun s => some (start s)) bound x).map (withStop y) := by
  induction bound generalizing bound' x with
  | zero => omega
  | succ bound ih =>
    obtain ⟨bound', rfl⟩ : ∃ n, bound' = n + 1 := ⟨bound' - 1, by omega⟩
    have hsuffix := dropBlanks_suffix x
    rw [List.length_append] at hb'
    rw [skipSpace?, skipSpace?, dropBlanks_append hy.atLineEnd]
    cases hd : dropBlanks x with
    | nil =>
      -- all of the text is skipped, and then the line end, behind which there is nothing
      rcases start_stop hy hstart with hnil | ⟨c, z, heq, hc, -, hrest⟩
      · rw [hnil]
        rfl
      · rw [heq] at hrest hb'
        obtain ⟨bound', rfl⟩ : ∃ n, bound' = n + 1 :=
          ⟨bound' - 1, by rw [List.length_cons] at hb'; omega⟩
        rw [heq, List.nil_append]
        simp only [hc, if_true, hrest]
        rfl
    | cons c rest =>
      rw [hd] at hsuffix
      have hrest := hx.of_suffix hsuffix
      have hle := hsuffix.length_le
      rw [List.length_cons] at hle
      simp only [List.cons_append]
      split
      next hc =>
        obtain ⟨heq, hmore⟩ := start_skipLineEnd hstart hrest hc
        have hlt := hmore.length_le
        rw [List.cons_append] at heq
        rw [heq]
        exact ih (hrest.tail.of_suffix hmore) (by omega) (by rw [List.length_append]; omega)
      next => rw [Option.map_some, withStop_of_ne y (List.cons_ne_nil c rest), List.cons_append]

theorem readQuoted?_append {mark : Char} (hmark : isLineEnd mark = false) {bound bound' : Nat}
    {x : List Char} (hx : EndsInLine x) (hb : x.length < bound) (hb' : x.length < bound') :
    readQuoted? (fun s => some (start s)) mark bound' (x ++ y) =
      (readQuoted? (fun s => some (start s)) mark bound x).map (· ++ y) := by
  induction bound generalizing bound' x with
  | zero => omega
  | succ bound ih =>
    obtain ⟨bound', rfl⟩ : ∃ n, bound' = n + 1 := ⟨bound' - 1, by omega⟩
    have hnil (n : Nat) : readQuoted? (fun s => some (start s)) mark n [] = none := by
      cases n <;> rfl
    cases x with
    | nil =>
      rw [List.nil_append]
      -- the value is still open at the end of the text, and behind the line end
      rcases start_stop hy hstart with hnil' | ⟨c, z, rfl, hc, -, hrest⟩
      · rw [hnil', hnil]
        rfl
      · have hne : c ≠ mark := by rintro rfl; rw [hc] at hmark; cases hmark
        simp only [readQuoted?, if_neg hne, hc, if_true, hrest, hnil, Option.map_none]
    | cons c x =>
      rw [List.length_cons] at hb hb'
      rw [List.cons_append, readQuoted?, readQuoted?]
      split
      · rfl
      · split
        next hc =>
          obtain ⟨heq, hmore⟩ := start_skipLineEnd hstart hx hc
          have hlt := hmore.length_le
          rw [List.cons_append] at heq
          dsimp only
          rw [heq]
          exact ih (hx.tail.of_suffix hmore) (by omega) (by omega)
        · exact ih hx.tail (by omega) (by omega)

theorem readValue?_append {bound bound' : Nat} {x : List Char} (hx : EndsInLine x)
    (hb : x.length ≤ bound) (hb' : x.length ≤ bound') :
    readValue? (fun s => some (start s)) bound' (x ++ y) =
      (readValue? (fun s => some (start s)) bound x).map (· ++ y) := by
  cases x with
  | nil => rcases hy.eq with rfl | rfl | rfl <;> rfl
  | cons c x =>
    have hstops : Stops isBareValueChar y := stops_of_atLineEnd ⟨rfl, rfl⟩ hy.atLineEnd
    rw [List.length_cons] at hb hb'
    simp only [List.cons_append, readValue?, dropWhile_append hstops]
    split
    next hmark =>
      exact readQuoted?_append hy hstart (by rcases hmark with rfl | rfl <;> rfl) hx.tail
        (by omega) (by omega)
    · split <;> rfl

omit hy in
theorem skipSpace?_suffix {bound : Nat} {s r : List Char}
    (h : skipSpace? (fun s => some (start s)) bound s = some r) : r <:+ s := by
  induction bound generalizing s with
  | zero => cases h
  | succ bound ih =>
    have hsuffix := dropBlanks_suffix s
    rw [skipSpace?] at h
    split at h
    · obtain rfl := Option.some.inj h
      exact List.nil_suffix
    next c rest heq =>
      rw [heq] at hsuffix
      split at h
      · exact (ih h).trans ((hstart.suffix _).trans ((skipLineEnd_suffix _).trans hsuffix))
      · obtain rfl := Option.some.inj h
        exact hsuffix

omit hy in
theorem readQuoted?_suffix {mark : Char} {bound : Nat} {s r : List Char}
    (h : readQuoted? (fun s => some (start s)) mark bound s = some r) : r <:+ s := by
  induction bound generalizing s with
  | zero => cases h
  | succ bound ih =>
    cases s with
    | nil => cases h
    | cons c s =>
      rw [readQuoted?] at h
      split at h
      · obtain rfl := Option.some.inj h
        exact List.suffix_cons c _
      · split at h
        next => exact (ih h).trans ((hstart.suffix _).trans (skipLineEnd_suffix (c :: s)))
        next => exact (ih h).trans (List.suffix_cons c s)

omit hy in
theorem readValue?_suffix {bound : Nat} {s r : List Char}
    (h : readValue? (fun s => some (start s)) bound s = some r) : r <:+ s := by
  cases s with
  | nil => cases h
  | cons c s =>
    rw [readValue?] at h
    split at h
    · exact (readQuoted?_suffix hstart h).trans (List.suffix_cons c s)
    · split at h
      · obtain rfl := Option.some.inj h
        exact (List.dropWhile_suffix _).trans (List.suffix_cons c s)
      · cases h

omit hy in
theorem readAttribute?_suffix {bound : Nat} {s r : List Char}
    (h : readAttribute? (fun s => some (start s)) bound s = some r) :
    r <:+ s ∧ r.length < s.length := by
  cases s with
  | nil => cases h
  | cons c s =>
    have hname : s.dropWhile isAttributeChar <:+ s := List.dropWhile_suffix _
    have hmore (hr : r <:+ s) : r <:+ c :: s ∧ r.length < (c :: s).length :=
      ⟨hr.trans (List.suffix_cons c s), Nat.lt_succ_of_le hr.length_le⟩
    simp only [readAttribute?] at h
    split at h
    · split at h
      next hspace =>
        have hvalue := (List.suffix_cons _ _).trans ((skipSpace?_suffix hstart hspace).trans hname)
        split at h
        next hspace' =>
          exact hmore ((readValue?_suffix hstart h).trans
            ((skipSpace?_suffix hstart hspace').trans hvalue))
        · cases h
      · obtain rfl := Option.some.inj h
        exact hmore hname
      · cases h
    · cases h

theorem readAttribute?_append {bound bound' : Nat} {x : List Char} (hx : EndsInLine x)
    (hb : x.length < bound) (hb' : (x ++ y).length < bound') :
    readAttribute? (fun s => some (start s)) bound' (x ++ y) =
      (readAttribute? (fun s => some (start s)) bound x).map (· ++ y) := by
  cases x with
  | nil => rcases hy.eq with rfl | rfl | rfl <;> rfl
  | cons c x =>
    have hstops : Stops isAttributeChar y := stops_of_atLineEnd ⟨rfl, rfl⟩ hy.atLineEnd
    have hname : x.dropWhile isAttributeChar <:+ x := List.dropWhile_suffix _
    have hname' := hx.tail.of_suffix hname
    have hle := hname.length_le
    rw [List.cons_append, List.length_cons, List.length_append] at hb'
    rw [List.length_cons] at hb
    simp only [List.cons_append, readAttribute?, dropWhile_append hstops]
    -- a value may stand behind the name; each part is read from an end of the text
    split
    · rw [skipSpace?_append hy hstart hname' (show _ < bound by omega)
        (by rw [List.length_append]; omega)]
      cases hspace : skipSpace? (fun s => some (start s)) bound (x.dropWhile isAttributeChar) with
      | none => rfl
      | some r =>
        cases r with
        | nil => rfl
        | cons d value =>
          rw [Option.map_some, withStop_of_ne y (List.cons_ne_nil d value)]
          by_cases heq : d = '='
          · subst heq
            have hvalue := (List.suffix_cons _ _).trans (skipSpace?_suffix hstart hspace)
            have hvalue' := hname'.of_suffix hvalue
            have hle' := hvalue.length_le
            simp only [List.cons_append]
            rw [skipSpace?_append hy hstart hvalue' (show _ < bound by omega)
              (by rw [List.length_append]; omega)]
            cases hspace' : skipSpace? (fun s => some (start s)) bound value with
            | none => rfl
            | some v =>
              have hv := skipSpace?_suffix hstart hspace'
              have hle'' := hv.length_le
              simp only [Option.map_some]
              by_cases hnil : v = []
              · rw [hnil]
                rfl
              · rw [withStop_of_ne y hnil]
                exact readValue?_append hy hstart (hvalue'.of_suffix hv) (by omega) (by omega)
          · simp [heq]
    · rfl

theorem readAttributes?_append {bound bound' : Nat} {x : List Char} (hx : EndsInLine x)
    (hb : x.length < bound) (hb' : (x ++ y).length < bound') :
    readAttributes? (fun s => some (start s)) bound' (x ++ y) =
      (readAttributes? (fun s => some (start s)) bound x).map (· ++ y) := by
  induction bound generalizing bound' x with
  | zero => omega
  | succ bound ih =>
    obtain ⟨bound', rfl⟩ : ∃ n, bound' = n + 1 := ⟨bound' - 1, by omega⟩
    rw [readAttributes?_eq, readAttributes?_eq,
      skipSpace?_append hy hstart hx (show _ < bound + 1 by omega) hb']
    cases hspace : skipSpace? (fun s => some (start s)) (bound + 1) x with
    | none => rfl
    | some r =>
      have hr := skipSpace?_suffix hstart hspace
      have hr' := hx.of_suffix hr
      have hle := hr.length_le
      simp only [Option.map_some, Option.bind_some]
      by_cases hnil : r = []
      · -- no bracket closes the tag
        rw [hnil]
        simp [withStop, Text.stripStart?, readAttribute?]
      · have hhead : (x ++ y).head? = x.head? := by
          cases x with
          | nil => exact absurd (List.suffix_nil.1 hr) hnil
          | cons => rfl
        rw [List.length_append] at hb'
        rw [withStop_of_ne y hnil, hhead, stripStart?_append hy.atLineEnd (by decide),
          stripStart?_append hy.atLineEnd (by decide)]
        cases Text.stripStart? ['>'] r with
        | some rest => rfl
        | none =>
          cases Text.stripStart? ['/', '>'] r with
          | some rest => rfl
          | none =>
            simp only [Option.map_none]
            split
            · rw [readAttribute?_append hy hstart hr' (show _ < bound + 1 by omega)
                (by rw [List.length_append]; omega)]
              cases hattr : readAttribute? (fun s => some (start s)) (bound + 1) r with
              | none => rfl
              | some rest =>
                obtain ⟨hsuffix, hlt⟩ := readAttribute?_suffix hstart hattr
                exact ih (hr'.of_suffix hsuffix) (by omega) (by rw [List.length_append]; omega)
            · rfl

theorem readTag?_append {bound bound' : Nat} {x : List Char} (hx : EndsInLine x)
    (hb : x.length < bound) (hb' : (x ++ y).length < bound') :
    readTag? (fun s => some (start s)) bound' (x ++ y) =
      (readTag? (fun s => some (start s)) bound x).map (· ++ y) := by
  have hstops : Stops isTagNameChar y := stops_of_atLineEnd ⟨rfl, rfl⟩ hy.atLineEnd
  cases x with
  | nil => rcases hy.eq with rfl | rfl | rfl <;> rfl
  | cons c x =>
    rw [List.cons_append, List.length_cons, List.length_append] at hb'
    rw [List.length_cons] at hb
    by_cases hslash : c = '/'
    · subst hslash
      -- a closing tag: a name, and blanks up to the bracket
      cases x with
      | nil => rcases hy.eq with rfl | rfl | rfl <;> rfl
      | cons c x =>
        simp only [List.cons_append, readTag?, dropWhile_append hstops,
          dropBlanks_append hy.atLineEnd]
        split
        · cases dropBlanks (x.dropWhile isTagNameChar) with
          | nil => rcases hy.eq with rfl | rfl | rfl <;> rfl
          | cons d rest =>
            by_cases hd : d = '>'
            · subst hd
              rfl
            · simp [hd]
        · rfl
    -- an opening tag: a name, and attributes up to the bracket
    · have hopen (s : List Char) (n : Nat) : readTag? (fun s => some (start s)) n (c :: s) =
          if c.isAlpha then
            readAttributes? (fun s => some (start s)) n (s.dropWhile isTagNameChar)
          else none := by
        unfold readTag?
        split
        · rename_i h; cases h
        next heq => exact absurd (List.cons.inj heq).1 hslash
        next heq =>
          obtain ⟨rfl, rfl⟩ := List.cons.inj heq
          rfl
      have hname : x.dropWhile isTagNameChar <:+ x := List.dropWhile_suffix _
      have hle := hname.length_le
      rw [List.cons_append, hopen, hopen, dropWhile_append hstops]
      split
      · exact readAttributes?_append hy hstart (hx.tail.of_suffix hname) (by omega)
          (by rw [List.length_append]; omega)
      · rfl

end Start

end RawHtml

/-! ## Targets of links -/

omit hy in
theorem readTitleText?_suffix {start : List Char → Cursor} (hstart : LocalStart start y)
    {closing : Char} {bound : Nat} {s : List Char} {p : List Char × List Char}
    (h : readTitleText? start closing bound s = some p) : p.2 <:+ s := by
  induction bound generalizing s p with
  | zero => cases h
  | succ bound ih =>
    cases s with
    | nil => cases h
    | cons c s =>
      -- wherever the title goes on, it leaves an end of the text
      have hgo {front u : List Char} (hu : u <:+ c :: s)
          (h : (readTitleText? start closing bound u).map (fun p => (front ++ p.1, p.2)) = some p) :
          p.2 <:+ c :: s :=
        suffix_of_map_eq_some h (fun _ => rfl) fun _ hq => (ih hq).trans hu
      have hs : s <:+ c :: s := List.suffix_cons c s
      rw [readTitleText?_cons] at h
      split at h
      · obtain rfl := Option.some.inj h
        exact hs
      split at h
      · cases h
      split at h
      · exact hgo hs h
      split at h
      · exact hgo ((dropEscape_suffix _).trans
          ((Cursor.skipAll_suffix _).trans ((hstart.suffix s).trans hs))) h
      split at h
      · split at h
        · exact hgo ((List.drop_suffix _ s).trans hs) h
        · exact hgo hs h
      split at h
      next heq =>
        split at h
        · split at heq
          · subst heq
            exact hgo ((List.suffix_cons ..).trans hs) h
          · cases heq
        · exact hgo hs h
      · exact hgo hs h

theorem dropEscape_append {s : List Char} (hs : EndsInLine s) :
    dropEscape (s ++ y) = dropEscape s ++ y := by
  cases s with
  | nil => rcases hy.eq with rfl | rfl | rfl <;> rfl
  | cons c s =>
    by_cases hc : c = '\\'
    · subst hc
      cases s with
      | nil => exact absurd rfl (hs _ rfl).2
      | cons d s =>
        simp only [List.cons_append, dropEscape]
        split <;> rfl
    · simp [dropEscape, hc]

section Start

variable {start : List Char → Cursor} (hstart : LocalStart start y)
include hstart

theorem skipSeparator_append {x : List Char} (hx : EndsInLine x) :
    Behind y (skipSeparator start x) (skipSeparator start (x ++ y)) := by
  have hu := hx.of_suffix (dropBlanks_suffix x)
  rw [skipSeparator, skipSeparator, dropBlanks_append hy.atLineEnd]
  by_cases hnil : dropBlanks x = []
  · refine .inr ⟨by rw [hnil]; rfl, ?_⟩
    rw [hnil, List.nil_append, hy.splitLineEnd]
    cases y with
    | nil => rfl
    | cons c y =>
      have := hstart.rest_nil
      simp only [this]
      rfl
  · rw [splitLineEnd_append_of_ne hu hnil]
    refine .inl ?_
    cases hsplit : splitLineEnd (dropBlanks x) with
    | mk stop rest =>
      cases stop with
      | nil => rfl
      | cons c stop =>
        simp only [hstart.append, Cursor.rest_append, dropBlanks_append hy.atLineEnd]

omit hy in
theorem skipSeparator_suffix (s : List Char) : skipSeparator start s <:+ s := by
  have hsuffix := (splitLineEnd_suffix (dropBlanks s)).trans (dropBlanks_suffix s)
  rw [skipSeparator]
  cases hsplit : splitLineEnd (dropBlanks s) with
  | mk stop rest =>
    rw [hsplit] at hsuffix
    cases stop with
    | nil => exact hsuffix
    | cons c stop => exact (dropBlanks_suffix _).trans ((hstart.suffix rest).trans hsuffix)

/-- No title ends in the end of a line. -/
theorem readTitleText?_stop {closing : Char} (hclosing : isLineEnd closing = false) (bound : Nat) :
    readTitleText? start closing bound y = none := by
  have hreturn : closing ≠ '\r' := by rintro rfl; cases hclosing
  have hfeed (bound : Nat) : readTitleText? start closing bound ['\n'] = none := by
    have hclose : closing ≠ '\n' := by rintro rfl; cases hclosing
    have hplace : dropEscape (start []).skipAll.rest = [] := by
      have hrest : (start []).skipAll.rest = [] := by simp [Cursor.skipAll, hstart.rest_nil]
      rw [hrest]
      rfl
    cases bound with
    | zero => rfl
    | succ bound =>
      rw [readTitleText?_cons, if_neg hclose.symm]
      simp [hplace, readTitleText?_nil, isLineEnd]
  rcases hy.eq with rfl | rfl | rfl
  · exact readTitleText?_nil ..
  · exact hfeed bound
  · cases bound with
    | zero => rfl
    | succ bound =>
      rw [readTitleText?_cons, if_neg hreturn.symm]
      simp [hfeed]

theorem readTitleText?_append {closing : Char} (hclosing : isLineEnd closing = false)
    {bound bound' : Nat} {x : List Char} (hx : EndsInLine x) (hb : x.length < bound)
    (hb' : x.length < bound') :
    readTitleText? start closing bound' (x ++ y) =
      (readTitleText? start closing bound x).map (behindBy y) := by
  -- what a title has in front does not count for the text behind it
  have hgo {bound bound' : Nat} {u : List Char}
      (h : readTitleText? start closing bound' (u ++ y) =
        (readTitleText? start closing bound u).map (behindBy y)) (front : List Char) :
      (readTitleText? start closing bound' (u ++ y)).map (fun p => (front ++ p.1, p.2)) =
        ((readTitleText? start closing bound u).map fun p => (front ++ p.1, p.2)).map
          (behindBy y) := by
    rw [h]
    exact map_map_behindBy (front ++ ·) y _
  induction bound generalizing bound' x with
  | zero => omega
  | succ bound ih =>
    obtain ⟨bound', rfl⟩ : ∃ n, bound' = n + 1 := ⟨bound' - 1, by omega⟩
    cases x with
    | nil =>
      -- the title does not end
      rw [List.nil_append, readTitleText?_stop hy hstart hclosing, readTitleText?_nil]
      rfl
    | cons c x =>
      rw [List.length_cons] at hb hb'
      -- no line end is the last character, so what decides behind one stands in the text
      have hhead (hc : isLineEnd c = true) : (x ++ y).head? = x.head? := by
        obtain ⟨d, u, rfl⟩ := List.exists_cons_of_ne_nil (hx.ne_nil hc)
        rfl
      have hrest : (start x).skipAll.rest <:+ x := (Cursor.skipAll_suffix _).trans (hstart.suffix x)
      have hrest' := hx.tail.of_suffix hrest
      have hescape := (dropEscape_suffix (start x).skipAll.rest).trans hrest
      have hle := hescape.length_le
      have hplace : dropEscape (start (x ++ y)).skipAll.rest =
          dropEscape (start x).skipAll.rest ++ y := by
        rw [hstart.append, Cursor.skipAll_append hy.atLineEnd, Cursor.rest_append,
          dropEscape_append hy hrest']
      rw [List.cons_append, readTitleText?_cons, readTitleText?_cons, hplace,
        readReference?_append hy.atLineEnd]
      split
      · rfl
      split
      · rfl
      by_cases hc : isLineEnd c = true
      · rw [hhead hc]
        split
        · exact hgo (ih hx.tail (by omega) (by omega)) _
        · exact hgo (ih (hx.tail.of_suffix hescape) (by omega) (by omega)) _
      · have hreturn : c ≠ '\r' := by rintro rfl; exact hc rfl
        have hnot (s : List Char) : ¬(c = '\r' ∧ s.head? = some '\n') := fun h => hreturn h.1
        rw [if_neg (hnot _), if_neg (hnot _), if_neg hc, if_neg hc]
        split
        · -- a character reference, which is all in the text
          cases href : readReference? x with
          | none => exact hgo (ih hx.tail (by omega) (by omega)) _
          | some p =>
            obtain ⟨value, size⟩ := p
            have hsize := size_of_readReference? href
            have hdrop : (x ++ y).drop size = x.drop size ++ y :=
              List.drop_append_of_le_length hsize
            have hdrop' : (x.drop size).length ≤ x.length := (List.drop_suffix size x).length_le
            simp only [hdrop]
            exact hgo (ih (hx.tail.of_suffix (List.drop_suffix size x)) (by omega) (by omega)) _
        · -- a backslash is not the last character, so it has another one behind it
          by_cases hslash : c = '\\'
          · subst hslash
            cases x with
            | nil => exact absurd rfl (hx _ rfl).2
            | cons d x =>
              rw [List.length_cons] at hb hb'
              simp only [List.cons_append, if_true]
              split
              · exact hgo (ih hx.tail.tail (by omega) (show _ < bound' by omega)) [d]
              · exact hgo (ih hx.tail (Nat.lt_of_succ_lt_succ hb) (Nat.lt_of_succ_lt_succ hb'))
                  ['\\']
          · simp only [if_neg hslash]
            exact hgo (ih hx.tail (by omega) (by omega)) _

theorem LinkTarget.titleBehind_append {bound bound' : Nat} {r r' : List Char}
    (h : Behind y r r') (hr : EndsInLine r) (hb : r.length ≤ bound) (hb' : r.length ≤ bound') :
    (titleBehind start bound' r').1 = (titleBehind start bound r).1 ∧
      Behind y (titleBehind start bound r).2 (titleBehind start bound' r').2 := by
  rcases h with rfl | ⟨rfl, rfl⟩
  · cases r with
    | nil =>
      -- a line end opens no title
      rcases hy.eq with rfl | rfl | rfl <;> exact ⟨rfl, .inl rfl⟩
    | cons c r =>
      rw [List.length_cons] at hb hb'
      cases hmark : closingMark? c with
      | none => simp [titleBehind, hmark, Behind]
      | some closing =>
        have hclosing : isLineEnd closing = false := by
          unfold closingMark? at hmark
          split at hmark
          next h =>
            obtain rfl := Option.some.inj hmark
            rcases h with rfl | rfl <;> rfl
          · split at hmark
            · obtain rfl := Option.some.inj hmark
              rfl
            · cases hmark
        have htext := readTitleText?_append hy hstart hclosing hr.tail
          (show _ < bound by omega) (show _ < bound' by omega)
        simp only [titleBehind, List.cons_append, List.head?_cons, Option.bind_eq_bind,
          Option.bind_some, hmark, List.drop_succ_cons, List.drop_zero, htext]
        cases heq : readTitleText? start closing bound r with
        | none => exact ⟨rfl, .inl rfl⟩
        | some p =>
          have hsuffix := readTitleText?_suffix hstart heq
          exact ⟨rfl, skipSeparator_append hy hstart (hr.tail.of_suffix hsuffix)⟩
  · exact ⟨rfl, .inr ⟨rfl, rfl⟩⟩

theorem LinkTarget.read?_append (plain : List Char → List Char) {bound bound' : Nat} {x : List Char}
    (hx : EndsInLine x) (hb : x.length ≤ bound) (hb' : x.length ≤ bound') :
    LinkTarget.read? start plain bound' (x ++ y) =
      (LinkTarget.read? start plain bound x).map (behindBy y) := by
  have hclose (destination : List Char) {r r' : List Char} (h : Behind y r r') (hr : r <:+ x) :
      ((Text.stripStart? [')'] (titleBehind start bound' r').2).map fun rest =>
        (LinkTarget.mk (unescape (plain destination)) (titleBehind start bound' r').1, rest)) =
      ((Text.stripStart? [')'] (titleBehind start bound r).2).map fun rest =>
        (LinkTarget.mk (unescape (plain destination)) (titleBehind start bound r).1, rest)).map
        (behindBy y) := by
    have hle := hr.length_le
    obtain ⟨htitle, hbehind⟩ := titleBehind_append hy hstart h (hx.of_suffix hr)
      (show _ ≤ bound by omega) (show _ ≤ bound' by omega)
    rw [htitle]
    rcases hbehind with heq | ⟨heq, heq'⟩
    · rw [heq, stripStart?_append hy.atLineEnd (by decide), Option.map_map, Option.map_map]
      rfl
    · rw [heq, heq']
      rfl
  have hsuffix := skipSeparator_suffix hstart x
  rw [read?_eq, read?_eq]
  rcases skipSeparator_append hy hstart hx with heq | ⟨heq, heq'⟩
  · rw [heq, readDestination?_append hy.atLineEnd _ (hx.of_suffix hsuffix)]
    cases hdest : readDestination? maxNesting (skipSeparator start x) with
    | none => rfl
    | some p =>
      have hp := (readDestination?_suffix hdest).trans hsuffix
      exact hclose p.1 (skipSeparator_append hy hstart (hx.of_suffix hp))
        ((skipSeparator_suffix hstart _).trans hp)
  · -- the text ends before the destination
    rw [heq, heq']
    exact hclose [] (.inr ⟨rfl, rfl⟩) List.nil_suffix

end Start

end Stop

end Treatise.Markdown
