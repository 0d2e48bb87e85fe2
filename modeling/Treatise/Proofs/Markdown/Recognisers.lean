import Treatise.Proofs.Markdown.Tails

/-!
# What begins a line, before a tail

Headings, rules, fences, items, tables and raw HTML are recognised by the characters of a line. They
are the same where the end of the line and more text follows.

* the lemmas named `…_append` — the text behind may be any that begins with a line end;
* the lemmas named `…_tail` — what is behind the line is read too, so that a tail must follow.
-/

namespace Treatise.Markdown

theorem drop_length_takeWhile (p : Char → Bool) (s : List Char) :
    s.drop (s.takeWhile p).length = s.dropWhile p := by
  induction s with
  | nil => rfl
  | cons c s ih =>
    rw [List.takeWhile_cons, List.dropWhile_cons]
    split
    · exact ih
    · rfl

theorem drop_length_takeWhile_append {p : Char → Bool} {y : List Char} (h : Stops p y)
    (x : List Char) : (x ++ y).drop (x.takeWhile p).length = x.dropWhile p ++ y := by
  rw [← takeWhile_append h, drop_length_takeWhile, dropWhile_append h]

theorem findSome?_congr {α β : Type} {f g : α → Option β} {l : List α}
    (h : ∀ a ∈ l, f a = g a) : l.findSome? f = l.findSome? g := by
  induction l with
  | nil => rfl
  | cons a l ih =>
    rw [List.forall_mem_cons] at h
    rw [List.findSome?_cons, List.findSome?_cons, h.1, ih h.2]

theorem markedEnd?_eq (s : List Char) :
    markedEnd? s =
      match verbatimEnd? s with
      | some closing => some closing
      | none =>
        if (Text.stripStart? ['!', '-', '-'] s).isSome then some "-->"
        else if s.head? = some '?' then some "?>"
        else if s.head? = some '!' then
          if (s.drop 1).head?.any Char.isAlpha then some ">"
          else if (Text.after? "[CDATA[" (s.drop 1)).isSome then some "]]>"
          else none
        else none := by
  unfold markedEnd?
  cases verbatimEnd? s with
  | some closing => rfl
  | none =>
    have hnil : Text.after? "[CDATA[" [] = none := rfl
    dsimp only
    split
    · simp [Text.stripStart?]
    · simp [Text.stripStart?]
    next c rest hdash =>
      -- a `!` that no comment follows
      have hne : ¬(Text.stripStart? ['!', '-', '-'] ('!' :: c :: rest)).isSome := by
        rw [Option.isSome_iff_exists]
        rintro ⟨r, hr⟩
        have := Text.stripStart?_eq_some_iff.1 hr
        simp only [List.cons_append, List.nil_append, List.cons.injEq, true_and] at this
        exact hdash _ this.1 this.2
      rw [if_neg hne]
      rfl
    next hbang hquestion hmark =>
      -- neither a `?` nor a `!` with anything behind it
      cases s with
      | nil => rfl
      | cons a s =>
        have hq : a ≠ '?' := by rintro rfl; exact hquestion _ rfl
        by_cases ha : a = '!'
        · subst ha
          cases s with
          | nil => simp [Text.stripStart?, hnil]
          | cons b s => exact absurd rfl (hmark b s)
        · simp [Text.stripStart?, hq, ha, Ne.symm ha]

/-- The name of a block element begins a text, and ends as a tag may end there. -/
def namesBlockElement (s : List Char) : Bool :=
  blockElements.contains (String.ofList ((s.takeWhile Char.isAlphanum).map Char.toLower)) &&
    match s.drop (s.takeWhile Char.isAlphanum).length with
    | [] => true
    | '/' :: '>' :: _ => true
    | c :: _ => c == ' ' || c == '\t' || c == '>' || isLineEnd c

theorem beginsBlockElement_of_ne {s : List Char} (h : s.head? ≠ some '/') :
    beginsBlockElement s = namesBlockElement s := by
  cases s with
  | nil => rfl
  | cons c s =>
    have hc : c ≠ '/' := by rintro rfl; exact h rfl
    unfold beginsBlockElement
    split
    next heq => exact absurd (List.cons.inj heq).1 hc
    next => rfl

/-- How the block of raw HTML ends that a text begins. -/
def htmlStart? (interrupting : Bool) (s : List Char) : Option HtmlBlockEnd :=
  match s with
  | '<' :: s => htmlBlock? interrupting s
  | _ => none

section Line

variable {y : List Char} (hy : atLineEnd y = true)
include hy

/-- A character behind the text is no mark. -/
theorem head?_ne {c : Char} (hc : isLineEnd c = false) : y.head? ≠ some c := by
  cases y with
  | nil => nofun
  | cons d y =>
    intro h
    obtain rfl : d = c := by simpa using h
    rw [show isLineEnd d = true from hy] at hc
    cases hc

theorem head?_append {c : Char} (hc : isLineEnd c = false) (x : List Char) :
    (x ++ y).head? = some c ↔ x.head? = some c := by
  cases x with
  | nil => simp [head?_ne hy hc]
  | cons => rfl

theorem isRule_append (x : List Char) : isRule (x ++ y) = isRule x := by
  cases x with
  | nil =>
    cases y with
    | nil => rfl
    | cons c y =>
      rcases isLineEnd_iff.1 hy with rfl | rfl <;> rfl
  | cons c x =>
    have := lineText_append hy (c :: x)
    simp only [List.cons_append] at this
    simp only [List.cons_append, isRule, this]

theorem headingLevel?_append (x : List Char) : headingLevel? (x ++ y) = headingLevel? x := by
  have hstop : Stops (· == '#') y := stops_of_atLineEnd ⟨rfl, rfl⟩ hy
  simp only [headingLevel?, takeWhile_append hstop, drop_length_takeWhile_append hstop,
    drop_length_takeWhile]
  cases x.dropWhile (· == '#') with
  | cons => rfl
  | nil =>
    cases y with
    | nil => rfl
    | cons c y => simp [isAnyBlank, show isLineEnd c = true from hy]

theorem underlineLevel?_append (x : List Char) :
    underlineLevel? (x ++ y) = underlineLevel? x := by
  cases x with
  | nil =>
    cases y with
    | nil => rfl
    | cons c y => rcases isLineEnd_iff.1 hy with rfl | rfl <;> rfl
  | cons c x =>
    simp only [List.cons_append, underlineLevel?]
    by_cases hc : c = '=' ∨ c = '-'
    · have hstop : Stops (· == c) y :=
        stops_of_atLineEnd (by rcases hc with rfl | rfl <;> exact ⟨rfl, rfl⟩) hy
      have hdrop := dropWhile_append hstop (c :: x)
      rw [List.cons_append] at hdrop
      simp only [hdrop, isBlankLine_append hy]
    · simp only [hc, false_and, if_false]

theorem listMarker_read?_append (x : List Char) :
    ListMarker.read? (x ++ y) = (ListMarker.read? x).map fun m => (m.1, m.2.1, m.2.2 ++ y) := by
  have hdigits : Stops Char.isDigit y := stops_of_atLineEnd ⟨rfl, rfl⟩ hy
  cases x with
  | nil =>
    cases y with
    | nil => rfl
    | cons c y => rcases isLineEnd_iff.1 hy with rfl | rfl <;> rfl
  | cons c x =>
    have htake := takeWhile_append hdigits (c :: x)
    have hdrop := drop_length_takeWhile_append hdigits (c :: x)
    rw [List.cons_append] at htake hdrop
    simp only [List.cons_append, ListMarker.read?, htake, hdrop, drop_length_takeWhile]
    split
    · rfl
    cases (c :: x).dropWhile Char.isDigit with
    | cons d r =>
      simp only [List.cons_append]
      split <;> rfl
    | nil =>
      cases y with
      | nil => rfl
      | cons d y => rcases isLineEnd_iff.1 hy with rfl | rfl <;> simp

theorem itemStart?_append (x : List Char) :
    itemStart? (x ++ y) = (itemStart? x).map fun m => (m.1, m.2 ++ y) := by
  rw [itemStart?, itemStart?, listMarker_read?_append hy]
  cases ListMarker.read? x with
  | none => rfl
  | some m =>
    obtain ⟨m, n, rest⟩ := m
    cases rest with
    | cons c r =>
      simp only [Option.map_some, List.cons_append]
      split <;> rfl
    | nil =>
      cases y with
      | nil => rfl
      | cons c y => simp [show isLineEnd c = true from hy]

/-! ## Raw HTML -/

theorem stripStart?_append {p : List Char} (hp : p.any isLineEnd = false) (x : List Char) :
    Text.stripStart? p (x ++ y) = (Text.stripStart? p x).map (· ++ y) := by
  induction p generalizing x with
  | nil => rfl
  | cons c p ih =>
    rw [List.any_cons, Bool.or_eq_false_iff] at hp
    cases x with
    | nil =>
      cases y with
      | nil => rfl
      | cons d y =>
        have hne : c ≠ d := by
          rintro rfl
          exact head?_ne hy hp.1 rfl
        simp [Text.stripStart?, hne]
    | cons d x =>
      simp only [List.cons_append, Text.stripStart?]
      split
      · exact ih hp.2 x
      · rfl

/-- The start of a text, each character changed in some way, is a word. -/
theorem take_map_append_eq_iff {f : Char → Char}
    (hf : ∀ c, isLineEnd c = true → isLineEnd (f c) = true)
    {word : List Char} (hword : word.any isLineEnd = false) (x : List Char) :
    ((x ++ y).take word.length).map f = word ↔ (x.take word.length).map f = word := by
  induction word generalizing x with
  | nil => simp
  | cons c word ih =>
    rw [List.any_cons, Bool.or_eq_false_iff] at hword
    cases x with
    | nil =>
      cases y with
      | nil => rfl
      | cons d y =>
        have hne : f d ≠ c := by
          intro h
          have := hf d hy
          rw [h, hword.1] at this
          cases this
        simp [hne]
    | cons d x =>
      have htail := ih hword.2 x
      simpa using fun _ => by simpa using htail

theorem verbatimEnd?_append (x : List Char) : verbatimEnd? (x ++ y) = verbatimEnd? x := by
  have hlower : ∀ c, isLineEnd c = true → isLineEnd c.toLower = true := by
    intro c hc
    rcases isLineEnd_iff.1 hc with rfl | rfl <;> decide
  have hwords : ∀ e ∈ verbatimElements, e.1.toList.any isLineEnd = false := by decide
  unfold verbatimEnd?
  refine findSome?_congr fun ⟨name, closing⟩ hmem => ?_
  have hiff := take_map_append_eq_iff hy hlower (hwords _ hmem) x
  simp only [String.length_toList] at hiff
  simp only [← String.toList_inj, String.toList_ofList, hiff]
  split
  next hname =>
    have hlen : name.length ≤ x.length := by
      have := congrArg List.length hname
      rw [List.length_map, List.length_take, String.length_toList] at this
      omega
    rw [List.drop_append_of_le_length hlen]
    cases x.drop name.length with
    | cons => rfl
    | nil =>
      cases y with
      | nil => rfl
      | cons c y => simp [isAnyBlank, show isLineEnd c = true from hy]
  next => rfl

theorem markedEnd?_append (x : List Char) : markedEnd? (x ++ y) = markedEnd? x := by
  have hcomment := stripStart?_append hy (show ['!', '-', '-'].any isLineEnd = false by decide) x
  have hquestion : (x ++ y).head? = some '?' ↔ x.head? = some '?' := head?_append hy rfl x
  have hbang : (x ++ y).head? = some '!' ↔ x.head? = some '!' := head?_append hy rfl x
  rw [markedEnd?_eq, markedEnd?_eq, verbatimEnd?_append hy, hcomment, Option.isSome_map]
  simp only [hquestion, hbang]
  split
  · rfl
  · split
    · rfl
    split
    · rfl
    split
    next hhead =>
      obtain ⟨x, rfl⟩ := List.head?_eq_some_iff.1 hhead
      have hdata := stripStart?_append hy (show "[CDATA[".toList.any isLineEnd = false by decide) x
      have halpha : (x ++ y).head?.any Char.isAlpha = x.head?.any Char.isAlpha := by
        cases x with
        | cons => rfl
        | nil =>
          cases y with
          | nil => rfl
          | cons c y => rcases isLineEnd_iff.1 hy with rfl | rfl <;> rfl
      simp only [List.cons_append, List.drop_succ_cons, List.drop_zero, halpha, Text.after?, hdata,
        Option.isSome_map]
    next => rfl

theorem namesBlockElement_append (x : List Char) :
    namesBlockElement (x ++ y) = namesBlockElement x := by
  have hstop : Stops Char.isAlphanum y := stops_of_atLineEnd ⟨rfl, rfl⟩ hy
  rw [namesBlockElement, namesBlockElement, takeWhile_append hstop,
    drop_length_takeWhile_append hstop, drop_length_takeWhile]
  congr 1
  match x.dropWhile Char.isAlphanum, y with
  | [], [] => rfl
  | [], c :: y => rcases isLineEnd_iff.1 hy with rfl | rfl <;> rfl
  | [c], [] => rfl
  | [c], d :: y =>
    by_cases hc : c = '/'
    · subst hc
      rcases isLineEnd_iff.1 hy with rfl | rfl <;> rfl
    · simp [hc]
  | c :: d :: r, y =>
    by_cases hc : c = '/'
    · by_cases hd : d = '>'
      · subst hc hd; rfl
      · simp [hd]
    · simp [hc]

theorem beginsBlockElement_append (x : List Char) :
    beginsBlockElement (x ++ y) = beginsBlockElement x := by
  have hslash : (x ++ y).head? = some '/' ↔ x.head? = some '/' := head?_append hy rfl x
  by_cases h : x.head? = some '/'
  · obtain ⟨x, rfl⟩ := List.head?_eq_some_iff.1 h
    exact namesBlockElement_append hy x
  · rw [beginsBlockElement_of_ne h, beginsBlockElement_of_ne (mt hslash.1 h),
      namesBlockElement_append hy]

theorem htmlBlock?_append (interrupting : Bool) (x : List Char) :
    htmlBlock? interrupting (x ++ y) = htmlBlock? interrupting x := by
  rw [htmlBlock?, markedEnd?_append hy, beginsBlockElement_append hy, isLoneTag,
    lineText_append hy]
  rfl

theorem htmlStart?_append (interrupting : Bool) (x : List Char) :
    htmlStart? interrupting (x ++ y) = htmlStart? interrupting x := by
  cases x with
  | nil =>
    cases y with
    | nil => rfl
    | cons c y => rcases isLineEnd_iff.1 hy with rfl | rfl <;> rfl
  | cons c x =>
    by_cases hc : c = '<'
    · subst hc
      exact htmlBlock?_append hy interrupting x
    · simp [htmlStart?, hc]

end Line

section Valid

variable {t : Tail} (ht : t.Valid) {x : List Char} (hx : EndsInLine x)
include ht hx

/-! ## Fences -/

theorem fence?_tail :
    fence? (x ++ t.text) = (fence? x).map fun f => (f.1, f.2.1, f.2.2 ++ t.text) := by
  cases x with
  | nil =>
    have hy := ht.atLineEnd
    rw [List.nil_append]
    cases hs : t.text with
    | nil => rfl
    | cons c y =>
      rw [hs] at hy
      rcases isLineEnd_iff.1 hy with rfl | rfl <;> rfl
  | cons c x =>
    by_cases hc : c = '\x60' ∨ c = '~'
    · have hstop : Stops (· == c) t.text :=
        stops_of_atLineEnd (by rcases hc with rfl | rfl <;> exact ⟨rfl, rfl⟩) ht.atLineEnd
      have htake := takeWhile_append hstop (c :: x)
      have hdrop := drop_length_takeWhile_append hstop (c :: x)
      have hinfo := takeLiteral_tail ht
        (hx.of_suffix (List.dropWhile_suffix (l := c :: x) (· == c)))
      rw [List.cons_append] at htake hdrop
      simp only [List.cons_append, fence?, if_pos hc, htake, hdrop, drop_length_takeWhile, hinfo,
        List.contains_append, ht.contains_stopAt _ (show isLineEnd '\x60' = false from rfl),
        Bool.or_false]
      split <;> rfl
    · simp [fence?, hc]

/-! ## Tables -/

theorem delimiterRow?_tail :
    delimiterRow? (x ++ t.text) = (delimiterRow? x).map fun r => (r.1, t.after r.2) := by
  have hend := ht.atLineEnd_stopAt (takeLine x).2
  have hspaces : Stops (· == ' ') (t.stopAt (takeLine x).2) := stops_of_atLineEnd ⟨rfl, rfl⟩ hend
  have hpipe := ht.contains_stopAt (takeLine x).2 (show isLineEnd '|' = false from rfl)
  have hhyphen := ht.contains_stopAt (takeLine x).2 (show isLineEnd '-' = false from rfl)
  simp only [delimiterRow?, takeLine_tail ht hx, takeWhile_append hspaces,
    drop_length_takeWhile_append hspaces, drop_length_takeWhile, lineText_append hend,
    List.contains_append, hpipe, hhyphen, Bool.or_false]
  split
  · split <;> rfl
  · split <;> rfl

theorem tableHead?_tail (head : List Char) :
    tableHead? head (x ++ t.text) = (tableHead? head x).map t.after := by
  simp only [tableHead?, delimiterRow?_tail ht hx]
  split
  · rfl
  · cases delimiterRow? x with
    | none => rfl
    | some r =>
      simp only [Option.map_some]
      split <;> rfl

end Valid

theorem length_readCell (s : List Char) : (readCell s).2.length ≤ s.length := by
  fun_induction readCell s <;> simp_all <;> omega

/-! ## Rows -/

/-- The text behind the mark before a cell. -/
def behindPipe (s : List Char) : List Char :=
  match s with
  | '|' :: s => s
  | s => s

/-- A cell and the mark before it are not empty. -/
theorem length_readCell_lt {s : List Char} (h : dropBlanks (behindPipe s) ≠ []) :
    (readCell (dropBlanks (behindPipe s))).2.length < s.length := by
  have hrest := length_readCell (dropBlanks (behindPipe s))
  have hblanks := (dropBlanks_suffix (behindPipe s)).length_le
  cases s with
  | nil => exact absurd rfl h
  | cons c s =>
    -- the mark, a blank or the first character of the cell is left behind
    by_cases hc : c = '|'
    · subst hc
      exact Nat.lt_succ_of_le (hrest.trans hblanks)
    · have hself : behindPipe (c :: s) = c :: s := by
        unfold behindPipe
        split
        next heq => exact absurd (List.cons.inj heq).1 hc
        next => rfl
      rw [hself] at hrest ⊢
      by_cases hblank : isInlineBlank c = true
      · have hshort := (dropBlanks_suffix s).length_le
        rw [show dropBlanks (c :: s) = dropBlanks s from List.dropWhile_cons_of_pos hblank] at hrest ⊢
        exact Nat.lt_succ_of_le (hrest.trans hshort)
      · rw [show dropBlanks (c :: s) = c :: s from List.dropWhile_cons_of_neg hblank]
        unfold readCell
        split
        next heq => cases heq
        next u heq =>
          have := length_readCell u
          rw [heq, List.length_cons, List.length_cons]
          exact Nat.lt_add_right 1 (Nat.lt_succ_of_le this)
        next d u _ heq =>
          obtain ⟨rfl, rfl⟩ := List.cons.inj heq
          rw [if_neg hc]
          exact Nat.lt_succ_of_le (length_readCell _)

theorem rowCells_eq {bound bound' : Nat} {s : List Char} (h : s.length < bound)
    (h' : s.length < bound') : rowCells bound s = rowCells bound' s := by
  induction bound generalizing bound' s with
  | zero => omega
  | succ bound ih =>
    obtain ⟨bound', rfl⟩ : ∃ n, bound' = n + 1 := ⟨bound' - 1, by omega⟩
    show (if (dropBlanks (behindPipe s)).isEmpty then [] else
        (readCell (dropBlanks (behindPipe s))).1 ::
          rowCells bound (readCell (dropBlanks (behindPipe s))).2) =
      if (dropBlanks (behindPipe s)).isEmpty then [] else
        (readCell (dropBlanks (behindPipe s))).1 ::
          rowCells bound' (readCell (dropBlanks (behindPipe s))).2
    split
    · rfl
    next hne =>
      have hlt := length_readCell_lt (by simpa using hne)
      rw [ih (by omega) (show _ < bound' by omega)]

theorem row_append {line stop : List Char} (hstop : atLineEnd stop = true) :
    row (line ++ stop) = row line := by
  have hlen : (lineText line).length ≤ line.length :=
    (List.takeWhile_prefix (!isLineEnd ·)).length_le
  rw [row, lineText_append hstop, row]
  exact rowCells_eq (by rw [List.length_append]; omega) (by omega)

/-! ## Headings -/

theorem headingText_append {line stop : List Char} (hstop : atLineEnd stop = true) :
    headingText (line ++ stop) = headingText line := by
  rw [headingText, dropBlanks_append hstop, lineText_append hstop]
  rfl

end Treatise.Markdown
