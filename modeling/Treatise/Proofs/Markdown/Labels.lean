import Treatise.Proofs.Markdown.Following

/-!
# Labels, destinations and titles before a tail

A label or a title may go on in the next line, and so it may go up to the end of a text. It does not
end there: the line behind the text is blank, and a label or a title ends before that or is none.

* `LineStep.Local` — how lines go on is seen in the line;
* **`LinkDefinition.read?_tail`** — a link definition, where a tail follows the text.
-/

namespace Treatise.Markdown

/-- What was read of a text, where more text follows. -/
def behindBy {α : Type} (y : List Char) (p : α × List Char) : α × List Char := (p.1, p.2 ++ y)

/-- What is read before does not count for the text behind. -/
theorem map_map_behindBy {α β : Type} (f : α → β) (y : List Char) (o : Option (α × List Char)) :
    (o.map (behindBy y)).map (fun p => (f p.1, p.2)) =
      (o.map fun p => (f p.1, p.2)).map (behindBy y) := by
  rw [Option.map_map, Option.map_map]
  rfl

/-- Readers in a row, where each reads of a text what it reads of the other one. -/
theorem bind_map_eq_map {α α' β β' : Type} {o : Option α} {g : α → α'} {h : β → β'}
    {f : α → Option β} {f' : α' → Option β'} (hf : ∀ a, o = some a → f' (g a) = (f a).map h) :
    (o.map g).bind f' = (o.bind f).map h := by
  cases o with
  | none => rfl
  | some a => exact hf a rfl

/-- What is read before does not count for what is left behind it. -/
theorem suffix_of_map_eq_some {α β : Type} {o : Option (α × List Char)}
    {g : α × List Char → β × List Char} {p : β × List Char} (h : o.map g = some p)
    (hg : ∀ q, (g q).2 = q.2) {s : List Char} (ho : ∀ q, o = some q → q.2 <:+ s) : p.2 <:+ s := by
  obtain ⟨q, hq, rfl⟩ := Option.map_eq_some_iff.1 h
  rw [hg]
  exact ho q hq

/-- A line step sees of a text with a tail what it sees of the text alone, and the line behind the
text is blank. -/
structure LineStep.Local (next : LineStep) (t : Tail) : Prop where
  suffix {s : List Char} {c : Cursor} (h : next s = some c) : c.rest <:+ s
  within {r : List Char} (hr : EndsInLine r) (hne : r ≠ []) :
    next (r ++ t.text) = (next r).map (·.append t.text)
  behind {c : Cursor} (h : next t.behind = some c) : Blank c.rest

/-! ## Labels -/

section Suffix

variable {next : LineStep} (hnext : ∀ {s c}, next s = some c → c.rest <:+ s)
include hnext

theorem skipLabelBlanks?_suffix {c : Char} {s r : List Char} {n : Nat} (hc : isAnyBlank c = true)
    (h : skipLabelBlanks? next (c :: s) = some (n, r)) : r <:+ s := by
  -- something is skipped: the first blank, or the line end
  have hshort : (splitLineEnd ((c :: s).dropWhile isInlineBlank)).2 <:+ s := by
    by_cases hblank : isInlineBlank c = true
    · rw [List.dropWhile_cons_of_pos hblank]
      exact (splitLineEnd_suffix _).trans (List.dropWhile_suffix _)
    · rw [List.dropWhile_cons_of_neg hblank]
      exact skipLineEnd_suffix_of_isLineEnd (by simpa [isAnyBlank, hblank] using hc) s
  rw [skipLabelBlanks?] at h
  dsimp only at h
  split at h
  · obtain ⟨-, rfl⟩ := Prod.mk.inj (Option.some.inj h)
    exact hshort
  · split at h
    · cases h
    next place heq =>
      split at h
      · cases h
      · obtain ⟨-, rfl⟩ := Prod.mk.inj (Option.some.inj h)
        exact (List.dropWhile_suffix _).trans ((hnext heq).trans hshort)

theorem readLabelText?_suffix (bound weight : Nat) (s : List Char) {p : List Char × List Char}
    (h : readLabelText? next bound weight s = some p) :
    p.2 <:+ s ∧ p.2.length < s.length := by
  induction bound generalizing weight s p with
  | zero => cases h
  | succ bound ih =>
    -- wherever the label goes on, it leaves less than there was
    have hcons : ∀ {c : Char} {r u : List Char} {weight : Nat} {q : List Char × List Char},
        r <:+ u → readLabelText? next bound weight r = some q →
          q.2 <:+ c :: u ∧ q.2.length < (c :: u).length := by
      intro c r u weight q hr hq
      obtain ⟨hsuffix, hlt⟩ := ih weight r hq
      have hle := hr.length_le
      rw [List.length_cons]
      exact ⟨(hsuffix.trans hr).trans (List.suffix_cons c u), by omega⟩
    unfold readLabelText? at h
    split at h
    · cases h
    split at h
    · cases h
    next c s =>
      obtain ⟨q, hq, rfl⟩ := Option.map_eq_some_iff.1 h
      exact hcons (q := q) (List.suffix_cons c s) hq
    next c s _ =>
      split at h
      · obtain rfl := Option.some.inj h
        exact ⟨List.suffix_cons c s, Nat.lt_succ_self _⟩
      split at h
      · cases h
      split at h
      next hblank =>
        split at h
        · cases h
        next heq =>
          obtain ⟨q, hq, rfl⟩ := Option.map_eq_some_iff.1 h
          exact hcons (q := q) (skipLabelBlanks?_suffix hnext hblank heq) hq
      · obtain ⟨q, hq, rfl⟩ := Option.map_eq_some_iff.1 h
        exact hcons (q := q) (List.suffix_refl s) hq

end Suffix

theorem readLabelText?_nil (next : LineStep) (bound weight : Nat) :
    readLabelText? next bound weight [] = none := by
  cases bound with
  | zero => rfl
  | succ bound => rw [readLabelText?]; split <;> rfl

theorem readLabelText?_cons (next : LineStep) (bound weight : Nat) {c : Char} (hc : c ≠ '\\')
    (s : List Char) :
    readLabelText? next (bound + 1) weight (c :: s) =
      if maxLabelWeight ≤ weight then none
      else if c = ']' then some ([], s)
      else if c = '[' then none
      else if isAnyBlank c then
        match skipLabelBlanks? next (c :: s) with
        | none => none
        | some (blanks, s) =>
          (readLabelText? next bound (weight + blanks) s).map fun p => (' ' :: p.1, p.2)
      else
        (readLabelText? next bound (weight + if c.toNat < 0x80 then 0 else c.utf8Size) s).map
          fun p => (c :: p.1, p.2) := by
  conv => lhs; unfold readLabelText?
  by_cases hweight : maxLabelWeight ≤ weight
  · rw [if_pos hweight, if_pos hweight]
  · rw [if_neg hweight, if_neg hweight]
    split
    next heq => cases heq
    next heq => exact absurd (List.cons.inj heq).1 hc
    next heq =>
      obtain ⟨rfl, rfl⟩ := List.cons.inj heq
      rfl

theorem skipLabelBlanks?_eq {next : LineStep} {x : List Char}
    (hblank : x.dropWhile isInlineBlank = []) :
    skipLabelBlanks? next x = some ((x.takeWhile isInlineBlank).length, []) := by
  rw [skipLabelBlanks?, hblank]
  rfl

section Valid

variable {t : Tail} (ht : t.Valid) {next : LineStep} (hnext : next.Local t)
include ht hnext

/-- Nothing follows blanks at the end of a text. -/
theorem skipLabelBlanks?_of_nil {x : List Char} (hblank : x.dropWhile isInlineBlank = [])
    {p : Nat × List Char} (h : skipLabelBlanks? next (x ++ t.text) = some p) : p.2 = [] := by
  have hstops : Stops isInlineBlank t.text := stops_of_atLineEnd ⟨rfl, rfl⟩ ht.atLineEnd
  rw [skipLabelBlanks?, dropWhile_append hstops, hblank, List.nil_append, ht.splitLineEnd] at h
  dsimp only at h
  split at h
  next hstop =>
    obtain rfl := Option.some.inj h
    exact ht.behind (by simpa using hstop)
  next =>
    split at h
    · cases h
    next place heq =>
      have := (hnext.behind heq).isBlankLine
      rw [if_pos (show atLineEnd (place.rest.dropWhile isInlineBlank) = true from this)] at h
      cases h

theorem skipLabelBlanks?_tail {x : List Char} (hx : EndsInLine x)
    (hmore : x.dropWhile isInlineBlank ≠ []) :
    skipLabelBlanks? next (x ++ t.text) = (skipLabelBlanks? next x).map (behindBy t.text) := by
  have hstops : Stops isInlineBlank t.text := stops_of_atLineEnd ⟨rfl, rfl⟩ ht.atLineEnd
  have hrest := hx.of_suffix (List.dropWhile_suffix (l := x) isInlineBlank)
  rw [skipLabelBlanks?, takeWhile_append hstops, dropWhile_append hstops,
    splitLineEnd_append_of_ne hrest hmore, skipLabelBlanks?]
  dsimp only
  split
  · rfl
  next hstop =>
    have hne : (splitLineEnd (x.dropWhile isInlineBlank)).2 ≠ [] := hrest.skipLineEnd_ne_nil hmore
    rw [hnext.within (hrest.of_suffix (splitLineEnd_suffix _)) hne]
    cases next (splitLineEnd (x.dropWhile isInlineBlank)).2 with
    | none => rfl
    | some place =>
      simp only [Option.map_some, Cursor.rest_append, takeWhile_append hstops,
        dropWhile_append hstops, atLineEnd_append ht.atLineEnd]
      split <;> rfl

theorem readLabelText?_text (bound weight : Nat) :
    readLabelText? next bound weight t.text = none := by
  cases bound with
  | zero => rfl
  | succ bound =>
    cases htext : t.text with
    | nil => exact readLabelText?_nil ..
    | cons c y =>
      have hend : isLineEnd c = true := by simpa [htext, atLineEnd] using ht.atLineEnd
      have hskip := fun p => skipLabelBlanks?_of_nil (x := []) (p := p) ht hnext rfl
      rw [List.nil_append, htext] at hskip
      have hne : c ≠ '\\' ∧ c ≠ ']' ∧ c ≠ '[' := by
        rcases isLineEnd_iff.1 hend with rfl | rfl <;> decide
      have hany : isAnyBlank c = true := by rw [isAnyBlank, hend, Bool.or_true]
      rw [readLabelText?_cons next _ _ hne.1, if_neg hne.2.1, if_neg hne.2.2, if_pos hany]
      split
      · rfl
      · split
        · rfl
        next n r heq =>
          obtain rfl : r = [] := hskip _ heq
          rw [readLabelText?_nil]
          rfl

theorem readLabelText?_tail {bound bound' weight : Nat} {x : List Char} (hx : EndsInLine x)
    (hb : x.length < bound) (hb' : x.length < bound') :
    readLabelText? next bound' weight (x ++ t.text) =
      (readLabelText? next bound weight x).map (behindBy t.text) := by
  induction bound generalizing bound' weight x with
  | zero => omega
  | succ bound ih =>
    obtain ⟨bound', rfl⟩ : ∃ n, bound' = n + 1 := ⟨bound' - 1, by omega⟩
    -- the rest of a text that has got shorter
    have hrec : ∀ {c : Char} {r u : List Char} {weight : Nat} {f : List Char → List Char},
        x = c :: u → r <:+ u →
          (readLabelText? next bound' weight (r ++ t.text)).map (fun p => (f p.1, p.2)) =
            ((readLabelText? next bound weight r).map fun p => (f p.1, p.2)).map
              (behindBy t.text) := by
      intro c r u weight f hx' hr
      have hle := hr.length_le
      rw [hx', List.length_cons] at hb hb'
      rw [ih (hx.of_suffix (hr.trans (hx' ▸ List.suffix_cons c u))) (by omega) (by omega),
        map_map_behindBy]
    cases x with
    | nil => rw [readLabelText?_nil, List.nil_append, readLabelText?_text ht hnext]; rfl
    | cons c u =>
      by_cases hc : c = '\\'
      · subst hc
        cases u with
        | nil => exact absurd rfl (hx _ rfl).2
        | cons c u =>
          simp only [List.cons_append, readLabelText?]
          split
          · rfl
          · exact hrec (f := fun l => '\\' :: c :: l) rfl (List.suffix_cons c u)
      rw [List.cons_append, readLabelText?_cons next _ _ hc, readLabelText?_cons next _ _ hc]
      split
      · rfl
      split
      · rfl
      split
      · rfl
      split
      next hblank =>
        by_cases hmore : (c :: u).dropWhile isInlineBlank = []
        · rw [skipLabelBlanks?_eq hmore, ← List.cons_append]
          simp only [readLabelText?_nil]
          split
          · rfl
          next n r heq =>
            obtain rfl : r = [] := skipLabelBlanks?_of_nil ht hnext hmore heq
            rw [readLabelText?_nil]
            rfl
        · rw [← List.cons_append, skipLabelBlanks?_tail ht hnext hx hmore]
          cases hskip : skipLabelBlanks? next (c :: u) with
          | none => rfl
          | some p =>
            exact hrec (f := fun l => ' ' :: l) rfl
              (skipLabelBlanks?_suffix hnext.suffix hblank hskip)
      · exact hrec (f := fun l => c :: l) rfl (List.suffix_refl u)

theorem readLabel?_tail {bound bound' : Nat} {x : List Char} (hx : EndsInLine x)
    (hb : x.length ≤ bound) (hb' : x.length ≤ bound') :
    readLabel? next bound' (x ++ t.text) = (readLabel? next bound x).map (behindBy t.text) := by
  rw [readLabel?, readLabelText?_tail ht hnext hx (Nat.lt_succ_of_le hb) (Nat.lt_succ_of_le hb'),
    readLabel?, Option.filter_map]
  rfl

end Valid

/-! ## Destinations -/

theorem readPointed?_cons {c : Char} (hc : c ≠ '\\') (s : List Char) :
    readPointed? (c :: s) =
      if c = '>' then some ([], s)
      else if c = '<' ∨ isLineEnd c then none
      else (readPointed? s).map fun p => (c :: p.1, p.2) := by
  rw [readPointed?]
  exact fun _ _ h _ => absurd h hc

theorem readBare?_cons {c : Char} (hc : c ≠ '\\') (limit depth : Nat) (s : List Char) :
    readBare? limit depth (c :: s) =
    if c.toNat ≤ 0x20 then if depth = 0 then some ([], c :: s) else none
    else if c = '(' then
      if limit < depth then none
      else (readBare? limit (depth + 1) s).map fun p => (c :: p.1, p.2)
    else if c = ')' then
      match depth with
      | 0 => some ([], c :: s)
      | depth + 1 => (readBare? limit depth s).map fun p => (c :: p.1, p.2)
    else (readBare? limit depth s).map fun p => (c :: p.1, p.2) := by
  rw [readBare?.eq_def]
  split
  next heq => cases heq
  next heq => exact absurd (List.cons.inj heq).1 hc
  next heq =>
    obtain ⟨rfl, rfl⟩ := List.cons.inj heq
    rfl

theorem EndsInLine.ne_backslash {c : Char} {s : List Char} (hx : EndsInLine (c :: s))
    (h : ∀ d u, c = '\\' → s = d :: u → False) : c ≠ '\\' := by
  cases s with
  | nil => exact (hx c rfl).2
  | cons d u => exact fun hc => h d u hc rfl

theorem readPointed?_suffix {s : List Char} {p : List Char × List Char}
    (h : readPointed? s = some p) : p.2 <:+ s := by
  fun_induction readPointed? s generalizing p with
  | case1 => cases h
  | case2 c s _ ih =>
    refine suffix_of_map_eq_some h (fun _ => rfl) fun q hq => ?_
    exact ((ih hq).trans (List.suffix_cons c s)).trans (List.suffix_cons ..)
  | case4 s =>
    obtain rfl := Option.some.inj h
    exact List.suffix_cons ..
  | case5 => cases h
  | case3 | case6 =>
    rename_i ih
    exact suffix_of_map_eq_some h (fun _ => rfl) fun q hq => (ih hq).trans (List.suffix_cons ..)

theorem readBare?_suffix {limit depth : Nat} {s : List Char} {p : List Char × List Char}
    (h : readBare? limit depth s = some p) : p.2 <:+ s := by
  fun_induction readBare? limit depth s generalizing p with
  | case1 | case5 | case9 =>
    -- the destination ends in front of the text
    obtain rfl := Option.some.inj h
    exact List.suffix_refl _
  | case2 | case6 | case7 => cases h
  | case3 depth c s _ ih =>
    refine suffix_of_map_eq_some h (fun _ => rfl) fun q hq => ?_
    exact ((ih hq).trans (List.suffix_cons c s)).trans (List.suffix_cons ..)
  | case4 | case8 | case10 | case11 =>
    rename_i ih
    exact suffix_of_map_eq_some h (fun _ => rfl) fun q hq => (ih hq).trans (List.suffix_cons ..)

theorem readDestination?_of_ne {limit : Nat} {s : List Char} (h : s.head? ≠ some '<') :
    readDestination? limit s = readBare? limit 0 s := by
  unfold readDestination?
  split
  next => exact absurd rfl h
  next => rfl

theorem readDestination?_suffix {limit : Nat} {s : List Char} {p : List Char × List Char}
    (h : readDestination? limit s = some p) : p.2 <:+ s := by
  unfold readDestination? at h
  split at h
  · exact (readPointed?_suffix h).trans (List.suffix_cons ..)
  · exact readBare?_suffix h

section Valid

variable {y : List Char} (hy : atLineEnd y = true)
include hy

theorem readPointed?_append {x : List Char} (hx : EndsInLine x) :
    readPointed? (x ++ y) = (readPointed? x).map (behindBy y) := by
  fun_induction readPointed? x with
  | case1 =>
    cases y with
    | nil => rfl
    | cons c y => rcases isLineEnd_iff.1 hy with rfl | rfl <;> rfl
  | case2 c s hpunct ih =>
    rw [List.cons_append, List.cons_append, readPointed?, if_pos hpunct, ih hx.tail.tail]
    exact map_map_behindBy (fun l => '\\' :: c :: l) y _
  | case3 c s hpunct ih =>
    have hrest := ih hx.tail
    rw [List.cons_append] at hrest
    rw [List.cons_append, List.cons_append, readPointed?, if_neg hpunct, hrest]
    exact map_map_behindBy (fun l => '\\' :: l) y _
  | case4 s hne => rfl
  | case5 c s hne hc hend =>
    rw [List.cons_append, readPointed?_cons (hx.ne_backslash hne), if_neg hc, if_pos hend]
    rfl
  | case6 c s hne hc hend ih =>
    rw [List.cons_append, readPointed?_cons (hx.ne_backslash hne), if_neg hc, if_neg hend,
      ih hx.tail]
    exact map_map_behindBy (fun l => c :: l) y _

theorem readBare?_append (limit depth : Nat) {x : List Char} (hx : EndsInLine x) :
    readBare? limit depth (x ++ y) = (readBare? limit depth x).map (behindBy y) := by
  have hnil : ∀ depth, readBare? limit depth y = if depth = 0 then some ([], y) else none := by
    intro depth
    cases y with
    | nil => rfl
    | cons c y =>
      have hc : c ≠ '\\' ∧ c.toNat ≤ 0x20 := by
        rcases isLineEnd_iff.1 hy with rfl | rfl <;> decide
      rw [readBare?_cons hc.1, if_pos hc.2]
  fun_induction readBare? limit depth x with
  | case1 => rw [List.nil_append, hnil]; rfl
  | case2 depth hdepth => rw [List.nil_append, hnil, if_neg hdepth]; rfl
  | case3 depth c s hpunct ih =>
    rw [List.cons_append, List.cons_append, readBare?, if_pos hpunct, ih hx.tail.tail]
    exact map_map_behindBy (fun l => '\\' :: c :: l) y _
  | case4 depth c s hpunct ih =>
    have hrest := ih hx.tail
    rw [List.cons_append] at hrest
    rw [List.cons_append, List.cons_append, readBare?, if_neg hpunct, hrest]
    exact map_map_behindBy (fun l => '\\' :: l) y _
  | case5 c s hne hc =>
    rw [List.cons_append, readBare?_cons (hx.ne_backslash hne), if_pos hc, if_pos rfl]
    rfl
  | case6 depth c s hne hc hdepth =>
    rw [List.cons_append, readBare?_cons (hx.ne_backslash hne), if_pos hc, if_neg hdepth]
    rfl
  | case7 depth s hlimit hne hc =>
    rw [List.cons_append, readBare?_cons (hx.ne_backslash hne), if_neg hc, if_pos rfl,
      if_pos hlimit]
    rfl
  | case8 depth s hlimit hne hc ih =>
    rw [List.cons_append, readBare?_cons (hx.ne_backslash hne), if_neg hc, if_pos rfl,
      if_neg hlimit, ih hx.tail]
    exact map_map_behindBy (fun l => '(' :: l) y _
  | case9 s hne hc hopen =>
    rw [List.cons_append, readBare?_cons (hx.ne_backslash hne), if_neg hc, if_neg hopen,
      if_pos rfl]
    rfl
  | case10 s depth hne hc hopen ih =>
    rw [List.cons_append, readBare?_cons (hx.ne_backslash hne), if_neg hc, if_neg hopen,
      if_pos rfl]
    dsimp only
    rw [ih hx.tail]
    exact map_map_behindBy (fun l => ')' :: l) y _
  | case11 depth c s hne hc hopen hclose ih =>
    rw [List.cons_append, readBare?_cons (hx.ne_backslash hne), if_neg hc, if_neg hopen,
      if_neg hclose, ih hx.tail]
    exact map_map_behindBy (fun l => c :: l) y _

theorem readDestination?_append (limit : Nat) {x : List Char} (hx : EndsInLine x) :
    readDestination? limit (x ++ y) = (readDestination? limit x).map (behindBy y) := by
  have hpoint : (x ++ y).head? = some '<' ↔ x.head? = some '<' := head?_append hy rfl x
  by_cases h : x.head? = some '<'
  · obtain ⟨u, rfl⟩ := List.head?_eq_some_iff.1 h
    exact readPointed?_append hy hx.tail
  · rw [readDestination?_of_ne h, readDestination?_of_ne (mt hpoint.1 h),
      readBare?_append hy limit 0 hx]

end Valid

/-! ## Definitions -/

theorem readRawTitle?_cons (next : LineStep) (closing : Char) (bound : Nat) (c : Char)
    (s : List Char) :
    readRawTitle? next closing (bound + 1) (c :: s) =
      if c = '(' ∧ closing = ')' then none
      else if isLineEnd c then
        match next (skipLineEnd (c :: s)) with
        | none => none
        | some place =>
          if isBlankLine place.skipAll.rest then none
          else (readRawTitle? next closing bound place.skipAll.rest).map
            fun p => (['\n'] ++ p.1, p.2)
      else if c = '\\' then
        match s with
        | [] => none
        | d :: rest =>
          if isLineEnd d then
            (readRawTitle? next closing bound s).map fun p => ([c] ++ p.1, p.2)
          else (readRawTitle? next closing bound rest).map fun p => ([c, d] ++ p.1, p.2)
      else if c = closing then some ([], s)
      else (readRawTitle? next closing bound s).map fun p => ([c] ++ p.1, p.2) := rfl

/-- Nothing but blanks stands before the line end at which no title can follow. -/
theorem isBlankLine_of_skipDefinitionSpace? {next : LineStep} {s : List Char}
    (h : skipDefinitionSpace? next s = none) : isBlankLine s = true := by
  rw [skipDefinitionSpace?] at h
  dsimp only at h
  split at h
  next hend => exact hend
  · cases h

section Suffix

variable {next : LineStep} (hnext : ∀ {s c}, next s = some c → c.rest <:+ s)
include hnext

theorem readRawTitle?_suffix {closing : Char} {bound : Nat} {s : List Char}
    {p : List Char × List Char} (h : readRawTitle? next closing bound s = some p) :
    p.2 <:+ s := by
  induction bound generalizing s p with
  | zero => cases h
  | succ bound ih =>
    cases s with
    | nil => cases h
    | cons c s =>
      -- wherever the title goes on, it leaves an end of the text
      have hgo {front r : List Char} (hr : r <:+ s)
          (h : (readRawTitle? next closing bound r).map (fun p => (front ++ p.1, p.2)) = some p) :
          p.2 <:+ c :: s :=
        suffix_of_map_eq_some h (fun _ => rfl) fun q hq =>
          ((ih hq).trans hr).trans (List.suffix_cons c s)
      rw [readRawTitle?_cons] at h
      split at h
      · cases h
      split at h
      next hend =>
        split at h
        · cases h
        next place heq =>
          split at h
          · cases h
          · exact hgo ((place.skipAll_suffix.trans (hnext heq)).trans
              (skipLineEnd_suffix_of_isLineEnd hend s)) h
      split at h
      · split at h
        · cases h
        next d rest =>
          split at h
          · exact hgo (List.suffix_refl _) h
          · exact hgo (List.suffix_cons d rest) h
      split at h
      · obtain rfl := Option.some.inj h
        exact List.suffix_cons c s
      · exact hgo (List.suffix_refl s) h

theorem skipDefinitionSpace?_suffix {s : List Char} {p : Bool × List Char}
    (h : skipDefinitionSpace? next s = some p) :
    p.2 <:+ s ∧ atLineEnd p.2 = false ∧ (p.1 = true → isBlankLine s = true) := by
  rw [skipDefinitionSpace?] at h
  dsimp only at h
  split at h
  next hend =>
    split at h
    · cases h
    next place heq =>
      split at h
      · cases h
      next hmore =>
        obtain rfl := Option.some.inj h
        exact ⟨(dropBlanks_suffix _).trans ((hnext heq).trans (skipBlankLine_suffix s)),
          by simpa using hmore, fun _ => hend⟩
  next hmore =>
    obtain rfl := Option.some.inj h
    exact ⟨dropBlanks_suffix s, by simpa using hmore, nofun⟩

/-- A definition ends where its line ends. -/
theorem readDefinitionTitle?_suffix {bound : Nat} {s : List Char} {p : List Char × List Char}
    (h : readDefinitionTitle? next bound s = some p) : p.2 <:+ s ∧ isBlankLine p.2 = true := by
  rw [readDefinitionTitle?] at h
  split at h
  next heq =>
    obtain rfl := Option.some.inj h
    exact ⟨List.suffix_refl s, isBlankLine_of_skipDefinitionSpace? heq⟩
  next onOwnLine u heq =>
    obtain ⟨hu, -, hown⟩ := skipDefinitionSpace?_suffix hnext heq
    -- without a title, the definition ends behind its destination
    have hwithout : (if onOwnLine then some ([], s) else none) = some p →
        p.2 <:+ s ∧ isBlankLine p.2 = true := by
      intro hp
      split at hp
      next hon =>
        obtain rfl := Option.some.inj hp
        exact ⟨List.suffix_refl s, hown hon⟩
      · cases hp
    dsimp only at h
    split at h
    · split at h
      · exact hwithout h
      · split at h
        next hread =>
          split at h
          next hblank =>
            obtain rfl := Option.some.inj h
            exact ⟨((readRawTitle?_suffix hnext hread).trans (List.drop_suffix 1 u)).trans hu,
              hblank⟩
          · exact hwithout h
        · exact hwithout h
    · cases h

theorem LinkDefinition.read?_suffix {next' : LineStep}
    (hnext' : ∀ {s c}, next' s = some c → c.rest <:+ s) {bound : Nat} {s : List Char}
    {p : LinkDefinition × List Char} (h : LinkDefinition.read? next' next bound s = some p) :
    p.2 <:+ s ∧ p.2.length < s.length := by
  simp only [LinkDefinition.read?, Option.bind_eq_bind, Option.bind_eq_some_iff] at h
  obtain ⟨u, hu, ⟨label, v⟩, hlabel, w, hw, ⟨onOwnLine, z⟩, hz, ⟨destination, r⟩, hr, h⟩ := h
  obtain rfl := Text.stripStart?_eq_some_iff.1 hu
  obtain rfl := Text.stripStart?_eq_some_iff.1 hw
  split at h
  · cases h
  · simp only [Option.bind_eq_some_iff] at h
    obtain ⟨⟨title, rest⟩, htitle, hp⟩ := h
    obtain rfl := Option.some.inj hp
    have hlab : ':' :: w <:+ u ∧ (':' :: w).length < u.length :=
      readLabelText?_suffix hnext' _ _ _ (Option.filter_eq_some_iff.1 hlabel).1
    have hend : skipBlankLine rest <:+ w :=
      (((skipBlankLine_suffix rest).trans (readDefinitionTitle?_suffix hnext htitle).1).trans
        (readDestination?_suffix hr)).trans (skipDefinitionSpace?_suffix hnext hz).1
    have hle := hend.length_le
    have hlt := hlab.2
    refine ⟨((hend.trans (List.suffix_cons ':' w)).trans hlab.1).trans (List.suffix_cons '[' u), ?_⟩
    simp only [List.length_cons, List.cons_append, List.nil_append] at hlt ⊢
    omega

end Suffix

section Valid

variable {t : Tail} (ht : t.Valid) {next : LineStep} (hnext : next.Local t)
include ht hnext

theorem readRawTitle?_text (closing : Char) (bound : Nat) :
    readRawTitle? next closing bound t.text = none := by
  cases bound with
  | zero => rfl
  | succ bound =>
    cases htext : t.text with
    | nil => rfl
    | cons c y =>
      have hend : isLineEnd c = true := by simpa [htext, atLineEnd] using ht.atLineEnd
      have hskip : skipLineEnd (c :: y) = t.behind := by
        rw [← htext, skipLineEnd, ht.splitLineEnd]
      rw [readRawTitle?_cons, if_pos hend, hskip]
      split
      · rfl
      split
      · rfl
      next place heq =>
        have hblank : isBlankLine place.skipAll.rest = true :=
          (Blank.of_atLineEnd (hnext.behind heq).skipAll).isBlankLine
        rw [if_pos hblank]

theorem readRawTitle?_tail {closing : Char} {bound bound' : Nat} {x : List Char}
    (hx : EndsInLine x) (hb : x.length < bound) (hb' : x.length < bound') :
    readRawTitle? next closing bound' (x ++ t.text) =
      (readRawTitle? next closing bound x).map (behindBy t.text) := by
  induction bound generalizing bound' x with
  | zero => omega
  | succ bound ih =>
    obtain ⟨bound', rfl⟩ : ∃ n, bound' = n + 1 := ⟨bound' - 1, by omega⟩
    cases x with
    | nil => rw [List.nil_append, readRawTitle?_text ht hnext]; rfl
    | cons c u =>
      -- the rest of a text that has got shorter
      have hrec : ∀ {r : List Char} {f : List Char → List Char}, r <:+ u →
          (readRawTitle? next closing bound' (r ++ t.text)).map (fun p => (f p.1, p.2)) =
            ((readRawTitle? next closing bound r).map fun p => (f p.1, p.2)).map
              (behindBy t.text) := by
        intro r f hr
        have hle := hr.length_le
        rw [List.length_cons] at hb hb'
        rw [ih (hx.of_suffix (hr.trans (List.suffix_cons c u))) (by omega) (by omega),
          map_map_behindBy]
      rw [List.cons_append, readRawTitle?_cons, readRawTitle?_cons]
      split
      · rfl
      split
      next hend =>
        have hmore := hx.skipLineEnd_ne_nil (List.cons_ne_nil c u)
        rw [← List.cons_append, skipLineEnd_tail ht hx, Tail.after_of_ne hmore,
          hnext.within (hx.of_suffix (skipLineEnd_suffix _)) hmore]
        cases hplace : next (skipLineEnd (c :: u)) with
        | none => rfl
        | some place =>
          simp only [Option.map_some, Cursor.skipAll_append ht.atLineEnd, Cursor.rest_append,
            isBlankLine_append ht.atLineEnd]
          split
          · rfl
          · exact hrec (f := fun l => ['\n'] ++ l) ((place.skipAll_suffix.trans
              (hnext.suffix hplace)).trans (skipLineEnd_suffix_of_isLineEnd hend u))
      split
      next hback =>
        cases u with
        | nil => exact absurd hback (hx c rfl).2
        | cons d u =>
          simp only [List.cons_append]
          split
          · exact hrec (f := fun l => [c] ++ l) (List.suffix_refl _)
          · exact hrec (f := fun l => [c, d] ++ l) (List.suffix_cons d u)
      split
      · rfl
      · exact hrec (f := fun l => [c] ++ l) (List.suffix_refl u)

theorem skipDefinitionSpace?_tail {x : List Char} (hx : EndsInLine x) :
    skipDefinitionSpace? next (x ++ t.text) =
      (skipDefinitionSpace? next x).map (behindBy t.text) := by
  have hy := ht.atLineEnd
  have hrest := hx.of_suffix (dropBlanks_suffix x)
  rw [skipDefinitionSpace?, dropBlanks_append hy, skipDefinitionSpace?]
  simp only [atLineEnd_append hy, skipLineEnd_tail ht hrest]
  split
  · by_cases hmore : skipLineEnd (dropBlanks x) = []
    · -- the line behind is blank, or there is none
      have hnone : ∀ {s : List Char}, (∀ c ∈ next s, Blank c.rest) →
          (match next s with
            | none => none
            | some place =>
              if Markdown.atLineEnd (dropBlanks place.rest) = true then none
              else some (true, dropBlanks place.rest)) = none := by
        intro s hs
        cases hplace : next s with
        | none => rfl
        | some place => exact if_pos (hs place hplace).isBlankLine
      have hbehind := hnone fun c hc => hnext.behind hc
      have hnil := hnone (s := []) fun c hc => by
        rw [List.suffix_nil.1 (hnext.suffix hc)]
        exact .nil
      rw [hmore, Tail.after_nil]
      exact hbehind.trans (congrArg (Option.map (behindBy t.text)) hnil).symm
    · rw [Tail.after_of_ne hmore, hnext.within (hrest.of_suffix (skipLineEnd_suffix _)) hmore]
      cases next (skipLineEnd (dropBlanks x)) with
      | none => rfl
      | some place =>
        simp only [Option.map_some, Cursor.rest_append, dropBlanks_append hy,
          atLineEnd_append hy]
        split <;> rfl
  · rfl

theorem readDefinitionTitle?_tail {bound bound' : Nat} {x : List Char} (hx : EndsInLine x)
    (hb : x.length ≤ bound) (hb' : x.length ≤ bound') :
    readDefinitionTitle? next bound' (x ++ t.text) =
      (readDefinitionTitle? next bound x).map (behindBy t.text) := by
  have hy := ht.atLineEnd
  rw [readDefinitionTitle?, skipDefinitionSpace?_tail ht hnext hx, readDefinitionTitle?]
  cases hspace : skipDefinitionSpace? next x with
  | none => rfl
  | some p =>
    obtain ⟨onOwnLine, u⟩ := p
    obtain ⟨hu, hmore, -⟩ := skipDefinitionSpace?_suffix hnext.suffix hspace
    cases u with
    | nil => cases hmore
    | cons c u =>
      -- a mark may open a title, which has less text behind it than there was
      obtain ⟨d, v, rfl⟩ : ∃ d v, x = d :: v := by
        cases x with
        | nil => cases List.suffix_nil.1 hu
        | cons d v => exact ⟨d, v, rfl⟩
      have hlt : u.length < (d :: v).length := hu.length_le
      simp only [Option.map_some, behindBy, List.cons_append, List.head?_cons, List.drop_succ_cons,
        List.drop_zero, Option.map_some, Option.getD_some]
      split
      · split
        · split <;> rfl
        next closing hclosing =>
          rw [readRawTitle?_tail ht hnext (hx.of_suffix hu).tail (Nat.lt_of_lt_of_le hlt hb)
            (Nat.lt_of_lt_of_le hlt hb')]
          cases readRawTitle? next closing bound u with
          | none => simp only [Option.map_none]; split <;> rfl
          | some p =>
            simp only [Option.map_some, behindBy, isBlankLine_append hy]
            split
            · rfl
            · split <;> rfl
      · rfl

theorem LinkDefinition.read?_tail {next' : LineStep} (hnext' : next'.Local t) {bound bound' : Nat}
    {x : List Char} (hx : EndsInLine x) (hb : x.length ≤ bound + 1)
    (hb' : x.length ≤ bound' + 1) :
    LinkDefinition.read? next' next bound' (x ++ t.text) =
      (LinkDefinition.read? next' next bound x).map fun p => (p.1, t.after p.2) := by
  have hy := ht.atLineEnd
  simp only [LinkDefinition.read?, Option.bind_eq_bind]
  -- each part leaves an end of the text for the next one, which ends before the end of a line, too
  rw [stripStart?_append hy (by decide)]
  refine bind_map_eq_map fun u hu => ?_
  have hxu : x = ['['] ++ u := Text.stripStart?_eq_some_iff.1 hu
  have hu' := hx.of_suffix ⟨_, hxu.symm⟩
  have hlen : x.length = u.length + 1 := by rw [hxu]; rfl
  rw [readLabel?_tail ht hnext' hu' (show _ ≤ bound by omega) (show _ ≤ bound' by omega)]
  refine bind_map_eq_map fun ⟨label, v⟩ hlabel => ?_
  have huv : v <:+ u :=
    (readLabelText?_suffix hnext'.suffix _ _ _ (Option.filter_eq_some_iff.1 hlabel).1).1
  simp only [behindBy]
  rw [stripStart?_append hy (by decide)]
  refine bind_map_eq_map fun w hw => ?_
  have hvw : w <:+ v := ⟨_, (Text.stripStart?_eq_some_iff.1 hw).symm⟩
  have hw' := hu'.of_suffix (hvw.trans huv)
  rw [skipDefinitionSpace?_tail ht hnext hw']
  refine bind_map_eq_map fun ⟨onOwnLine, z⟩ hz => ?_
  have hwz := (skipDefinitionSpace?_suffix hnext.suffix hz).1
  have hz' := hw'.of_suffix hwz
  simp only [behindBy]
  rw [readDestination?_append hy 1 hz']
  refine bind_map_eq_map fun ⟨destination, r⟩ hr => ?_
  have hzr := readDestination?_suffix hr
  have hle := (((hzr.trans hwz).trans hvw).trans huv).length_le
  have hpoint : (z ++ t.text).head? = some '<' ↔ z.head? = some '<' := head?_append hy rfl z
  simp only [behindBy, ne_eq, hpoint]
  split
  · rfl
  rw [readDefinitionTitle?_tail ht hnext (hz'.of_suffix hzr) (show _ ≤ bound by omega)
    (show _ ≤ bound' by omega)]
  refine bind_map_eq_map fun ⟨title, rest⟩ htitle => ?_
  have hlast := (hz'.of_suffix hzr).of_suffix (readDefinitionTitle?_suffix hnext.suffix htitle).1
  simp only [behindBy, skipBlankLine_tail ht hlast]
  rfl

end Valid

end Treatise.Markdown
