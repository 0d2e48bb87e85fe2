import Treatise.Proofs.Markdown.Leaves
import Treatise.Proofs.Markdown.Literals
import Treatise.Proofs.Markdown.Verbatim

/-!
# Leaf blocks before a tail

A leaf block is the same whatever follows the text, up to the end of the last line of a paragraph, or
it is literal text that goes on behind the text.
-/

namespace Treatise.Markdown

namespace Outline

/-! ## The kinds of leaf blocks -/

/-- Takes indented code. -/
def takeIndented (bound : Nat) (o : Outline) (c : Cursor) : Outline × List Char :=
  let code := indentedLines o.containers bound c
  ({ o.add (.code [] (dropBlankCode code.1)) with
      afterBlank := (code.1.getLast?.map (·.2)).getD false }, code.2)

/-- Takes raw HTML. -/
def takeHtml (bound : Nat) (o : Outline) (stop : HtmlBlockEnd) (c : Cursor) :
    Outline × List Char :=
  let html := htmlLines o.containers stop bound c
  (o.add (.html html.1.flatten), html.2)

/-- Takes a heading with opening marks. -/
def takeHeading (o : Outline) (level : Nat) (s : List Char) : Outline × List Char :=
  let line := (takeLine s).1
  let text := headingText (line.drop level)
  (o.add (.heading level ⟨o.containers, text, headingTail (lineText line) text, false⟩),
    (takeLine s).2)

/-- Takes code in a fence of which the opening marks are read. -/
def takeFenced (bound : Nat) (o : Outline) (indent : Nat) (mark : Char) (size : Nat)
    (info : List Char) : Outline × List Char :=
  let code := fencedLines o.containers indent mark size bound (takeLiteral info).2
  (o.add (.code (unescape (takeLeaf.trimEnd (dropBlanks (takeLiteral info).1))) code.1.flatten),
    code.2)

/-- Takes a leaf block that is neither indented code nor raw HTML. -/
def takeText (bound : Nat) (o : Outline) (indent : Nat) (s : List Char) : Outline × List Char :=
  if isRule s then (o.add .rule, (takeLine s).2)
  else
    match headingLevel? s with
    | some level => o.takeHeading level s
    | none =>
      match fence? s with
      | some (mark, size, info) => takeFenced bound o indent mark size info
      | none => takeParagraph bound o s

theorem takeLeaf_eq (bound : Nat) (o : Outline) (c : Cursor) :
    takeLeaf bound o c =
      if 4 ≤ (c.skip 4).1 then takeIndented bound o (c.skip 4).2
      else
        match htmlStart? false (c.skip 4).2.rest with
        | some stop =>
          takeHtml bound o stop { (c.skip 4).2 with owed := max c.owed (c.skip 4).1 }
        | none => takeText bound o (c.skip 4).1 (c.skip 4).2.rest := rfl

/-! ## The two ways to end -/

theorem isBlankLine_skip (n : Nat) (c : Cursor) :
    isBlankLine (c.skip n).2.rest = isBlankLine c.rest := by
  induction n generalizing c with
  | zero => rfl
  | succ n ih =>
    rw [Cursor.skip_succ]
    cases hcol : c.column? with
    | none => rfl
    | some d =>
      refine (ih d).trans ?_
      unfold Cursor.column? at hcol
      split at hcol
      · obtain rfl := Option.some.inj hcol
        rfl
      · split at hcol
        next heq => obtain rfl := Option.some.inj hcol; rw [heq]; rfl
        next heq => obtain rfl := Option.some.inj hcol; rw [heq]; rfl
        next => cases hcol

section Alike

variable {o o' : Outline} (h : o'.chomp = o.chomp)
include h

theorem containers_of_chomp_eq : o'.containers = o.containers := by
  rw [← containers_chomp, h, containers_chomp]

theorem literals_of_chomp_eq : o'.literals = o.literals := by
  rw [← literals_chomp, h, literals_chomp]

theorem shape_of_chomp_eq : o'.shape = o.shape := by
  have hshape (o : Outline) : o.chomp.shape = o.shape := by
    simp [shape, chomp, OpenContainer.chomp]
  rw [← hshape, h, hshape]

theorem topIsList_of_chomp_eq : o'.topIsList = o.topIsList := by
  rw [topIsList, topIsList, shape_of_chomp_eq h]

theorem chomp_add_of_chomp_eq (b : Block) : (o'.add b).chomp = (o.add b).chomp := by
  rw [chomp_add, chomp_add, h]

end Alike

/-- What is taken from the start of a text is the same whatever follows the text. `take` is given what
follows, and `n` is the bound that it needs. -/
def SameBefore (take : Nat → Outline → List Char → Outline × List Char) (n : Nat) (o : Outline)
    (p : Outline × List Char) : Prop :=
  ∀ (t : Tail) (bound : Nat) (o' : Outline), t.Valid → n ≤ bound → o'.chomp = o.chomp →
    (take bound o' t.text).1.chomp = p.1.chomp ∧ (take bound o' t.text).2 = t.after p.2

/-- What is taken is literal text up to the end of the text, and there is more of it if an empty line
follows. -/
def GoesOn (take : Nat → Outline → List Char → Outline × List Char) (n : Nat) (o : Outline)
    (p : Outline × List Char) : Prop :=
  ∃ s, p.2 = [] ∧ p.1.literals = o.literals ++ [s] ∧
    ∀ (bound : Nat) (o' : Outline), n ≤ bound → o'.chomp = o.chomp →
      ∃ s', s.length < s'.length ∧
        (take bound o' Tail.emptyLine.text).1.literals = o.literals ++ [s']

/-- One of the two is the case. -/
def EndsOrGoesOn (take : Nat → Outline → List Char → Outline × List Char) (n : Nat) (o : Outline)
    (p : Outline × List Char) : Prop :=
  SameBefore take n o p ∨ GoesOn take n o p

theorem EndsOrGoesOn.congr {take take' : Nat → Outline → List Char → Outline × List Char}
    {n n' : Nat} {o : Outline} {p : Outline × List Char} (h : EndsOrGoesOn take n o p)
    (hn : n ≤ n')
    (htake : ∀ (t : Tail) (bound : Nat) (o : Outline), t.Valid →
      take' bound o t.text = take bound o t.text) : EndsOrGoesOn take' n' o p := by
  refine h.imp ?_ ?_
  · intro h t bound o' ht hb ho
    rw [htake t bound o' ht]
    exact h t bound o' ht (hn.trans hb) ho
  · rintro ⟨s, hnil, hlit, h⟩
    refine ⟨s, hnil, hlit, fun bound o' hb ho => ?_⟩
    rw [htake _ bound o' Tail.valid_emptyLine]
    exact h bound o' (hn.trans hb) ho

/-! ## Each kind -/

theorem length_dropBlankCode_append (pre : List (List Char × Bool)) (line : List Char) :
    (dropBlankCode (pre ++ [(line, false)])).length =
      (pre.map (·.1)).flatten.length + line.length := by
  simp [dropBlankCode]

/-- A line that is not blank stays, and so do the lines before it. -/
theorem length_le_dropBlankCode (pre more : List (List Char × Bool)) (line : List Char) :
    (pre.map (·.1)).flatten.length + line.length ≤
      (dropBlankCode (pre ++ (line, false) :: more)).length := by
  have hdrop : ((pre ++ (line, false) :: more).reverse.dropWhile (·.2)).reverse =
      pre ++ (line, false) :: (more.reverse.dropWhile (·.2)).reverse := by
    rw [List.reverse_append, List.reverse_cons, List.append_assoc, List.dropWhile_append]
    split
    next h => simp [List.isEmpty_iff.1 h]
    next => simp
  rw [dropBlankCode, hdrop]
  simp only [List.map_append, List.map_cons, List.flatten_append, List.flatten_cons,
    List.length_append]
  omega

section Bare

variable {x : List Char} (hx : EndsInLine x) (hbare : Bare x) {o : Outline}
  (hlist : o.topIsList = false)
include hx hbare hlist

theorem takeIndented_tail {bound : Nat} {c : Cursor} (hc : c.rest <:+ x)
    (hblank : isBlankLine c.rest = false) (hb : c.rest.length ≤ bound) :
    EndsOrGoesOn (fun bound o y => takeIndented bound o (c.append y)) c.rest.length o
      (takeIndented bound o c) := by
  refine (indentedLines_tail hx hbare o.containers hc hblank hb).imp ?_ ?_
  · intro h t bound' o' ht hb' ho
    simp only [takeIndented, containers_of_chomp_eq ho, h t bound' ht hb', and_true]
    generalize ((indentedLines o.containers bound c).1.getLast?.map (·.2)).getD false = afterBlank
    exact congrArg (fun u : Outline => { u with afterBlank := afterBlank })
      (chomp_add_of_chomp_eq ho _)
  · rintro ⟨pre, line, heq, h⟩
    refine ⟨dropBlankCode (pre ++ [(line, false)]), by simp only [takeIndented, heq], ?_,
      fun bound' o' hb' ho => ?_⟩
    · simp only [takeIndented, heq]
      exact literals_add hlist _
    · obtain ⟨line', more, rest, heq', hlt⟩ := h bound' hb'
      refine ⟨dropBlankCode (pre ++ (line', false) :: more), ?_, ?_⟩
      · have := length_le_dropBlankCode pre more line'
        rw [length_dropBlankCode_append]
        omega
      · simp only [takeIndented, containers_of_chomp_eq ho, heq']
        rw [← literals_of_chomp_eq ho]
        exact literals_add ((topIsList_of_chomp_eq ho).trans hlist) _

theorem takeHtml_tail {bound : Nat} (stop : HtmlBlockEnd) {c : Cursor} (hc : c.rest <:+ x)
    (hne : c.rest ≠ []) (hb : c.rest.length ≤ bound) :
    EndsOrGoesOn (fun bound o y => takeHtml bound o stop (c.append y)) c.rest.length o
      (takeHtml bound o stop c) := by
  refine (htmlLines_tail hx hbare o.containers stop hc hne hb).imp ?_ ?_
  · intro h t bound' o' ht hb' ho
    simp only [takeHtml, containers_of_chomp_eq ho, h t bound' ht hb', and_true]
    exact chomp_add_of_chomp_eq ho _
  · rintro ⟨hnil, h⟩
    refine ⟨_, hnil, literals_add hlist _, fun bound' o' hb' ho => ⟨_, h bound' hb', ?_⟩⟩
    simp only [takeHtml, containers_of_chomp_eq ho, ← literals_of_chomp_eq ho]
    exact literals_add ((topIsList_of_chomp_eq ho).trans hlist) _

end Bare

theorem le_length_of_headingLevel? {s : List Char} {level : Nat} (h : headingLevel? s = some level) :
    level ≤ (takeLine s).1.length := by
  have hlevel : level = (s.takeWhile (· == '#')).length := by
    rw [headingLevel?] at h
    split at h
    · split at h
      · exact (Option.some.inj h).symm
      · split at h
        · exact (Option.some.inj h).symm
        · cases h
    · cases h
  clear h
  subst hlevel
  have hmarks : (s.takeWhile (· == '#')).length ≤ (s.takeWhile (!isLineEnd ·)).length := by
    induction s with
    | nil => exact le_refl _
    | cons c s ih =>
      by_cases hc : c = '#'
      · subst hc
        simpa [isLineEnd] using ih
      · simp [hc]
  rw [takeLine, List.length_append]
  exact hmarks.trans (Nat.le_add_right _ _)

theorem takeHeading_tail {x : List Char} (hx : EndsInLine x) (o : Outline) {level : Nat}
    (hlevel : headingLevel? x = some level) (n : Nat) :
    SameBefore (fun _ o y => takeHeading o level (x ++ y)) n o (takeHeading o level x) := by
  intro t bound' o' ht _ ho
  have hstop := ht.atLineEnd_stopAt (takeLine x).2
  have hdrop : ((takeLine x).1 ++ t.stopAt (takeLine x).2).drop level =
      (takeLine x).1.drop level ++ t.stopAt (takeLine x).2 :=
    List.drop_append_of_le_length (le_length_of_headingLevel? hlevel)
  simp only [takeHeading, takeLine_tail ht hx, lineText_append hstop, hdrop,
    headingText_append hstop, containers_of_chomp_eq ho]
  exact ⟨chomp_add_of_chomp_eq ho _, trivial⟩

theorem trimEnd_append {stop : List Char} (h : ∀ c ∈ stop, isAnyBlank c = true) (s : List Char) :
    takeLeaf.trimEnd (s ++ stop) = takeLeaf.trimEnd s := by
  rw [takeLeaf.trimEnd, takeLeaf.trimEnd, List.reverse_append, List.dropWhile_append_of_pos]
  exact fun c hc => h c (List.mem_reverse.1 hc)

/-- What an opening fence is. -/
theorem fence?_eq_some {s info : List Char} {mark : Char} {size : Nat}
    (h : fence? s = some (mark, size, info)) :
    isLineEnd mark = false ∧ 0 < size ∧ info <:+ s ∧ info.length < s.length := by
  unfold fence? at h
  split at h
  · cases h
  next c s =>
    simp only [Option.ite_none_right_eq_some, Option.some.injEq, Prod.mk.injEq] at h
    obtain ⟨hc, ⟨hsize, -⟩, rfl, rfl, rfl⟩ := h
    refine ⟨?_, by omega, List.drop_suffix _ _, ?_⟩
    · rcases hc with rfl | rfl <;> rfl
    · rw [List.length_drop, List.length_cons]
      omega

section Bare

variable {x : List Char} (hx : EndsInLine x) (hbare : Bare x) {o : Outline}
  (hlist : o.topIsList = false)
include hx hbare hlist

theorem takeFenced_tail {bound indent size : Nat} (hindent : indent < 4) {mark : Char}
    (hmark : isLineEnd mark = false) (hsize : 0 < size) {info : List Char} (hinfo : info <:+ x)
    {n : Nat} (hn : info.length < n) (hb : info.length ≤ bound) :
    EndsOrGoesOn (fun bound o y => takeFenced bound o indent mark size (info ++ y)) n o
      (takeFenced bound o indent mark size info) := by
  have hinfo' := hx.of_suffix hinfo
  have hrest := (takeLiteral_suffix info).trans hinfo
  have hle := (takeLiteral_suffix info).length_le
  have hlanguage {t : Tail} (ht : t.Valid) (r : List Char) :
      takeLeaf.trimEnd (dropBlanks ((takeLiteral info).1 ++ t.stopAt r)) =
        takeLeaf.trimEnd (dropBlanks (takeLiteral info).1) := by
    rw [dropBlanks_append (ht.atLineEnd_stopAt r), trimEnd_append]
    intro c hc
    rw [isAnyBlank, ht.isLineEnd_of_mem hc, Bool.or_true]
  refine (fencedLines_tail hx hbare o.containers hindent hmark hsize hrest
    (hbare.of_takeLiteral hinfo) (show _ ≤ bound by omega)).imp ?_ ?_
  · intro h t bound' o' ht hb' ho
    simp only [takeFenced, containers_of_chomp_eq ho, takeLiteral_tail ht hinfo', hlanguage ht,
      h t bound' ht (by omega), and_true]
    exact chomp_add_of_chomp_eq ho _
  · rintro ⟨hnil, h⟩
    refine ⟨_, hnil, literals_add hlist _, fun bound' o' hb' ho => ⟨_, h bound' (by omega), ?_⟩⟩
    simp only [takeFenced, containers_of_chomp_eq ho,
      takeLiteral_tail Tail.valid_emptyLine hinfo', ← literals_of_chomp_eq ho]
    exact literals_add ((topIsList_of_chomp_eq ho).trans hlist) _

theorem takeText_tail {bound indent : Nat} (hindent : indent < 4) {s : List Char} (hs : s <:+ x)
    (hne : s ≠ []) (hb : s.length ≤ bound) :
    EndsOrGoesOn (fun bound o y => takeText bound o indent (s ++ y)) s.length o
      (takeText bound o indent s) := by
  have hs' := hx.of_suffix hs
  -- the first line decides what the block is, and the tail does not change it
  by_cases hrule : isRule s = true
  · refine .inl fun t bound' o' ht _ ho => ?_
    simp only [takeText, isRule_append ht.atLineEnd, hrule, if_pos, takeLine_tail ht hs', and_true]
    exact chomp_add_of_chomp_eq ho _
  cases hheading : headingLevel? s with
  | some level =>
    have hsame := takeHeading_tail hs' o hheading s.length
    refine .inl fun t bound' o' ht hb' ho => ?_
    simp only [takeText, isRule_append ht.atLineEnd, headingLevel?_append ht.atLineEnd, hheading,
      hrule]
    exact hsame t bound' o' ht hb' ho
  | none =>
    cases hfence : fence? s with
    | some f =>
      obtain ⟨mark, size, info⟩ := f
      obtain ⟨hmark, hsize, hinfo, hlt⟩ := fence?_eq_some hfence
      have hkind : takeText bound o indent s = takeFenced bound o indent mark size info := by
        simp [takeText, hrule, hheading, hfence]
      rw [hkind]
      refine (takeFenced_tail hx hbare hlist hindent hmark hsize (hinfo.trans hs) hlt
        (show _ ≤ bound by omega)).congr (le_refl _) fun t bound' o' ht => ?_
      simp [takeText, isRule_append ht.atLineEnd, headingLevel?_append ht.atLineEnd,
        fence?_tail ht hs', hfence, hheading, hrule]
    | none =>
      refine .inl fun t bound' o' ht hb' ho => ?_
      simp only [takeText, isRule_append ht.atLineEnd, headingLevel?_append ht.atLineEnd,
        fence?_tail ht hs', hfence, hheading, hrule]
      exact takeParagraph_tail ht ho hs' hne hb hb'

theorem takeLeaf_tail {bound : Nat} {c : Cursor} (hc : c.rest <:+ x)
    (hblank : isBlankLine c.rest = false) (hb : c.rest.length ≤ bound) :
    EndsOrGoesOn (fun bound o y => takeLeaf bound o (c.append y)) c.rest.length o
      (takeLeaf bound o c) := by
  have hskip {t : Tail} (ht : t.Valid) := Cursor.skip_append ht.atLineEnd 4 c
  have hblank' : isBlankLine (c.skip 4).2.rest = false := by rw [isBlankLine_skip, hblank]
  have hne : (c.skip 4).2.rest ≠ [] := by
    intro h
    rw [h] at hblank'
    cases hblank'
  have hd := (Cursor.skip_suffix 4 c).trans hc
  have hle := (Cursor.skip_suffix 4 c).length_le
  by_cases hindent : 4 ≤ (c.skip 4).1
  · rw [takeLeaf_eq, if_pos hindent]
    refine (takeIndented_tail hx hbare hlist hd hblank' (hle.trans hb)).congr hle
      fun t bound' o' ht => ?_
    rw [takeLeaf_eq, hskip ht, if_pos hindent]
  · rw [takeLeaf_eq, if_neg hindent]
    cases hhtml : htmlStart? false (c.skip 4).2.rest with
    | some stop =>
      refine (takeHtml_tail hx hbare hlist stop 
        (c := { (c.skip 4).2 with owed := max c.owed (c.skip 4).1 }) hd hne
        (hle.trans hb)).congr hle fun t bound' o' ht => ?_
      rw [takeLeaf_eq, hskip ht, if_neg hindent, Cursor.rest_append, htmlStart?_append ht.atLineEnd,
        hhtml]
      rfl
    | none =>
      refine (takeText_tail hx hbare hlist (by omega) hd hne (hle.trans hb)).congr hle
        fun t bound' o' ht => ?_
      rw [takeLeaf_eq, hskip ht, if_neg hindent, Cursor.rest_append, htmlStart?_append ht.atLineEnd,
        hhtml]

end Bare

/-! ## What is left and what is added -/

theorem indentedLines_suffix (ks : List Container) (bound : Nat) (c : Cursor) :
    (indentedLines ks bound c).2 <:+ c.rest ∧
      (0 < bound → (indentedLines ks bound c).2 <:+ (codeLine c).2) := by
  rw [indentedLines_eq]
  exact literalLines_suffix (goesOnInLines_code ks) bound c

theorem htmlLines_suffix (ks : List Container) (stop : HtmlBlockEnd) (bound : Nat) (c : Cursor) :
    (htmlLines ks stop bound c).2 <:+ c.rest ∧
      (0 < bound → (htmlLines ks stop bound c).2 <:+ (codeLine c).2) := by
  rw [htmlLines_eq]
  exact literalLines_suffix (goesOnInLines_html ks stop) bound c

theorem fencedLines_suffix (ks : List Container) (indent : Nat) (mark : Char) (size bound : Nat)
    (s : List Char) : (fencedLines ks indent mark size bound s).2 <:+ s := by
  induction bound generalizing s with
  | zero => exact List.suffix_refl _
  | succ bound ih =>
    cases hfollow : Container.followAll? ks s with
    | none => simp [fencedLines, hfollow]
    | some c =>
      have hplace : (c.skip indent).2.rest <:+ s :=
        (Cursor.skip_suffix indent c).trans (Container.followAll?_suffix hfollow)
      rw [fencedLines_succ indent mark size bound hfollow]
      cases hend : fenceEnd? indent mark size (c.skip indent).2 with
      | some rest => exact (skipBlankLine_suffix rest).trans ((fenceEnd?_suffix hend).trans hplace)
      | none => exact (ih _).trans ((codeLine_suffix _).trans hplace)

theorem takeText_suffix {bound : Nat} (o : Outline) (indent : Nat) {s : List Char} (hs : s ≠ [])
    (hb : s.length ≤ bound) :
    (takeText bound o indent s).2 <:+ s ∧ (takeText bound o indent s).2.length < s.length := by
  have hline : (takeLine s).2 <:+ s ∧ (takeLine s).2.length < s.length :=
    ⟨takeLine_suffix s, length_takeLine_lt hs⟩
  rw [takeText]
  split
  · exact hline
  · split
    · exact hline
    · split
      next mark size info hfence =>
        obtain ⟨-, -, hinfo, hlt⟩ := fence?_eq_some hfence
        have hrest : (takeFenced bound o indent mark size info).2 <:+ info :=
          (fencedLines_suffix ..).trans (takeLiteral_suffix info)
        exact ⟨hrest.trans hinfo, hrest.length_le.trans_lt hlt⟩
      · exact takeParagraph_suffix bound o hs hb

/-- A leaf block takes a part of the text. -/
theorem takeLeaf_suffix {bound : Nat} (o : Outline) {c : Cursor} (hblank : isBlankLine c.rest = false)
    (hb : c.rest.length ≤ bound) :
    (takeLeaf bound o c).2 <:+ c.rest ∧ (takeLeaf bound o c).2.length < c.rest.length := by
  have hne : (c.skip 4).2.rest ≠ [] := by
    intro h
    rw [← isBlankLine_skip 4 c, h] at hblank
    cases hblank
  have hd := Cursor.skip_suffix 4 c
  have hpos := List.length_pos_iff.2 hne
  have hle := hd.length_le
  have hlines {d : Cursor} {r : List Char} (heq : d.rest = (c.skip 4).2.rest)
      (hr : r <:+ (codeLine d).2) : r <:+ c.rest ∧ r.length < c.rest.length := by
    have hlt := length_codeLine_lt (c := d) (by rw [heq]; exact hne)
    have hsuffix := codeLine_suffix d
    rw [heq] at hlt hsuffix
    exact ⟨hr.trans (hsuffix.trans hd), hr.length_le.trans_lt (hlt.trans_le hle)⟩
  rw [takeLeaf_eq]
  split
  · exact hlines rfl ((indentedLines_suffix _ bound _).2 (by omega))
  · split
    · exact hlines (d := { (c.skip 4).2 with owed := max c.owed (c.skip 4).1 }) rfl
        ((htmlLines_suffix _ _ bound _).2 (by omega))
    · obtain ⟨hsuffix, hlt⟩ := takeText_suffix o (c.skip 4).1 hne (hle.trans hb)
      exact ⟨hsuffix.trans hd, hlt.trans_le hle⟩

/-- A leaf block is added, and nothing else changes in the containers. -/
structure Adds (o o' : Outline) : Prop where
  shape : o'.shape = o.shape
  literals : o.literals <+: o'.literals

theorem adds_add {o : Outline} (h : o.topIsList = false) (b : Block) : Adds o (o.add b) :=
  ⟨shape_add o b, by rw [literals_add h]; exact List.prefix_append _ _⟩

theorem adds_takeParagraph (bound : Nat) {o : Outline} (h : o.topIsList = false) (s : List Char) :
    Adds o (takeParagraph bound o s).1 := by
  induction bound generalizing o s with
  | zero => exact ⟨rfl, List.prefix_rfl⟩
  | succ bound ih =>
    rw [takeParagraph]
    dsimp only
    split
    next definition rest _ =>
      split
      · exact ⟨rfl, List.prefix_rfl⟩
      · obtain ⟨hshape, hliterals⟩ := ih
          (o := { o with definitions := o.definitions ++ [definition] }) h _
        exact ⟨hshape, hliterals⟩
    · exact adds_add h _

theorem adds_takeLeaf (bound : Nat) {o : Outline} (h : o.topIsList = false) (c : Cursor) :
    Adds o (takeLeaf bound o c).1 := by
  rw [takeLeaf_eq]
  split
  · obtain ⟨hshape, hliterals⟩ := adds_add h
      (.code [] (dropBlankCode (indentedLines o.containers bound (c.skip 4).2).1))
    exact ⟨hshape, hliterals⟩
  · split
    · exact adds_add h _
    · rw [takeText]
      split
      · exact adds_add h _
      · split
        · exact adds_add h _
        · split
          · exact adds_add h _
          · exact adds_takeParagraph bound h _

end Outline

end Treatise.Markdown
