import Mathlib.Data.List.TakeWhile
import Treatise.Markdown.Block

/-!
# What follows a piece of text

Reading goes by lines: what stands behind the line in which a text ends does not matter, so long as
a blank line comes first there. A `Tail` is what may follow a text: the end of its last line, and then
nothing or a blank line and more.

* `EndsInLine` — a text that a tail can follow, as it ends before the end of a line;
* `Tail.after` — what is left to be read, given what is left of the text in front of the tail;
* the lemmas named `…_append` say that a recogniser sees of a text with a tail what it sees of the
  text alone.
-/

namespace Treatise.Markdown

/-! ## Texts -/

/-- No character that fits begins the text. -/
def Stops (p : Char → Bool) (s : List Char) : Prop := ∀ c ∈ s.head?, p c = false

theorem takeWhile_append {p : Char → Bool} {y : List Char} (h : Stops p y) (x : List Char) :
    (x ++ y).takeWhile p = x.takeWhile p := by
  induction x with
  | nil =>
    cases y with
    | nil => rfl
    | cons c y => exact List.takeWhile_cons_of_neg (by simpa using h c rfl)
  | cons c x ih => simp only [List.cons_append, List.takeWhile_cons, ih]

theorem dropWhile_append {p : Char → Bool} {y : List Char} (h : Stops p y) (x : List Char) :
    (x ++ y).dropWhile p = x.dropWhile p ++ y := by
  induction x with
  | nil =>
    cases y with
    | nil => rfl
    | cons c y => exact List.dropWhile_cons_of_neg (by simpa using h c rfl)
  | cons c x ih =>
    simp only [List.cons_append, List.dropWhile_cons, ih]
    split <;> rfl

theorem isLineEnd_iff {c : Char} : isLineEnd c = true ↔ c = '\n' ∨ c = '\r' := by
  simp [isLineEnd]

/-- A character class without line ends. -/
def InLine (p : Char → Bool) : Prop := p '\n' = false ∧ p '\r' = false

theorem stops_of_atLineEnd {p : Char → Bool} {y : List Char} (hp : InLine p)
    (hy : atLineEnd y = true) : Stops p y := by
  intro c hc
  cases y with
  | nil => cases hc
  | cons d y =>
    obtain rfl : d = c := by simpa using hc
    rcases isLineEnd_iff.1 hy with rfl | rfl
    · exact hp.1
    · exact hp.2

/-- The text ends before the end of a line, and not in a backslash, which might change what follows
it. -/
def EndsInLine (x : List Char) : Prop := ∀ c ∈ x.getLast?, isLineEnd c = false ∧ c ≠ '\\'

theorem EndsInLine.of_suffix {x r : List Char} (h : EndsInLine x) (hr : r <:+ x) :
    EndsInLine r := by
  obtain ⟨u, rfl⟩ := hr
  intro c hc
  exact h c (by simp [List.getLast?_append, Option.mem_def.1 hc])

theorem EndsInLine.tail {c : Char} {x : List Char} (h : EndsInLine (c :: x)) : EndsInLine x :=
  h.of_suffix (List.suffix_cons c x)

theorem EndsInLine.append {x : List Char} (h : EndsInLine x) (u : List Char) (hne : x ≠ []) :
    EndsInLine (u ++ x) := by
  intro c hc
  rw [List.getLast?_append, List.getLast?_eq_some_getLast hne] at hc
  exact h c (by rw [List.getLast?_eq_some_getLast hne]; exact hc)

/-- Behind the end of a line, there is more text. -/
theorem EndsInLine.ne_nil {c : Char} {x : List Char} (h : EndsInLine (c :: x))
    (hc : isLineEnd c = true) : x ≠ [] := by
  rintro rfl
  rw [(h c rfl).1] at hc
  cases hc

/-- The first line of the text holds spaces and tabs only. -/
def Blank (s : List Char) : Prop := atLineEnd (s.dropWhile fun c => c == ' ' || c == '\t') = true

theorem Blank.nil : Blank [] := rfl

theorem blank_cons {c : Char} {s : List Char} :
    Blank (c :: s) ↔ isLineEnd c = true ∨ (c = ' ' ∨ c = '\t') ∧ Blank s := by
  unfold Blank
  by_cases hc : c = ' ' ∨ c = '\t'
  · have hend : isLineEnd c = false := by rcases hc with rfl | rfl <;> rfl
    rw [List.dropWhile_cons_of_pos (by simpa using hc), hend]
    simp [hc]
  · rw [List.dropWhile_cons_of_neg (by simpa using hc)]
    simp [hc, atLineEnd]

theorem Blank.of_atLineEnd {s : List Char} (h : atLineEnd s = true) : Blank s := by
  cases s with
  | nil => exact .nil
  | cons c s => exact blank_cons.2 (.inl h)

/-! ## Tails -/

/-- What follows a text: the end of its last line, and the text behind it. -/
structure Tail where
  stop : List Char
  behind : List Char

namespace Tail

def text (t : Tail) : List Char := t.stop ++ t.behind

/-- What is left of a text with a tail, if `r` is left of the text alone, and a line begins there. -/
def after (t : Tail) (r : List Char) : List Char := if r = [] then t.behind else r ++ t.text

/-- The part of the tail that is read, if `r` is left of the text alone. -/
def stopAt (t : Tail) (r : List Char) : List Char := if r = [] then t.stop else []

/-- The tail ends a line, and a blank line or nothing comes then. -/
structure Valid (t : Tail) : Prop where
  stop : t.stop = [] ∨ t.stop = ['\n'] ∨ t.stop = ['\r', '\n']
  behind : t.stop = [] → t.behind = []
  blank : Blank t.behind

variable {t : Tail}

@[simp] theorem after_nil : t.after [] = t.behind := rfl

theorem after_of_ne {r : List Char} (h : r ≠ []) : t.after r = r ++ t.text := if_neg h

@[simp] theorem stopAt_nil : t.stopAt [] = t.stop := rfl

theorem stopAt_of_ne {r : List Char} (h : r ≠ []) : t.stopAt r = [] := if_neg h

theorem Valid.atLineEnd (h : t.Valid) : atLineEnd t.text = true := by
  rcases h.stop with hs | hs | hs
  · rw [text, hs, h.behind hs]; rfl
  · rw [text, hs]; rfl
  · rw [text, hs]; rfl

theorem Valid.splitLineEnd (h : t.Valid) : splitLineEnd t.text = (t.stop, t.behind) := by
  rcases h.stop with hs | hs | hs
  · rw [text, hs, h.behind hs]; rfl
  · rw [text, hs]; rfl
  · rw [text, hs]; rfl

theorem Valid.isLineEnd_of_mem (h : t.Valid) {r : List Char} {c : Char} (hc : c ∈ t.stopAt r) :
    isLineEnd c = true := by
  unfold stopAt at hc
  split at hc
  · rcases h.stop with hs | hs | hs <;> rw [hs] at hc <;> simp at hc
    · rw [hc]; rfl
    · rcases hc with rfl | rfl <;> rfl
  · cases hc

theorem Valid.atLineEnd_stopAt (h : t.Valid) (r : List Char) :
    Markdown.atLineEnd (t.stopAt r) = true := by
  cases hs : t.stopAt r with
  | nil => rfl
  | cons c s => exact h.isLineEnd_of_mem (by rw [hs]; exact List.mem_cons_self)

theorem Valid.contains_stopAt (h : t.Valid) (r : List Char) {c : Char}
    (hc : isLineEnd c = false) : (t.stopAt r).contains c = false := by
  rw [← Bool.not_eq_true, List.contains_iff_mem]
  intro hmem
  rw [h.isLineEnd_of_mem hmem] at hc
  cases hc

end Tail

/-! ## Lines -/

section Line

variable {y : List Char} (hy : atLineEnd y = true)
include hy

theorem atLineEnd_append (x : List Char) : atLineEnd (x ++ y) = atLineEnd x := by
  cases x with
  | nil => exact hy
  | cons => rfl

theorem dropBlanks_append (x : List Char) : dropBlanks (x ++ y) = dropBlanks x ++ y :=
  dropWhile_append (stops_of_atLineEnd ⟨rfl, rfl⟩ hy) x

theorem isBlankLine_append (x : List Char) : isBlankLine (x ++ y) = isBlankLine x := by
  rw [isBlankLine, dropBlanks_append hy, atLineEnd_append hy, isBlankLine]

theorem lineText_append (x : List Char) : lineText (x ++ y) = lineText x :=
  takeWhile_append (stops_of_atLineEnd ⟨rfl, rfl⟩ hy) x

end Line

theorem splitLineEnd_cons_of_ne {c : Char} (hc : c ≠ '\r') (s : List Char) :
    splitLineEnd (c :: s) = if isLineEnd c then ([c], s) else ([], c :: s) := by
  simp [splitLineEnd, hc]

theorem splitLineEnd_append_of_ne {x : List Char} (h : EndsInLine x) (hx : x ≠ [])
    (y : List Char) : splitLineEnd (x ++ y) = ((splitLineEnd x).1, (splitLineEnd x).2 ++ y) := by
  obtain ⟨c, x, rfl⟩ := List.exists_cons_of_ne_nil hx
  by_cases hc : c = '\r'
  · obtain ⟨d, x, rfl⟩ := List.exists_cons_of_ne_nil (h.ne_nil (by rw [hc]; rfl))
    subst hc
    by_cases hd : d = '\n'
    · subst hd; rfl
    · simp [splitLineEnd, hd, isLineEnd]
  · rw [List.cons_append, splitLineEnd_cons_of_ne hc, splitLineEnd_cons_of_ne hc]
    split <;> rfl

theorem isLineEnd_of_mem_splitLineEnd {s : List Char} {c : Char} (h : c ∈ (splitLineEnd s).1) :
    isLineEnd c = true := by
  unfold splitLineEnd at h
  split at h
  · simp only [List.mem_cons, List.not_mem_nil, or_false] at h
    rcases h with rfl | rfl <;> rfl
  · split at h
    next hd => simp only [List.mem_singleton] at h; rwa [h]
    next => cases h
  · cases h

/-- No line end stands at the end of the text. -/
theorem EndsInLine.skipLineEnd_ne_nil {x : List Char} (hx : EndsInLine x) (hne : x ≠ []) :
    skipLineEnd x ≠ [] := by
  intro hnil
  have hall : (splitLineEnd x).1 = x := by
    have := splitLineEnd_append x
    rwa [show (splitLineEnd x).2 = [] from hnil, List.append_nil] at this
  have hlast : isLineEnd (x.getLast hne) = true :=
    isLineEnd_of_mem_splitLineEnd (by rw [hall]; exact List.getLast_mem hne)
  rw [(hx _ (List.getLast?_eq_some_getLast hne)).1] at hlast
  cases hlast

theorem splitLineEnd_suffix (s : List Char) : (splitLineEnd s).2 <:+ s :=
  ⟨_, splitLineEnd_append s⟩

theorem skipLineEnd_suffix (s : List Char) : skipLineEnd s <:+ s := splitLineEnd_suffix s

theorem dropBlanks_suffix (s : List Char) : dropBlanks s <:+ s := List.dropWhile_suffix _

theorem skipLineEnd_suffix_of_isLineEnd {c : Char} (hc : isLineEnd c = true) (s : List Char) :
    skipLineEnd (c :: s) <:+ s := by
  rw [skipLineEnd]
  unfold splitLineEnd
  split
  next heq => rw [(List.cons.inj heq).2]; exact List.suffix_cons ..
  next heq =>
    obtain ⟨rfl, rfl⟩ := List.cons.inj heq
    simp [hc]
  next heq => cases heq

theorem skipBlankLine_suffix (s : List Char) : skipBlankLine s <:+ s :=
  (skipLineEnd_suffix _).trans (dropBlanks_suffix s)

theorem takeLine_suffix (s : List Char) : (takeLine s).2 <:+ s := ⟨_, takeLine_append s⟩

theorem takeLiteral_suffix (s : List Char) : (takeLiteral s).2 <:+ s := by
  rw [takeLiteral]
  split
  · exact List.nil_suffix
  next heq => exact (List.suffix_cons _ _).trans (heq ▸ List.dropWhile_suffix _)

section Valid

variable {t : Tail} (ht : t.Valid) {x : List Char} (hx : EndsInLine x)
include ht hx

theorem splitLineEnd_tail :
    splitLineEnd (x ++ t.text) =
      ((splitLineEnd x).1 ++ t.stopAt (skipLineEnd x), t.after (skipLineEnd x)) := by
  by_cases hne : x = []
  · rw [hne]
    exact ht.splitLineEnd
  · have hmore := hx.skipLineEnd_ne_nil hne
    rw [splitLineEnd_append_of_ne hx hne, Tail.stopAt_of_ne hmore, Tail.after_of_ne hmore,
      List.append_nil]
    rfl

theorem skipLineEnd_tail : skipLineEnd (x ++ t.text) = t.after (skipLineEnd x) := by
  rw [skipLineEnd, splitLineEnd_tail ht hx]

theorem skipBlankLine_tail : skipBlankLine (x ++ t.text) = t.after (skipBlankLine x) := by
  rw [skipBlankLine, dropBlanks_append ht.atLineEnd, skipLineEnd,
    splitLineEnd_tail ht (hx.of_suffix (dropBlanks_suffix x))]
  rfl

theorem takeLine_tail :
    takeLine (x ++ t.text) =
      ((takeLine x).1 ++ t.stopAt (takeLine x).2, t.after (takeLine x).2) := by
  have hstops : Stops (!isLineEnd ·) t.text := stops_of_atLineEnd ⟨rfl, rfl⟩ ht.atLineEnd
  simp only [takeLine, takeWhile_append hstops, dropWhile_append hstops,
    splitLineEnd_tail ht (hx.of_suffix (List.dropWhile_suffix _)), List.append_assoc]
  rfl

theorem takeLiteral_tail :
    takeLiteral (x ++ t.text) =
      ((takeLiteral x).1 ++ t.stopAt (takeLiteral x).2, t.after (takeLiteral x).2) := by
  cases hd : x.dropWhile (· != '\n') with
  | nil =>
    -- the line goes to the end of the text
    have hall : ∀ c ∈ x, (c != '\n') = true := List.dropWhile_eq_nil_iff.1 hd
    have hx' : takeLiteral x = (x, []) := by rw [takeLiteral, hd]
    rw [hx', takeLiteral, List.dropWhile_append_of_pos hall, List.takeWhile_append_of_pos hall]
    rcases ht.stop with hs | hs | hs
    · simp [Tail.text, hs, ht.behind hs]
    · simp [Tail.text, hs]
    · simp [Tail.text, hs]
  | cons c r =>
    have hmore : r ≠ [] := by
      have hsuffix : c :: r <:+ x := hd ▸ List.dropWhile_suffix _
      have hc := List.head_dropWhile_not (· != '\n') (by rw [hd]; exact List.cons_ne_nil c r)
      have hc : c = '\n' := by simpa [hd] using hc
      exact (hx.of_suffix hsuffix).ne_nil (by rw [hc]; rfl)
    have hx' : takeLiteral x = (x.takeWhile (· != '\n') ++ ['\n'], r) := by rw [takeLiteral, hd]
    rw [hx', takeLiteral, List.dropWhile_append, List.takeWhile_append, hd]
    have hlen : (x.takeWhile (· != '\n')).length ≠ x.length := by
      have := congrArg List.length (List.takeWhile_append_dropWhile (p := (· != '\n')) (l := x))
      rw [hd, List.length_append, List.length_cons] at this
      omega
    simp [hlen, Tail.stopAt_of_ne hmore, Tail.after_of_ne hmore]

end Valid

end Treatise.Markdown
