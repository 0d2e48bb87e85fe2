/-!
# Searching and cutting

Elementary cuts of a text. `splitOnce?` and `splitAt?` look for the first place of a character or a
pattern; `stripStart?` and `stripEnd?` take a pattern off one end.
-/

namespace Treatise.Text

/-- The length of a text in bytes of its UTF-8 form. -/
def byteLength (s : List Char) : Nat := s.foldr (fun c length => c.utf8Size + length) 0

@[simp] theorem byteLength_nil : byteLength [] = 0 := rfl

@[simp] theorem byteLength_cons (c : Char) (s : List Char) :
    byteLength (c :: s) = c.utf8Size + byteLength s := rfl

@[simp] theorem byteLength_append (s t : List Char) :
    byteLength (s ++ t) = byteLength s + byteLength t := by
  induction s with
  | nil => simp
  | cons c s ih => rw [List.cons_append, byteLength_cons, byteLength_cons, ih, Nat.add_assoc]

/-- What follows `pattern` at the start of the text. -/
def stripStart? : (pattern : List Char) → List Char → Option (List Char)
  | [], s => some s
  | _ :: _, [] => none
  | p :: ps, c :: s => if p = c then stripStart? ps s else none

theorem stripStart?_eq_some_iff {p s r : List Char} : stripStart? p s = some r ↔ s = p ++ r := by
  induction p generalizing s with
  | nil => simp [stripStart?, eq_comm]
  | cons c p ih =>
    cases s with
    | nil => simp [stripStart?]
    | cons d s =>
      by_cases h : c = d
      · simp [stripStart?, h, ih]
      · simp [stripStart?, h, Ne.symm h]

theorem stripStart?_eq_none_iff {p s : List Char} : stripStart? p s = none ↔ ¬p <+: s := by
  rw [Option.eq_none_iff_forall_ne_some]
  simp only [ne_eq, stripStart?_eq_some_iff, List.IsPrefix, not_exists, @eq_comm _ s]

/-- What precedes `pattern` at the end of the text. -/
def stripEnd? (pattern s : List Char) : Option (List Char) :=
  (stripStart? pattern.reverse s.reverse).map List.reverse

theorem stripEnd?_eq_some_iff {p s r : List Char} : stripEnd? p s = some r ↔ s = r ++ p := by
  simp only [stripEnd?, Option.map_eq_some_iff, stripStart?_eq_some_iff]
  constructor
  · rintro ⟨a, ha, rfl⟩
    have := congrArg List.reverse ha
    simpa using this
  · rintro rfl
    exact ⟨r.reverse, by simp, by simp⟩

/-- `stripStart?` with a pattern given as a string. -/
def after? (pattern : String) (s : List Char) : Option (List Char) :=
  stripStart? pattern.toList s

theorem after?_eq_some_iff {pattern : String} {s r : List Char} :
    after? pattern s = some r ↔ s = pattern.toList ++ r :=
  stripStart?_eq_some_iff

/-- The text before and after the first `c`. -/
def splitOnce? (c : Char) : List Char → Option (List Char × List Char)
  | [] => none
  | d :: s => if d = c then some ([], s) else (splitOnce? c s).map fun p => (d :: p.1, p.2)

theorem splitOnce?_eq_some_iff {c : Char} {s a b : List Char} :
    splitOnce? c s = some (a, b) ↔ s = a ++ c :: b ∧ c ∉ a := by
  induction s generalizing a with
  | nil => simp [splitOnce?]
  | cons d s ih =>
    by_cases h : d = c
    · subst h
      cases a with
      | nil => simp [splitOnce?, eq_comm]
      | cons x a =>
        simp only [splitOnce?, if_true, Option.some.injEq, Prod.mk.injEq, reduceCtorEq, false_and,
          List.cons_append, List.cons.injEq, List.mem_cons, not_or, false_iff, not_and]
        rintro ⟨rfl, -⟩ hx
        exact absurd rfl hx
    · cases a with
      | nil => simp [splitOnce?, h]
      | cons x a =>
        simp only [splitOnce?, h, if_false, Option.map_eq_some_iff, Prod.exists, Prod.mk.injEq,
          List.cons.injEq, List.cons_append, List.mem_cons, not_or]
        constructor
        · rintro ⟨a', b', hs, ⟨rfl, rfl⟩, rfl⟩
          obtain ⟨hs, hn⟩ := ih.1 hs
          exact ⟨⟨rfl, hs⟩, Ne.symm h, hn⟩
        · rintro ⟨⟨rfl, hs⟩, -, hn⟩
          exact ⟨a, b, ih.2 ⟨hs, hn⟩, ⟨rfl, rfl⟩, rfl⟩

/-- The text before and after the first occurrence of `pattern`. -/
def splitAt? (pattern : List Char) : List Char → Option (List Char × List Char)
  | [] => if pattern = [] then some ([], []) else none
  | c :: s =>
    match stripStart? pattern (c :: s) with
    | some rest => some ([], rest)
    | none => (splitAt? pattern s).map fun p => (c :: p.1, p.2)

/-- The cut is at the first occurrence: every other one has more in front of it. -/
theorem splitAt?_eq_some_iff {p s a b : List Char} :
    splitAt? p s = some (a, b) ↔ s = a ++ p ++ b ∧ ∀ front, front ++ p <+: s → a <+: front := by
  induction s generalizing a with
  | nil =>
    cases p with
    | nil => cases a <;> simp [splitAt?, eq_comm]
    | cons c p => simp [splitAt?]
  | cons c s ih =>
    rw [splitAt?]
    cases hstrip : stripStart? p (c :: s) with
    | some rest =>
      -- the pattern stands at the very start, and no occurrence has less in front of it
      have hstart := stripStart?_eq_some_iff.1 hstrip
      constructor
      · rintro ⟨⟩
        exact ⟨hstart, fun front _ => List.nil_prefix⟩
      · rintro ⟨heq, hfirst⟩
        obtain rfl := List.prefix_nil.1 (hfirst [] ⟨rest, hstart.symm⟩)
        rw [List.append_cancel_left (hstart.symm.trans heq)]
    | none =>
      -- every occurrence has the first character in front of it
      have hnot : ¬p <+: c :: s := stripStart?_eq_none_iff.1 hstrip
      simp only [Option.map_eq_some_iff, Prod.exists, Prod.mk.injEq]
      constructor
      · rintro ⟨a, b, hs, rfl, rfl⟩
        obtain ⟨hs, hfirst⟩ := ih.1 hs
        refine ⟨by rw [hs]; rfl, fun front hfront => ?_⟩
        cases front with
        | nil => exact absurd hfront hnot
        | cons d front =>
          obtain ⟨rfl, htail⟩ := List.cons_prefix_cons.1 hfront
          exact List.cons_prefix_cons.2 ⟨rfl, hfirst front htail⟩
      · rintro ⟨heq, hfirst⟩
        cases a with
        | nil => exact absurd ⟨b, heq.symm⟩ hnot
        | cons d a =>
          obtain ⟨rfl, hs⟩ := List.cons.inj heq
          refine ⟨a, b, ih.2 ⟨hs, fun front hfront => ?_⟩, rfl, rfl⟩
          have hlonger := hfirst (c :: front) (List.cons_prefix_cons.2 ⟨rfl, hfront⟩)
          exact (List.cons_prefix_cons.1 hlonger).2

theorem splitAt?_eq_none_iff {p s : List Char} : splitAt? p s = none ↔ ¬p <:+: s := by
  induction s with
  | nil => cases p <;> simp [splitAt?]
  | cons c s ih =>
    rw [splitAt?, List.infix_cons_iff, not_or, ← ih, ← stripStart?_eq_none_iff]
    cases stripStart? p (c :: s) <;> simp

/-- `pattern` occurs in the text. -/
def occursIn (pattern s : List Char) : Bool := (splitAt? pattern s).isSome

theorem occursIn_iff {p s : List Char} : occursIn p s = true ↔ p <:+: s := by
  rw [occursIn, Option.isSome_iff_ne_none, ne_eq, splitAt?_eq_none_iff, Decidable.not_not]

/-- The pieces of a text between the separators `c`: one more than there are separators. -/
def splitAll (c : Char) : List Char → List (List Char)
  | [] => [[]]
  | d :: s =>
    if d = c then [] :: splitAll c s
    else match splitAll c s with
      | [] => [[d]]
      | l :: ls => (d :: l) :: ls

end Treatise.Text
