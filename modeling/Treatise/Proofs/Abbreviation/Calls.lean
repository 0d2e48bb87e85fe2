import Mathlib.Data.List.Basic
import Treatise.Proofs.Abbreviation.Passes
import Treatise.Proofs.Trimming

/-!
# Calls as they are written

A call is written as the name of an abbreviation and a list of arguments in parentheses. What a
pass makes of it depends on the arguments alone, not on the blanks around them nor on the text that
follows.

* `Argument`, `Argument.WellFormed` — the ways to write an argument;
* `exists_readCall?_writtenList` — a list that is written is read back;
* `Definition.Accepts` — which arguments an abbreviation takes;
* **`apply_written_call`** — a pass replaces the first call if the abbreviation takes its arguments,
  and keeps the name otherwise.
-/

namespace Treatise.Abbreviation

open Markdown (Stops)

/-! ## Arguments -/

/-- Every brace has its partner. -/
inductive Balanced : List Char → Prop where
  | nil : Balanced []
  | other {c : Char} {s : List Char} (hopening : c ≠ '{') (hclosing : c ≠ '}') (hs : Balanced s) :
      Balanced (c :: s)
  | group {a s : List Char} (ha : Balanced a) (hs : Balanced s) : Balanced ('{' :: a ++ '}' :: s)

inductive Argument where
  /-- Nothing is written. -/
  | omitted
  /-- A text in braces. -/
  | group (text : List Char)
  /-- A text without braces around it. -/
  | bare (word : List Char)

namespace Argument

def written : Argument → List Char
  | omitted => []
  | group text => '{' :: text ++ ['}']
  | bare word => word

/-- What is put into the place of the parameter. -/
def value? : Argument → Option (List Char)
  | omitted => none
  | group text => some text
  | bare word => some word

inductive WellFormed : Argument → Prop where
  | omitted : WellFormed omitted
  | group {text : List Char} (h : Balanced text) : WellFormed (group text)
  | bare {word : List Char} (hne : word ≠ [])
      (hword : ∀ c ∈ word, c ≠ ',' ∧ c ≠ '(' ∧ c ≠ ')' ∧ c ≠ '\n')
      (hstart : ∀ c ∈ word.head?, Text.isAsciiBlank c = false ∧ c ≠ '{')
      (hend : ∀ c ∈ word.getLast?, Text.isBlank c = false) : WellFormed (bare word)

end Argument

/-- An argument with the blanks around it. -/
structure Item where
  before : List Char
  argument : Argument
  behind : List Char

namespace Item

def written (i : Item) : List Char := i.before ++ i.argument.written ++ i.behind

structure WellFormed (i : Item) : Prop where
  before : ∀ c ∈ i.before, Text.isAsciiBlank c = true
  argument : i.argument.WellFormed
  behind : ∀ c ∈ i.behind, Text.isAsciiBlank c = true

end Item

/-- A list of arguments in parentheses. -/
def writtenList (items : List Item) : List Char :=
  '(' :: [','].intercalate (items.map Item.written) ++ [')']

/-! ## Reading one argument -/

/-- A group is read to the brace that closes it, and not to one inside. -/
theorem closeGroup?_append {a : List Char} (ha : Balanced a) (depth : Nat) (s : List Char) :
    closeGroup? depth (a ++ s) = (closeGroup? depth s).map fun p => (a ++ p.1, p.2) := by
  induction ha generalizing depth s with
  | nil => simp
  | @other c t hopening hclosing _ ih =>
    have hgoesOn : closeGroup? depth (c :: (t ++ s)) =
        (closeGroup? depth (t ++ s)).map fun p => (c :: p.1, p.2) := by
      rw [closeGroup?.eq_def]
      simp only [if_neg hclosing, if_neg hopening]
    rw [List.cons_append, hgoesOn, ih, Option.map_map]
    rfl
  | @group a t _ _ iha iht =>
    have hopened : closeGroup? depth ('{' :: a ++ '}' :: t ++ s) =
        (closeGroup? (depth + 1) (a ++ '}' :: (t ++ s))).map fun p => ('{' :: p.1, p.2) := by
      simp [closeGroup?]
    have hclosed : closeGroup? (depth + 1) ('}' :: (t ++ s)) =
        (closeGroup? depth (t ++ s)).map fun p => ('}' :: p.1, p.2) := by
      simp [closeGroup?]
    rw [hopened, iha, hclosed, iht]
    simp [Option.map_map, Function.comp_def]

theorem readArgument?_group {text : List Char} (h : Balanced text) (s : List Char) :
    readArgument? ('{' :: text ++ '}' :: s) = some (some text, s) := by
  simp [readArgument?, closeGroup?_append h, closeGroup?]

/-- A mark that ends an argument. -/
def IsStop (c : Char) : Prop := c = ',' ∨ c = ')'

theorem IsStop.endsBareArgument {c : Char} (h : IsStop c) : endsBareArgument c = true := by
  rcases h with rfl | rfl <;> decide

theorem IsStop.not_blank {c : Char} (h : IsStop c) : Text.isAsciiBlank c = false := by
  rcases h with rfl | rfl <;> decide

theorem skipAsciiBlanks_append {blanks : List Char} (h : ∀ c ∈ blanks, Text.isAsciiBlank c = true)
    (s : List Char) : skipAsciiBlanks (blanks ++ s) = skipAsciiBlanks s :=
  List.dropWhile_append_of_pos h

theorem skipAsciiBlanks_eq_self {s : List Char} (h : Stops Text.isAsciiBlank s) :
    skipAsciiBlanks s = s :=
  Markdown.dropWhile_append h []

theorem skipAsciiBlanks_stop {blanks : List Char} (h : ∀ c ∈ blanks, Text.isAsciiBlank c = true)
    {c : Char} (hc : IsStop c) (s : List Char) : skipAsciiBlanks (blanks ++ c :: s) = c :: s := by
  rw [skipAsciiBlanks_append h, skipAsciiBlanks_eq_self]
  rintro d ⟨rfl⟩
  exact hc.not_blank

section Item

variable {i : Item} {c : Char}

/-- Where an argument is read, the blanks before it have been skipped; if it is omitted, so have
those behind it. -/
theorem skipAsciiBlanks_item (hi : i.WellFormed) (hc : IsStop c) (s : List Char) :
    skipAsciiBlanks (i.written ++ c :: s) =
      match i.argument with
      | .omitted => c :: s
      | a => a.written ++ (i.behind ++ c :: s) := by
  have hargument := hi.argument
  rw [Item.written, List.append_assoc, List.append_assoc, skipAsciiBlanks_append hi.before]
  generalize i.argument = a at hargument ⊢
  cases hargument with
  | omitted => exact skipAsciiBlanks_stop hi.behind hc s
  | group =>
    refine skipAsciiBlanks_eq_self ?_
    rintro d ⟨rfl⟩
    decide
  | bare hne _ hstart =>
    obtain ⟨d, word, rfl⟩ := List.exists_cons_of_ne_nil hne
    refine skipAsciiBlanks_eq_self ?_
    rintro e ⟨rfl⟩
    exact (hstart d rfl).1

/-- A bare argument ends before the first mark that no bare argument holds; that may be a line end
among the blanks behind it. -/
theorem readArgument?_bare (word behind : List Char)
    (hword : ∀ c ∈ word, c ≠ ',' ∧ c ≠ '(' ∧ c ≠ ')' ∧ c ≠ '\n')
    (hend : Stops Text.isBlank word.reverse) (hbehind : ∀ c ∈ behind, Text.isAsciiBlank c = true)
    (hc : IsStop c) (s : List Char) (hbrace : ∀ r, word ++ (behind ++ c :: s) ≠ '{' :: r) :
    ∃ r, readArgument? (word ++ (behind ++ c :: s)) =
        some (if word.isEmpty then none else some word, r) ∧ skipAsciiBlanks r = c :: s := by
  have hnot : ∀ d ∈ word, (!endsBareArgument d) = true := by
    intro d hd
    obtain ⟨h1, h2, h3, h4⟩ := hword d hd
    simp [endsBareArgument, h1, h2, h3, h4]
  have hstop : Stops (!endsBareArgument ·) (c :: s) := by
    rintro d ⟨rfl⟩
    simp [hc.endsBareArgument]
  have htake : (word ++ (behind ++ c :: s)).takeWhile (!endsBareArgument ·) =
      word ++ behind.takeWhile (!endsBareArgument ·) := by
    rw [List.takeWhile_append_of_pos hnot, Markdown.takeWhile_append hstop]
  have hdrop : (word ++ (behind ++ c :: s)).dropWhile (!endsBareArgument ·) =
      behind.dropWhile (!endsBareArgument ·) ++ c :: s := by
    rw [List.dropWhile_append_of_pos hnot, Markdown.dropWhile_append hstop]
  -- what the reader takes behind the word is blank, and the word is trimmed of it
  have hblank : Text.isAllBlank (behind.takeWhile (!endsBareArgument ·)) = true := by
    refine Text.isAllBlank_iff.2 fun d hd => Text.isBlank_of_isAsciiBlank (hbehind d ?_)
    exact (List.takeWhile_sublist _).subset hd
  refine ⟨behind.dropWhile (!endsBareArgument ·) ++ c :: s, ?_, ?_⟩
  · rw [readArgument?.eq_def]
    split
    · next r heq => exact absurd heq (hbrace r)
    · rw [htake, hdrop, Text.trimEnd_append_of_stops hblank hend]
  · refine skipAsciiBlanks_stop (fun d hd => hbehind d ?_) hc s
    exact (List.dropWhile_suffix _).subset hd

theorem readArgument?_item (hi : i.WellFormed) (hc : IsStop c) (s : List Char) :
    ∃ r, readArgument? (skipAsciiBlanks (i.written ++ c :: s)) = some (i.argument.value?, r) ∧
      skipAsciiBlanks r = c :: s := by
  have hargument := hi.argument
  rw [skipAsciiBlanks_item hi hc]
  generalize i.argument = a at hargument ⊢
  cases hargument with
  | omitted =>
    refine readArgument?_bare [] [] nofun nofun nofun hc s ?_
    rintro r ⟨⟩
    rcases hc with h | h <;> cases h
  | @group text h =>
    refine ⟨i.behind ++ c :: s, ?_, skipAsciiBlanks_stop hi.behind hc s⟩
    show readArgument? ('{' :: text ++ ['}'] ++ (i.behind ++ c :: s)) = _
    rw [List.append_assoc]
    exact readArgument?_group h (i.behind ++ c :: s)
  | @bare word hne hword hstart hend =>
    have hread := readArgument?_bare word i.behind hword (by simpa [Stops] using hend) hi.behind hc
      s fun r heq => ?_
    · simpa [hne] using! hread
    · obtain ⟨d, word, rfl⟩ := List.exists_cons_of_ne_nil hne
      exact (hstart d rfl).2 (List.cons.inj heq).1

/-! ## Reading a list of arguments -/

/-- A list may end before any argument. -/
theorem readArguments?_closed {bound : Nat} {s r : List Char} (h : skipAsciiBlanks s = ')' :: r) :
    readArguments? (bound + 1) [] s = some ([], r) := by
  rw [readArguments?.eq_def]
  simp only [h]

/-- Otherwise an argument is read. -/
theorem readArguments?_succ {bound : Nat} {before : List (Option (List Char))} {s : List Char}
    (h : before = [] → ∀ r, skipAsciiBlanks s ≠ ')' :: r) :
    readArguments? (bound + 1) before s =
      match readArgument? (skipAsciiBlanks s) with
      | none => none
      | some (arg, s) =>
        match skipAsciiBlanks s with
        | ',' :: s => readArguments? bound (before ++ [arg]) s
        | ')' :: s => some (before ++ [arg], s)
        | _ => none := by
  rw [readArguments?.eq_def]
  dsimp only
  split
  · next r heq => exact absurd heq (h rfl r)
  · rfl

theorem readArguments?_item (hi : i.WellFormed) (hc : IsStop c) {before : List (Option (List Char))}
    (hfirst : before = [] → c = ')' → i.argument ≠ .omitted) (bound : Nat) (s : List Char) :
    readArguments? (bound + 1) before (i.written ++ c :: s) =
      if c = ',' then readArguments? bound (before ++ [i.argument.value?]) s
      else some (before ++ [i.argument.value?], s) := by
  have hclosed : before = [] → ∀ r, skipAsciiBlanks (i.written ++ c :: s) ≠ ')' :: r := by
    intro hnil r heq
    rw [skipAsciiBlanks_item hi hc] at heq
    have hargument := hi.argument
    generalize i.argument = a at hargument heq hfirst
    cases hargument with
    | omitted => exact hfirst hnil (List.cons.inj heq).1 rfl
    | group => cases heq
    | bare hne hword =>
      obtain ⟨d, word, rfl⟩ := List.exists_cons_of_ne_nil hne
      exact (hword d List.mem_cons_self).2.2.1 (List.cons.inj heq).1
  obtain ⟨r, hread, hskip⟩ := readArgument?_item hi hc s
  rw [readArguments?_succ hclosed, hread]
  simp only [hskip]
  rcases hc with rfl | rfl <;> rfl

end Item

section Items

variable {items : List Item}

theorem length_le_intercalate (items : List Item) :
    items.length ≤ ([','].intercalate (items.map Item.written)).length + 1 := by
  induction items with
  | nil => simp
  | cons i items ih =>
    cases items with
    | nil => simp
    | cons j items =>
      simp only [List.map_cons, List.intercalate_cons_cons, List.length_append,
        List.length_cons, List.length_nil] at ih ⊢
      omega

/-- A list is read item by item. Induction on the items; all but the last end in a comma, and only a
list of one item that is omitted looks like the empty list. -/
theorem readArguments?_items (hne : items ≠ []) (hitems : ∀ i ∈ items, i.WellFormed)
    {before : List (Option (List Char))}
    (hfirst : before = [] → ∀ i, items = [i] → i.argument ≠ .omitted) {bound : Nat}
    (hbound : items.length ≤ bound) (s : List Char) :
    readArguments? bound before ([','].intercalate (items.map Item.written) ++ ')' :: s) =
      some (before ++ items.map (·.argument.value?), s) := by
  induction items generalizing before bound with
  | nil => exact absurd rfl hne
  | cons i items ih =>
    obtain ⟨bound, rfl⟩ := Nat.exists_eq_succ_of_ne_zero (Nat.ne_zero_of_lt hbound)
    obtain ⟨hi, hmore⟩ := List.forall_mem_cons.1 hitems
    cases items with
    | nil =>
      rw [List.map_singleton, List.intercalate_singleton,
        readArguments?_item hi (.inr rfl) (fun hnil _ => hfirst hnil i rfl)]
      rfl
    | cons j items =>
      rw [List.map_cons, List.map_cons, List.intercalate_cons_cons, List.append_assoc,
        List.append_assoc, List.singleton_append,
        readArguments?_item hi (.inl rfl) (fun _ h => absurd h (by decide)), if_pos rfl,
        ← List.map_cons,
        ih (List.cons_ne_nil j items) hmore (by simp) (Nat.le_of_succ_le_succ hbound)]
      simp

/-- The values depend on what is given at each place. -/
theorem bind?_congr {params : List Param} {args args' : List (Option (List Char))}
    (h : ∀ n, args.getD n none = args'.getD n none)
    (hlength : params.length < args.length ↔ params.length < args'.length) :
    bind? params args = bind? params args' := by
  rw [bind?, bind?, if_congr hlength rfl rfl]
  simp only [h]

/-- A list that is written is read back. One omitted argument counts as none, which gives the same
values to the parameters. -/
theorem exists_readCall?_writtenList {params : List Param} (hparams : params ≠ [])
    (hne : items ≠ []) (hitems : ∀ i ∈ items, i.WellFormed) (s : List Char) :
    ∃ args, readCall? (writtenList items ++ s) = some (args, s) ∧
      bind? params args = bind? params (items.map (·.argument.value?)) := by
  have hread : readCall? (writtenList items ++ s) =
      readArguments? (([','].intercalate (items.map Item.written) ++ ')' :: s).length + 1) []
        ([','].intercalate (items.map Item.written) ++ ')' :: s) := by
    simp [readCall?, writtenList]
  rw [hread]
  by_cases homitted : ∃ i, items = [i] ∧ i.argument = .omitted
  · obtain ⟨i, rfl, hi⟩ := homitted
    have hskip := skipAsciiBlanks_item (hitems i (by simp)) (.inr rfl) s
    rw [hi] at hskip
    refine ⟨[], ?_, ?_⟩
    · rw [List.map_singleton, List.intercalate_singleton]
      exact readArguments?_closed hskip
    · have hlength := List.length_pos_iff.2 hparams
      rw [List.map_singleton, hi]
      refine bind?_congr (fun n => ?_) (by simp; omega)
      cases n <;> rfl
  · refine ⟨items.map (·.argument.value?), ?_, rfl⟩
    refine readArguments?_items hne hitems (fun _ i heq hi => homitted ⟨i, heq, hi⟩) ?_ s
    have hlength := length_le_intercalate items
    simp only [List.length_append, List.length_cons]
    omega

end Items

/-! ## The values of the parameters -/

section Values

variable {α β : Type} {f : α → Option β} {l : List α}

theorem mapM_eq_some_iff {r : List β} : l.mapM f = some r ↔ l.map f = r.map some := by
  induction l generalizing r with
  | nil => cases r <;> simp
  | cons a l ih =>
    simp only [List.mapM_cons, bind, Option.bind_eq_some_iff, pure, Option.some.injEq, ih]
    constructor
    · rintro ⟨b, hb, bs, hbs, rfl⟩
      rw [List.map_cons, hb, hbs, List.map_cons]
    · intro h
      cases r with
      | nil => cases h
      | cons b bs =>
        obtain ⟨hb, hbs⟩ := List.cons.inj h
        exact ⟨b, hb, bs, hbs, rfl⟩

theorem mapM_eq_none_iff : l.mapM f = none ↔ ∃ a ∈ l, f a = none := by
  induction l with
  | nil => simp
  | cons a l ih =>
    simp only [List.mapM_cons, List.mem_cons, exists_eq_or_imp, ← ih]
    cases hf : f a with
    | none => simp
    | some b => cases hl : l.mapM f <;> simp

end Values

/-- Each parameter gets a value if there are not more arguments than parameters, and each parameter
without a default has an argument. -/
theorem isSome_bind?_iff {params : List Param} {args : List (Option (List Char))} :
    (bind? params args).isSome = true ↔ args.length ≤ params.length ∧
      ∀ (n : Nat) (p : Param), params[n]? = some p → p.default = none →
        ∃ value, args[n]? = some (some value) := by
  have hargument (n : Nat) : args.getD n none ≠ none ↔ ∃ value, args[n]? = some (some value) := by
    rw [List.getD_eq_getElem?_getD]
    cases args[n]? with
    | none => simp
    | some arg => cases arg <;> simp
  have hvalue (p : Param) (n : Nat) : (args.getD n none <|> p.default) ≠ none ↔
      (p.default = none → args.getD n none ≠ none) := by
    cases args.getD n none <;> simp
  rw [Option.isSome_iff_ne_none, bind?]
  split
  · next hlength => simp [Nat.not_le.2 hlength]
  · next hlength =>
    rw [ne_eq, mapM_eq_none_iff]
    simp only [not_exists, not_and, Nat.le_of_not_lt hlength, true_and, Prod.forall]
    constructor
    · intro h n p hp hdefault
      have hmem : (p, n) ∈ params.zipIdx := List.mem_zipIdx_iff_getElem?.2 hp
      exact (hargument n).1 ((hvalue p n).1 (h p n hmem) hdefault)
    · intro h p n hmem
      have hp : params[n]? = some p := List.mem_zipIdx_iff_getElem?.1 hmem
      exact (hvalue p n).2 fun hdefault => (hargument n).2 (h n p hp hdefault)

/-- The argument at a place, if there is one and it is not omitted. -/
def supplied (items : List Item) (n : Nat) : Option (List Char) :=
  items[n]?.bind (·.argument.value?)

theorem getD_map_value? (items : List Item) (n : Nat) :
    (items.map (·.argument.value?)).getD n none = supplied items n := by
  rw [List.getD_eq_getElem?_getD, List.getElem?_map, supplied]
  cases items[n]? <;> rfl

/-- The body with a text in the place of each parameter. -/
def Body.substitute (body : Body) (text : Nat → List Char) : List Char :=
  body.flatMap fun
    | .literal s => s
    | .slot n => text n

namespace Definition

variable {d : Definition} {items : List Item}

/-- There are not more arguments than parameters, and each parameter without a default has one. -/
structure Accepts (d : Definition) (items : List Item) : Prop where
  length_le : items.length ≤ d.params.length
  supplied : ∀ n p, d.params[n]? = some p → p.default = none → supplied items n ≠ none

theorem accepts_iff : d.Accepts items ↔ items.length ≤ d.params.length ∧
    ∀ q ∈ d.params.zipIdx, q.1.default = none → Abbreviation.supplied items q.2 ≠ none := by
  constructor
  · rintro ⟨hlength, h⟩
    exact ⟨hlength, fun q hq => h q.2 q.1 (List.mem_zipIdx_iff_getElem?.1 hq)⟩
  · rintro ⟨hlength, h⟩
    exact ⟨hlength, fun n p hp => h (p, n) (List.mem_zipIdx_iff_getElem?.2 hp)⟩

instance (d : Definition) (items : List Item) : Decidable (d.Accepts items) :=
  decidable_of_iff _ accepts_iff.symm

/-- What stands for a parameter: its argument, or else its default. -/
def replacement (d : Definition) (items : List Item) (n : Nat) : List Char :=
  ((supplied items n).or (d.params[n]?.bind (·.default))).getD []

theorem isSome_bind?_map_value?_iff :
    (bind? d.params (items.map (·.argument.value?))).isSome = true ↔ d.Accepts items := by
  have hsupplied (n : Nat) : (∃ value, (items.map (·.argument.value?))[n]? = some (some value)) ↔
      Abbreviation.supplied items n ≠ none := by
    rw [List.getElem?_map, Abbreviation.supplied]
    cases items[n]? with
    | none => simp
    | some i => simp [Option.ne_none_iff_exists']
  rw [isSome_bind?_iff, List.length_map]
  simp only [hsupplied]
  exact ⟨fun ⟨hlength, h⟩ => ⟨hlength, h⟩, fun h => ⟨h.length_le, h.supplied⟩⟩

theorem bind?_eq_none (h : ¬d.Accepts items) :
    bind? d.params (items.map (·.argument.value?)) = none := by
  rwa [← isSome_bind?_map_value?_iff, Option.not_isSome_iff_eq_none] at h

/-- If the abbreviation takes the arguments, its body gets them and the defaults. -/
theorem exists_bind? (h : d.Accepts items) :
    ∃ values, bind? d.params (items.map (·.argument.value?)) = some values ∧
      d.body.instantiate values = d.body.substitute (d.replacement items) := by
  have hbind : bind? d.params (items.map (·.argument.value?)) =
      d.params.zipIdx.mapM fun q => (supplied items q.2).or q.1.default := by
    rw [bind?, List.length_map, if_neg (Nat.not_lt.2 h.length_le)]
    simp only [getD_map_value?, Option.orElse_eq_orElse, Option.orElse_eq_or]
  obtain ⟨values, hsome⟩ := Option.isSome_iff_exists.1 (isSome_bind?_map_value?_iff.2 h)
  have hvalues := hbind.symm.trans hsome
  refine ⟨values, hsome, List.flatMap_congr fun part _ => ?_⟩
  cases part with
  | literal => rfl
  | slot n =>
    -- at each place the two lists of values agree, and behind the parameters both are empty
    have hat := congrArg (·[n]?) (mapM_eq_some_iff.1 hvalues)
    simp only [List.getElem?_map, List.getElem?_zipIdx, Option.map_map] at hat
    show values.getD n [] = d.replacement items n
    rw [List.getD_eq_getElem?_getD, replacement]
    cases hp : d.params[n]? with
    | none =>
      have hbehind : items[n]? = none := by
        have hlength := h.length_le
        rw [List.getElem?_eq_none_iff] at hp ⊢
        omega
      have hnone : values[n]? = none := by simpa [hp] using hat.symm
      simp [hnone, supplied, hbehind]
    | some p =>
      rw [hp] at hat
      cases hv : values[n]? with
      | none => simp [hv] at hat
      | some v =>
        have hvalue : (supplied items n).or p.default = some v := by simpa [hv] using hat
        simp [hvalue]

/-! ## The first call of a text -/

/-- If the name begins a text that stands in front of the name, it is a part of that text: otherwise
it would hold the backslash behind the text. -/
theorem isInfix_of_isPrefix (hname : '\\' ∉ d.name) {pre s : List Char} (hne : pre ≠ [])
    (h : d.command <+: pre ++ (d.command ++ s)) : d.command <:+: pre := by
  rcases List.prefix_or_prefix_of_prefix h (List.prefix_append pre _) with hin | ⟨t, heq⟩
  · exact hin.isInfix
  · cases t with
    | nil => exact ⟨[], [], by simpa using heq.symm⟩
    | cons b t =>
      obtain ⟨r, hr⟩ := h
      have hrest : pre ++ (b :: t ++ r) = pre ++ (d.command ++ s) := by
        rw [← List.append_assoc, heq, hr]
      have hb : b = '\\' := (List.cons.inj (List.append_cancel_left hrest)).1
      obtain ⟨c, pre, rfl⟩ := List.exists_cons_of_ne_nil hne
      have hmem : b ∈ d.name := by
        rw [← (List.cons.inj heq).2]
        simp
      exact absurd (hb ▸ hmem) hname

/-- A text without the name is kept, whatever call follows. -/
theorem apply_append (hname : '\\' ∉ d.name) {pre : List Char} (hpre : ¬d.command <:+: pre)
    (s : List Char) : d.apply (pre ++ (d.command ++ s)) = pre ++ d.apply (d.command ++ s) := by
  induction pre with
  | nil => rfl
  | cons c pre ih =>
    have hmore : ¬d.command <:+: pre := fun h => hpre (h.trans (List.suffix_cons c pre).isInfix)
    have hnot : ¬d.command <+: c :: (pre ++ (d.command ++ s)) :=
      fun h => hpre (isInfix_of_isPrefix hname (List.cons_ne_nil c pre) h)
    rw [List.cons_append, List.cons_append, apply_cons hnot, ih hmore]

/-- A pass over a text whose first call is written with a list of arguments: if the abbreviation
takes them, its body stands for the call, with arguments and defaults in the place of the
parameters, and the pass goes on behind the list; otherwise the name is kept, and the pass goes on
behind the name. Every definition that is read has such a name (`notMem_name_of_ofLine?`). -/
theorem apply_written_call (hname : '\\' ∉ d.name) (hparams : d.params ≠ []) (hne : items ≠ [])
    (hitems : ∀ i ∈ items, i.WellFormed) {pre : List Char} (hpre : ¬d.command <:+: pre)
    (post : List Char) :
    (d.Accepts items → d.apply (pre ++ d.command ++ (writtenList items ++ post)) =
      pre ++ (d.body.substitute (d.replacement items) ++ d.apply post)) ∧
    (¬d.Accepts items → d.apply (pre ++ d.command ++ (writtenList items ++ post)) =
      pre ++ (d.command ++ d.apply (writtenList items ++ post))) := by
  obtain ⟨args, hread, hbind⟩ := exists_readCall?_writtenList hparams hne hitems post
  have hcall : d.call? (writtenList items ++ post) =
      (bind? d.params (items.map (·.argument.value?))).map
        fun values => (d.body.instantiate values, post) := by
    rw [← hbind]
    cases hvalues : bind? d.params args <;> simp [call?, hparams, hread, hvalues]
  rw [List.append_assoc, apply_append hname hpre, apply_command, hcall]
  constructor
  · intro haccepts
    obtain ⟨values, hvalues, hbody⟩ := exists_bind? haccepts
    simp only [hvalues, Option.map_some, hbody]
  · intro hrefuses
    simp only [bind?_eq_none hrefuses, Option.map_none]

/-- The second argument is left to its default; where the first one is omitted, the name is kept and
the call behind it is replaced. -/
theorem apply_written_call_of_default :
    ∃ d, ofLine? "\\m(x, y=z) = \x7bx + y\x7d;".toList = some d ∧ '\\' ∉ d.name ∧ d.params ≠ [] ∧
      ¬d.command <:+: "see ".toList ∧
      (let items : List Item :=
          [⟨[' '], .group "a, \x7bb\x7d".toList, ['\n']⟩, ⟨[], .omitted, [' ']⟩];
        (∀ i ∈ items, i.WellFormed) ∧ d.Accepts items ∧
          d.apply ("see ".toList ++ d.command ++ (writtenList items ++ [])) =
            "see a, \x7bb\x7d + z".toList) ∧
      let items : List Item := [⟨[], .omitted, [' ']⟩, ⟨[], .bare "c d".toList, []⟩];
      (∀ i ∈ items, i.WellFormed) ∧ ¬d.Accepts items ∧
        d.apply ("see ".toList ++ d.command ++ (writtenList items ++ "\\m(c)".toList)) =
          "see \\m( ,c d)c + z".toList := by
  have hgroup : Balanced "a, \x7bb\x7d".toList :=
    .other (by decide) (by decide) <| .other (by decide) (by decide) <|
    .other (by decide) (by decide) <|
      .group (.other (by decide) (by decide) .nil) .nil
  have hbare : (Argument.bare "c d".toList).WellFormed := by
    refine .bare (by decide) (by simp) ?_ ?_
    · rintro c ⟨⟩
      decide
    · rintro c ⟨⟩
      decide
  have hgiven : ∀ i ∈ [Item.mk [' '] (.group "a, \x7bb\x7d".toList) ['\n'], ⟨[], .omitted, [' ']⟩],
      i.WellFormed := by
    rw [List.forall_mem_cons, List.forall_mem_singleton]
    exact ⟨⟨List.forall_mem_singleton.2 rfl, .group hgroup, List.forall_mem_singleton.2 rfl⟩, nofun,
      .omitted, List.forall_mem_singleton.2 rfl⟩
  have hmissing : ∀ i ∈ [Item.mk [] .omitted [' '], ⟨[], .bare "c d".toList, []⟩],
      i.WellFormed := by
    rw [List.forall_mem_cons, List.forall_mem_singleton]
    exact ⟨⟨nofun, .omitted, List.forall_mem_singleton.2 rfl⟩, nofun, hbare, nofun⟩
  refine ⟨⟨['m'], [⟨['x'], none⟩, ⟨['y'], some ['z']⟩],
    [.slot 0, .literal " + ".toList, .slot 1], none⟩, by decide, by decide, by decide, by decide,
    ⟨hgiven, by decide, ?_⟩, hmissing, by decide, ?_⟩
  · refine ((apply_written_call ?_ ?_ ?_ hgiven ?_ []).1 ?_).trans ?_
    all_goals decide +kernel
  · refine ((apply_written_call ?_ ?_ ?_ hmissing ?_ "\\m(c)".toList).2 ?_).trans ?_
    all_goals decide +kernel

end Definition

end Treatise.Abbreviation
