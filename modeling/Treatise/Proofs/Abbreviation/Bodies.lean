import Mathlib.Data.List.Chain
import Mathlib.Data.List.Induction
import Treatise.Abbreviation.Body

/-!
# What a body is cut into

A body is cut at the names of the parameters. Here the cut is described place by place: where names
stand, the longest one is a slot, and everywhere else a character is literal. What is said about
bodies is proved along these places.

* `Body.Chosen` — the name that is a slot at a place of the text. This is what `Body.slotAt?` finds
  (`Body.slotAt?_eq_some_iff`).
* `Body.induction_on_places` — induction along a text, by a name or a free character at a time.
* `Body.Spells` — pieces that are a cut of the text at the names.
* `Body.Substitutes` — the text with values in the places of the names, put there from left to right
  and without a second look at the values.
* **`Body.spells_compile_and_substitutes_iff`** — a body is cut like this, and filling its slots is
  this substitution.
-/

namespace Treatise.Abbreviation

/-- Whether a piece is literal text. -/
def Part.isLiteral : Part → Bool
  | literal _ => true
  | slot _ => false

namespace Body

variable {names values : List (List Char)} {name s out : List Char} {parts : Body} {i : Nat}

/-! ## Names at the start of a text -/

/-- No name stands at the start of the text; the empty name stands nowhere. -/
def Free (names : List (List Char)) (s : List Char) : Prop :=
  ∀ name ∈ names, name ≠ [] → ¬name <+: s

/-- `name`, the name with index `i`, is a slot at the start of the text: it stands there, and no
longer name does. Of a name that is given more than once, the last counts. -/
structure Chosen (names : List (List Char)) (s : List Char) (i : Nat) (name : List Char) :
    Prop where
  get : names[i]? = some name
  ne_nil : name ≠ []
  stands : name <+: s
  longest : ∀ other ∈ names, other <+: s → other.length ≤ name.length
  last : ∀ j, names[j]? = some name → j ≤ i

theorem Chosen.mem (h : Chosen names s i name) : name ∈ names := List.mem_of_getElem? h.get

theorem Chosen.getD (h : Chosen names s i name) : names.getD i [] = name := by
  rw [List.getD_eq_getElem?_getD, h.get, Option.getD_some]

/-- At one place, one name is a slot. -/
theorem Chosen.unique {j : Nat} {other : List Char} (h : Chosen names s i name)
    (h' : Chosen names s j other) : i = j ∧ name = other := by
  have hlength : name.length = other.length :=
    Nat.le_antisymm (h'.longest name h.mem h.stands) (h.longest other h'.mem h'.stands)
  obtain rfl : name = other :=
    (List.prefix_of_prefix_length_le h.stands h'.stands (Nat.le_of_eq hlength)).eq_of_length hlength
  exact ⟨Nat.le_antisymm (h'.last i h.get) (h.last j h'.get), rfl⟩

theorem standsAt_iff : standsAt s name = true ↔ name ≠ [] ∧ name <+: s := by
  simp [standsAt]

theorem Free.eq_nil (h : Free names s) {other : List Char} (hmem : other ∈ names)
    (hstands : other <+: s) : other = [] :=
  Classical.not_not.1 fun hne => h other hmem hne hstands

theorem Free.not_chosen (h : Free names s) : ¬Chosen names s i name :=
  fun hchosen => h name hchosen.mem hchosen.ne_nil hchosen.stands

/-! ## The search for the longest name -/

/-- Of two texts at one place, the one with more bytes has more characters. -/
theorem byteLength_le_iff {t : List Char} (hname : name <+: s) (ht : t <+: s) :
    Text.byteLength name ≤ Text.byteLength t ↔ name.length ≤ t.length := by
  rcases List.prefix_or_prefix_of_prefix hname ht with ⟨rest, rfl⟩ | ⟨rest, rfl⟩
  · simp
  · cases rest with
    | nil => simp
    | cons c rest =>
      have hpos := c.utf8Size_pos
      rw [Text.byteLength_append, Text.byteLength_cons, List.length_append, List.length_cons]
      omega

/-- What the search has found behind some names: nothing, or the name that is a slot for these, with
its bytes. -/
inductive Best (names : List (List Char)) (s : List Char) : Option (Nat × Nat) → Prop where
  | none (h : Free names s) : Best names s none
  | some {i : Nat} {name : List Char} (h : Chosen names s i name) :
      Best names s (some (i, Text.byteLength name))

theorem getElem?_concat_eq_some_iff {last : List Char} {j : Nat} :
    (names ++ [last])[j]? = some name ↔ names[j]? = some name ∨ j = names.length ∧ last = name := by
  rcases Nat.lt_trichotomy j names.length with h | h | h
  · simp [List.getElem?_append_left h, Nat.ne_of_lt h]
  · simp [h]
  · have hnone : names[j]? = none := List.getElem?_eq_none_iff.2 (Nat.le_of_lt h)
    have hbehind : (names ++ [last])[j]? = none := by
      rw [List.getElem?_eq_none_iff, List.length_append]
      exact h
    simp [hnone, hbehind, Nat.ne_of_gt h]

/-- A name at the end of the names is chosen if it is not shorter than all that stand there. -/
theorem chosen_concat (hne : name ≠ []) (hstands : name <+: s)
    (hlongest : ∀ other ∈ names, other <+: s → other.length ≤ name.length) :
    Chosen (names ++ [name]) s names.length name where
  get := getElem?_concat_eq_some_iff.2 (.inr ⟨rfl, rfl⟩)
  ne_nil := hne
  stands := hstands
  longest := by simpa [or_imp, forall_and] using hlongest
  last j hj := by
    have hlt := (List.getElem?_eq_some_iff.1 hj).1
    rw [List.length_append, List.length_singleton] at hlt
    exact Nat.le_of_lt_succ hlt

/-- A name that is shorter than the chosen one, or does not stand there, is not chosen. -/
theorem Chosen.concat {last : List Char} (h : Chosen names s i name) (hne : last ≠ name)
    (hlast : last <+: s → last.length ≤ name.length) : Chosen (names ++ [last]) s i name where
  get := getElem?_concat_eq_some_iff.2 (.inl h.get)
  ne_nil := h.ne_nil
  stands := h.stands
  longest := by simpa [or_imp, forall_and] using ⟨h.longest, hlast⟩
  last j hj := by
    rcases getElem?_concat_eq_some_iff.1 hj with hj | ⟨-, heq⟩
    · exact h.last j hj
    · exact absurd heq hne

/-- A further name that does not stand there changes nothing. -/
theorem Best.concat {best : Option (Nat × Nat)} (h : Best names s best)
    (hnot : name <+: s → name = []) : Best (names ++ [name]) s best := by
  cases h with
  | none hfree =>
    refine .none fun other hmem hne hother => ?_
    rcases List.mem_append.1 hmem with hmem | hmem
    · exact hfree other hmem hne hother
    · obtain rfl := List.mem_singleton.1 hmem
      exact hne (hnot hother)
  | some hchosen =>
    refine .some (hchosen.concat ?_ fun hstands => ?_)
    · rintro rfl
      exact hchosen.ne_nil (hnot hchosen.stands)
    · rw [hnot hstands]
      exact Nat.zero_le _

/-- One step of the search. -/
theorem best_longer {best : Option (Nat × Nat)} (h : Best names s best) (name : List Char) :
    Best (names ++ [name]) s (longer s best (name, names.length)) := by
  by_cases hstands : standsAt s name = true
  · obtain ⟨hne, hprefix⟩ := standsAt_iff.1 hstands
    rw [longer.eq_def, if_pos hstands]
    cases h with
    | none hfree =>
      refine .some (chosen_concat hne hprefix fun other hmem hother => ?_)
      rw [hfree.eq_nil hmem hother]
      exact Nat.zero_le _
    | some hchosen =>
      have hiff := byteLength_le_iff hchosen.stands hprefix
      dsimp only
      split
      · next hle =>
        exact .some (chosen_concat hne hprefix fun other hmem hother =>
          Nat.le_trans (hchosen.longest other hmem hother) (hiff.1 hle))
      · next hlt =>
        rw [hiff] at hlt
        refine .some (hchosen.concat (fun heq => hlt (heq ▸ Nat.le_refl _)) fun _ => ?_)
        exact Nat.le_of_lt (Nat.lt_of_not_le hlt)
  · rw [longer.eq_def, if_neg hstands]
    refine h.concat fun hprefix => ?_
    by_contra hne
    exact hstands (standsAt_iff.2 ⟨hne, hprefix⟩)

/-- The whole search, by induction on the names from the last to the first. -/
theorem best_foldl (names : List (List Char)) (s : List Char) :
    Best names s (names.zipIdx.foldl (longer s) none) := by
  induction names using List.reverseRecOn with
  | nil => exact .none nofun
  | append_singleton names name ih =>
    rw [List.zipIdx_append, List.foldl_append]
    simpa using best_longer ih name

theorem slotAt?_eq_some_iff : slotAt? names s = some i ↔ ∃ name, Chosen names s i name := by
  have hbest := best_foldl names s
  rw [slotAt?]
  generalize names.zipIdx.foldl (longer s) none = best at hbest ⊢
  cases hbest with
  | none hfree => simp [hfree.not_chosen]
  | some hchosen =>
    simp only [Option.map_some, Option.some.injEq]
    exact ⟨fun heq => heq ▸ ⟨_, hchosen⟩, fun ⟨_, h⟩ => (hchosen.unique h).1⟩

theorem slotAt?_eq_none_iff : slotAt? names s = none ↔ Free names s := by
  have hbest := best_foldl names s
  rw [slotAt?]
  generalize names.zipIdx.foldl (longer s) none = best at hbest ⊢
  cases hbest with
  | none hfree => simp [hfree]
  | some hchosen => simpa using fun hfree : Free names s => hfree.not_chosen hchosen

/-! ## The cut, place by place -/

theorem cut_eq_compile_drop (names : List (List Char)) (n : Nat) (s : List Char) :
    cut names n s = compile (s.drop n) names := by
  induction n generalizing s with
  | zero => rfl
  | succ n ih =>
    cases s with
    | nil => rfl
    | cons c s => exact ih s

/-- Where a name is chosen, a slot is cut out, and the rest is cut behind it. -/
theorem compile_append_of_chosen (h : Chosen names (name ++ s) i name) :
    compile (name ++ s) names = .slot i :: compile s names := by
  have hslot : slotAt? names (name ++ s) = some i := slotAt?_eq_some_iff.2 ⟨name, h⟩
  have hgetD := h.getD
  obtain ⟨c, name, rfl⟩ := List.exists_cons_of_ne_nil h.ne_nil
  rw [List.cons_append] at hslot ⊢
  rw [compile, cut, hslot]
  dsimp only
  rw [hgetD, cut_eq_compile_drop]
  simp

/-- Elsewhere a character is literal. -/
theorem compile_cons_of_free {c : Char} (h : Free names (c :: s)) :
    compile (c :: s) names = consLiteral c (compile s names) := by
  rw [compile, cut, slotAt?_eq_none_iff.2 h]
  rfl

/-- Induction along the cut of a text. -/
@[elab_as_elim]
theorem induction_on_places {motive : List Char → Prop} (names : List (List Char)) (s : List Char)
    (nil : motive [])
    (slot : ∀ i name s, Chosen names (name ++ s) i name → motive s → motive (name ++ s))
    (literal : ∀ c s, Free names (c :: s) → motive s → motive (c :: s)) : motive s := by
  induction hlength : s.length using Nat.strongRecOn generalizing s with
  | ind length ih =>
    subst hlength
    cases hs : slotAt? names s with
    | none =>
      cases s with
      | nil => exact nil
      | cons c s => exact literal c s (slotAt?_eq_none_iff.1 hs) (ih s.length (by simp) s rfl)
    | some i =>
      obtain ⟨name, hname⟩ := slotAt?_eq_some_iff.1 hs
      obtain ⟨rest, rfl⟩ := hname.stands
      have hpos := List.length_pos_iff.2 hname.ne_nil
      exact slot i name rest hname (ih rest.length (by simp; omega) rest rfl)

/-! ## What is cut out -/

@[simp] theorem instantiate_nil (values : List (List Char)) : instantiate [] values = [] := rfl

@[simp] theorem instantiate_cons (part : Part) (parts : Body) (values : List (List Char)) :
    instantiate (part :: parts) values = fill values part ++ instantiate parts values :=
  List.flatMap_cons

@[simp] theorem instantiate_append (parts parts' : Body) (values : List (List Char)) :
    instantiate (parts ++ parts') values = instantiate parts values ++ instantiate parts' values :=
  List.flatMap_append

@[simp] theorem instantiate_consLiteral (c : Char) (parts : Body) (values : List (List Char)) :
    instantiate (consLiteral c parts) values = c :: instantiate parts values := by
  unfold consLiteral
  split <;> simp [fill]

/-- A body spells the text it was cut from. -/
theorem instantiate_compile (body : List Char) (names : List (List Char)) :
    (compile body names).instantiate names = body := by
  induction body using induction_on_places names with
  | nil => rfl
  | slot i name s hname ih =>
    rw [compile_append_of_chosen hname, instantiate_cons, ih, fill, hname.getD]
  | literal c s hfree ih => rw [compile_cons_of_free hfree, instantiate_consLiteral, ih]

theorem exists_of_literal_mem_consLiteral {c : Char} {text : List Char}
    (h : .literal text ∈ consLiteral c parts) :
    .literal text ∈ parts ∨ ∃ rest, text = c :: rest ∧
      (rest = [] ∨ .literal rest ∈ parts ∧ ∀ values, rest <+: parts.instantiate values) := by
  unfold consLiteral at h
  split at h
  · next rest parts =>
    rcases List.mem_cons.1 h with heq | hmem
    · obtain rfl := Part.literal.inj heq
      exact .inr ⟨rest, rfl, .inr ⟨List.mem_cons_self, fun values => List.prefix_append _ _⟩⟩
    · exact .inl (List.mem_cons_of_mem _ hmem)
  · rcases List.mem_cons.1 h with heq | hmem
    · obtain rfl := Part.literal.inj heq
      exact .inr ⟨[], rfl, .inl rfl⟩
    · exact .inl hmem

/-- A literal is not empty, and no name stands in it: at each of its characters the text is free. -/
theorem literal_of_mem_compile {body text : List Char} (h : .literal text ∈ compile body names) :
    text ≠ [] ∧ ∀ name ∈ names, name ≠ [] → ¬name <:+: text := by
  induction body using induction_on_places names generalizing text with
  | nil => cases h
  | slot i name s hname ih =>
    rw [compile_append_of_chosen hname, List.mem_cons] at h
    rcases h with h | h
    · cases h
    · exact ih h
  | literal c s hfree ih =>
    rw [compile_cons_of_free hfree] at h
    rcases exists_of_literal_mem_consLiteral h with h | ⟨rest, rfl, hrest⟩
    · exact ih h
    · refine ⟨List.cons_ne_nil c rest, fun name hmem hne hinfix => ?_⟩
      have hprefix : c :: rest <+: c :: s := by
        rcases hrest with rfl | ⟨-, hstart⟩
        · exact List.prefix_append [c] s
        · have hs := hstart names
          rw [instantiate_compile] at hs
          exact List.cons_prefix_cons.2 ⟨rfl, hs⟩
      rcases List.infix_cons_iff.1 hinfix with hstands | hinside
      · exact hfree name hmem hne (hstands.trans hprefix)
      · rcases hrest with rfl | ⟨hliteral, -⟩
        · exact hne (List.infix_nil.1 hinside)
        · exact (ih hliteral).2 name hmem hne hinside

theorem isChain_consLiteral {c : Char}
    (h : parts.IsChain fun p q => p.isLiteral = false ∨ q.isLiteral = false) :
    (consLiteral c parts).IsChain fun p q => p.isLiteral = false ∨ q.isLiteral = false := by
  unfold consLiteral
  split
  · next text parts =>
    rw [List.isChain_cons] at h ⊢
    exact h
  · next hnot =>
    refine List.isChain_cons.2 ⟨fun part hpart => ?_, h⟩
    cases part with
    | slot => exact .inr rfl
    | literal text =>
      cases parts with
      | nil => cases hpart
      | cons first parts =>
        cases hpart
        exact absurd rfl (hnot text parts)

/-- No two literals are adjacent. -/
theorem isChain_compile (body : List Char) (names : List (List Char)) :
    (compile body names).IsChain fun p q => p.isLiteral = false ∨ q.isLiteral = false := by
  induction body using induction_on_places names with
  | nil => exact .nil
  | slot i name s hname ih =>
    rw [compile_append_of_chosen hname]
    exact List.isChain_cons.2 ⟨fun _ _ => .inl rfl, ih⟩
  | literal c s hfree ih =>
    rw [compile_cons_of_free hfree]
    exact isChain_consLiteral ih

theorem exists_of_consLiteral_eq_append {c : Char} {before behind : Body}
    (h : consLiteral c parts = before ++ .slot i :: behind) :
    ∃ before', parts = before' ++ .slot i :: behind := by
  unfold consLiteral at h
  split at h
  · next text parts =>
    cases before with
    | nil => cases h
    | cons _ before => exact ⟨.literal text :: before, by rw [(List.cons.inj h).2]; rfl⟩
  · cases before with
    | nil => cases h
    | cons _ before => exact ⟨before, (List.cons.inj h).2⟩

/-- At the place of a slot, its name is chosen. -/
theorem exists_chosen_of_compile_eq_append {body : List Char} {before behind : Body}
    (h : compile body names = before ++ .slot i :: behind) :
    ∃ name, Chosen names (name ++ behind.instantiate names) i name := by
  induction body using induction_on_places names generalizing before with
  | nil => cases before <;> cases h
  | slot j name s hname ih =>
    rw [compile_append_of_chosen hname] at h
    cases before with
    | nil =>
      obtain ⟨hslot, rfl⟩ := List.cons.inj h
      obtain rfl := Part.slot.inj hslot
      exact ⟨name, by rwa [instantiate_compile]⟩
    | cons _ before => exact ih (List.cons.inj h).2
  | literal c s hfree ih =>
    rw [compile_cons_of_free hfree] at h
    obtain ⟨before', heq⟩ := exists_of_consLiteral_eq_append h
    exact ih heq

/-! ## Substitution -/

/-- `out` is the text with values in the places of names. It is read from left to right: where names
stand, the value of the longest one is put there, and the reading goes on behind the name; any other
character is kept. -/
inductive Substitutes (names values : List (List Char)) : List Char → List Char → Prop where
  | nil : Substitutes names values [] []
  | name {i : Nat} {name s out : List Char} (hname : Chosen names (name ++ s) i name)
      (hs : Substitutes names values s out) :
      Substitutes names values (name ++ s) (values.getD i [] ++ out)
  | keep {c : Char} {s out : List Char} (hfree : Free names (c :: s))
      (hs : Substitutes names values s out) : Substitutes names values (c :: s) (c :: out)

theorem substitutes_instantiate (body : List Char) (names values : List (List Char)) :
    Substitutes names values body ((compile body names).instantiate values) := by
  induction body using induction_on_places names with
  | nil => exact .nil
  | slot i name s hname ih =>
    rw [compile_append_of_chosen hname, instantiate_cons]
    exact .name hname ih
  | literal c s hfree ih =>
    rw [compile_cons_of_free hfree, instantiate_consLiteral]
    exact .keep hfree ih

theorem Substitutes.eq_instantiate {body : List Char} (h : Substitutes names values body out) :
    out = (compile body names).instantiate values := by
  induction h with
  | nil => rfl
  | name hname _ ih => rw [compile_append_of_chosen hname, instantiate_cons, ← ih, fill]
  | keep hfree _ ih => rw [compile_cons_of_free hfree, instantiate_consLiteral, ← ih]

/-! ## The whole body -/

/-- The pieces are a cut of the text at the names. -/
structure Spells (names : List (List Char)) (body : List Char) (parts : Body) : Prop where
  /-- With the names in their slots, they are the text. -/
  spelled : parts.instantiate names = body
  /-- No literal is empty or holds a name. -/
  literals : ∀ text, .literal text ∈ parts →
    text ≠ [] ∧ ∀ name ∈ names, name ≠ [] → ¬name <:+: text
  /-- There is a slot between two literals. -/
  apart : parts.IsChain fun p q => p.isLiteral = false ∨ q.isLiteral = false
  /-- Each slot has a name, and no longer name stands at its place in the text. -/
  slots : ∀ (before : Body) (i : Nat) (behind : Body), parts = before ++ .slot i :: behind →
    ∃ _ : i < names.length, names[i] ≠ [] ∧
      body = before.instantiate names ++ (names[i] ++ behind.instantiate names) ∧
      ∀ name ∈ names, name <+: names[i] ++ behind.instantiate names →
        name.length ≤ names[i].length

/-- A body is cut at its names, and filling the slots puts the values into the places of the names.
These places depend on the text and the names alone, whatever the values hold. -/
theorem spells_compile_and_substitutes_iff (body : List Char) (names : List (List Char)) :
    Spells names body (compile body names) ∧
      ∀ values out, Substitutes names values body out ↔
        out = (compile body names).instantiate values := by
  refine ⟨⟨instantiate_compile body names, fun _ => literal_of_mem_compile,
    isChain_compile body names, fun before i behind h => ?_⟩, fun values out => ?_⟩
  · obtain ⟨name, hname⟩ := exists_chosen_of_compile_eq_append h
    obtain ⟨hlt, rfl⟩ := List.getElem?_eq_some_iff.1 hname.get
    refine ⟨hlt, hname.ne_nil, ?_, hname.longest⟩
    have hbody := instantiate_compile body names
    rw [h, instantiate_append, instantiate_cons, fill, hname.getD] at hbody
    exact hbody.symm
  · constructor
    · exact Substitutes.eq_instantiate
    · rintro rfl
      exact substitutes_instantiate body names values

/-- Of two names at a place the longer one is a slot, and of two equal ones the second. -/
example : compile "abac".toList ["a".toList, "ab".toList, [], "a".toList] =
    [.slot 1, .slot 3, .literal "c".toList] := by
  decide

end Body

end Treatise.Abbreviation
