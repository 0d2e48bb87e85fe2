import Mathlib.Data.List.Pairwise
import Treatise.Proofs.Abbreviation.Calls
import Treatise.Proofs.Pieces

/-!
# Lists of parameters

The list of a definition is cut into items, and the faults are looked for item by item. Here both
are described by the whole list, without the order in which it is read.

* `Closed` — no brace group is open behind a text, and so a comma behind it is outside groups;
* **`CutAtCommas`** — the items that these commas leave, which are those of `splitTopLevel`
  (`cutAtCommas_splitTopLevel`);
* **`WellFormedItems`** — the items have names, these differ, and those with a default come last;
* `readItems_eq_none_iff` — no item is found to be at fault if each may stand behind all in front
  of it;
* `HasList` — a line of a definition, with its list;
* **`fault_eq_none_iff_and_isSome_bind?_iff`** — which lists have no fault, and which calls give
  values to all parameters.
-/

namespace Treatise.Abbreviation

open Markdown (Stops)

variable {s list : List Char} {items : List (List Char)} {depth : Nat}

/-! ## Brace groups -/

/-- No group is open behind the text: each opening brace has its partner. A closing brace without an
opening one belongs to no group. -/
inductive Closed : List Char → Prop where
  | nil : Closed []
  | other {c : Char} {s : List Char} (hopening : c ≠ '{') (hs : Closed s) : Closed (c :: s)
  | group {a s : List Char} (ha : Balanced a) (hs : Closed s) : Closed ('{' :: a ++ '}' :: s)

/-- How many groups are open behind a character. -/
def depthStep (depth : Nat) (c : Char) : Nat :=
  if c = '{' then depth + 1 else if c = '}' then depth - 1 else depth

/-- How many groups are open behind the text, if `depth` are in front of it. -/
def depthBehind (depth : Nat) (s : List Char) : Nat := s.foldl depthStep depth

@[simp] theorem depthBehind_nil : depthBehind depth [] = depth := rfl

@[simp] theorem depthBehind_cons (c : Char) :
    depthBehind depth (c :: s) = depthBehind (depthStep depth c) s := rfl

@[simp] theorem depthBehind_append (t : List Char) :
    depthBehind depth (s ++ t) = depthBehind (depthBehind depth s) t := List.foldl_append

theorem depthBehind_balanced (h : Balanced s) (depth : Nat) : depthBehind depth s = depth := by
  induction h generalizing depth with
  | nil => rfl
  | other hopening hclosing _ ih =>
    rw [depthBehind_cons, depthStep, if_neg hopening, if_neg hclosing, ih]
  | group _ _ iha ihs =>
    rw [List.cons_append, depthBehind_cons, depthBehind_append, iha, depthBehind_cons, ihs]
    rfl

/-- A group that does not stay open has its closing brace in the text. -/
theorem exists_balanced_of_depthBehind_eq_zero {depth : Nat} {s : List Char}
    (h : depthBehind (depth + 1) s = 0) :
    ∃ a rest, s = a ++ '}' :: rest ∧ Balanced a ∧ depthBehind depth rest = 0 := by
  cases s with
  | nil => cases h
  | cons c s =>
    rw [depthBehind_cons, depthStep] at h
    split at h
    · next hc =>
      -- a group inside, and then the rest of this one
      obtain ⟨a, r, rfl, ha, hr⟩ := exists_balanced_of_depthBehind_eq_zero h
      obtain ⟨b, rest, rfl, hb, hrest⟩ := exists_balanced_of_depthBehind_eq_zero hr
      exact ⟨'{' :: a ++ '}' :: b, rest, by simp [hc], .group ha hb, hrest⟩
    · next hopening =>
      split at h
      · next hc => exact ⟨[], s, by rw [hc]; rfl, .nil, h⟩
      · next hclosing =>
        obtain ⟨a, rest, rfl, ha, hrest⟩ := exists_balanced_of_depthBehind_eq_zero h
        exact ⟨c :: a, rest, rfl, .other hopening hclosing ha, hrest⟩
termination_by s.length
decreasing_by
  all_goals subst_vars
  all_goals simp only [List.length_append, List.length_cons]
  all_goals omega

theorem Closed.depthBehind_eq (h : Closed s) : depthBehind 0 s = 0 := by
  induction h with
  | nil => rfl
  | @other c s hopening _ ih =>
    have hstep : depthStep 0 c = 0 := by simp [depthStep, hopening]
    rw [depthBehind_cons, hstep, ih]
  | group ha _ ih =>
    rw [List.cons_append, depthBehind_cons, depthBehind_append, depthBehind_balanced ha]
    exact ih

theorem closed_of_depthBehind_eq_zero {s : List Char} (h : depthBehind 0 s = 0) : Closed s := by
  cases s with
  | nil => exact .nil
  | cons c s =>
    by_cases hc : c = '{'
    · subst hc
      have hopen : depthBehind (0 + 1) s = 0 := h
      obtain ⟨a, rest, rfl, ha, hrest⟩ := exists_balanced_of_depthBehind_eq_zero hopen
      exact .group ha (closed_of_depthBehind_eq_zero hrest)
    · have hstep : depthStep 0 c = 0 := by simp [depthStep, hc]
      rw [depthBehind_cons, hstep] at h
      exact .other hc (closed_of_depthBehind_eq_zero h)
termination_by s.length
decreasing_by
  all_goals subst_vars
  all_goals simp only [List.length_append, List.length_cons]
  all_goals omega

theorem closed_iff : Closed s ↔ depthBehind 0 s = 0 :=
  ⟨Closed.depthBehind_eq, closed_of_depthBehind_eq_zero⟩

/-! ## Cutting at commas -/

/-- The items are what commas outside groups leave of the list: put together with commas they are
the list, and a comma stands between two of them if, and only if, no group is open behind the text
in front of it. -/
structure CutAtCommas (list : List Char) (items : List (List Char)) : Prop where
  ne_nil : items ≠ []
  joined : [','].intercalate items = list
  commas : ∀ before behind, list = before ++ ',' :: behind →
    (Closed before ↔ ∃ front back, items = front ++ back ∧ front ≠ [] ∧ back ≠ [] ∧
      [','].intercalate front = before ∧ [','].intercalate back = behind)

theorem splitTopLevel_ne_nil (depth : Nat) (s : List Char) : splitTopLevel depth s ≠ [] := by
  cases s with
  | nil => exact List.cons_ne_nil _ _
  | cons c s =>
    rw [splitTopLevel]
    split
    · exact List.cons_ne_nil _ _
    · dsimp only
      split <;> exact List.cons_ne_nil _ _

theorem splitTopLevel_comma (s : List Char) :
    splitTopLevel 0 (',' :: s) = [] :: splitTopLevel 0 s := by
  rw [splitTopLevel, if_pos ⟨rfl, rfl⟩]

/-- A character at which the text is not cut belongs to the first piece. -/
theorem exists_splitTopLevel_cons {c : Char} (h : ¬(c = ',' ∧ depth = 0)) (s : List Char) :
    ∃ l ls, splitTopLevel (depthStep depth c) s = l :: ls ∧
      splitTopLevel depth (c :: s) = (c :: l) :: ls := by
  obtain ⟨l, ls, hs⟩ := List.exists_cons_of_ne_nil (splitTopLevel_ne_nil (depthStep depth c) s)
  refine ⟨l, ls, hs, ?_⟩
  rw [splitTopLevel, if_neg h]
  rw [depthStep] at hs
  dsimp only
  rw [hs]

theorem intercalate_splitTopLevel (depth : Nat) (s : List Char) :
    [','].intercalate (splitTopLevel depth s) = s := by
  induction s generalizing depth with
  | nil => rfl
  | cons c s ih =>
    by_cases hcut : c = ',' ∧ depth = 0
    · obtain ⟨rfl, rfl⟩ := hcut
      rw [splitTopLevel_comma, Text.intercalate_cons _ _ (splitTopLevel_ne_nil 0 s), ih]
      rfl
    · obtain ⟨l, ls, hs, hcons⟩ := exists_splitTopLevel_cons hcut s
      rw [hcons, Text.intercalate_cons_head, ← hs, ih]

/-- A comma outside groups cuts the text. -/
theorem splitTopLevel_append_comma {before : List Char} (h : depthBehind depth before = 0)
    (behind : List Char) :
    splitTopLevel depth (before ++ ',' :: behind) =
      splitTopLevel depth before ++ splitTopLevel 0 behind := by
  induction before generalizing depth with
  | nil =>
    obtain rfl : depth = 0 := h
    exact splitTopLevel_comma behind
  | cons c before ih =>
    by_cases hcut : c = ',' ∧ depth = 0
    · obtain ⟨rfl, rfl⟩ := hcut
      have hbefore : depthBehind 0 before = 0 := h
      rw [List.cons_append, splitTopLevel_comma, splitTopLevel_comma, ih hbefore]
      rfl
    · obtain ⟨l, ls, hs, hcons⟩ := exists_splitTopLevel_cons hcut before
      obtain ⟨l', ls', hs', hcons'⟩ := exists_splitTopLevel_cons hcut (before ++ ',' :: behind)
      rw [ih h, hs] at hs'
      obtain ⟨rfl, rfl⟩ := List.cons.inj hs'
      rw [List.cons_append, hcons, hcons']
      rfl

/-- No other comma does. -/
theorem depthBehind_of_splitTopLevel_eq_append {front back : List (List Char)}
    (h : splitTopLevel depth s = front ++ back) (hfront : front ≠ []) (hback : back ≠ []) :
    depthBehind depth ([','].intercalate front) = 0 := by
  obtain ⟨first, front, rfl⟩ := List.exists_cons_of_ne_nil hfront
  induction s generalizing depth first front with
  | nil =>
    obtain ⟨-, hnil⟩ := List.cons.inj h
    exact absurd (List.append_eq_nil_iff.1 hnil.symm).2 hback
  | cons c s ih =>
    by_cases hcut : c = ',' ∧ depth = 0
    · obtain ⟨rfl, rfl⟩ := hcut
      rw [splitTopLevel_comma] at h
      obtain ⟨rfl, hmore⟩ := List.cons.inj h
      cases front with
      | nil => rfl
      | cons second front =>
        rw [Text.intercalate_cons _ _ (List.cons_ne_nil second front)]
        exact ih second front hmore (List.cons_ne_nil second front)
    · obtain ⟨l, ls, hs, hcons⟩ := exists_splitTopLevel_cons hcut s
      rw [hcons] at h
      obtain ⟨rfl, rfl⟩ := List.cons.inj h
      rw [Text.intercalate_cons_head, depthBehind_cons]
      exact ih l front hs (List.cons_ne_nil l front)

theorem cutAtCommas_splitTopLevel (list : List Char) :
    CutAtCommas list (splitTopLevel 0 list) where
  ne_nil := splitTopLevel_ne_nil 0 list
  joined := intercalate_splitTopLevel 0 list
  commas before behind hlist := by
    rw [closed_iff]
    constructor
    · intro hclosed
      refine ⟨splitTopLevel 0 before, splitTopLevel 0 behind, ?_, splitTopLevel_ne_nil 0 before,
        splitTopLevel_ne_nil 0 behind, intercalate_splitTopLevel 0 before,
        intercalate_splitTopLevel 0 behind⟩
      rw [hlist, splitTopLevel_append_comma hclosed]
    · rintro ⟨front, back, hcut, hfront, hback, rfl, -⟩
      exact depthBehind_of_splitTopLevel_eq_append hcut hfront hback

/-! ## Items -/

/-- The name that an item gives to a parameter: the text before its first `=`. -/
def itemName (item : List Char) : List Char := Text.trim (item.takeWhile (· != '='))

/-- The items give parameters without fault. -/
structure WellFormedItems (items : List (List Char)) : Prop where
  named : ∀ item ∈ items, itemName item ≠ []
  distinct : (items.map itemName).Nodup
  /-- The items with a default are the last ones. -/
  defaultsLast : ∃ required optional, items = required ++ optional ∧
    (∀ item ∈ required, '=' ∉ item) ∧ ∀ item ∈ optional, '=' ∈ item

theorem name_ofItem (item : List Char) : (Param.ofItem item).name = itemName item := by
  rw [Param.ofItem, itemName]
  split
  · next name default hsplit =>
    obtain ⟨rfl, hname⟩ := Text.splitOnce?_eq_some_iff.1 hsplit
    rw [List.takeWhile_append_of_pos fun c hc => by simpa using ne_of_mem_of_not_mem hc hname]
    simp
  · next hsplit =>
    have hitem := Text.splitOnce?_eq_none_iff.1 hsplit
    rw [List.takeWhile_eq_self_iff.2 fun c hc => by simpa using ne_of_mem_of_not_mem hc hitem]

theorem default_ofItem_eq_none_iff {item : List Char} :
    (Param.ofItem item).default = none ↔ '=' ∉ item := by
  rw [← Text.splitOnce?_eq_none_iff, Param.ofItem]
  split
  · next hsplit => simp [hsplit]
  · next hsplit => simp [hsplit]

/-! ## Faults -/

/-- The second parameter may stand behind the first. -/
def Param.Precedes (q p : Param) : Prop :=
  q.name ≠ p.name ∧ (p.default = none → q.default = none)

theorem Param.fault?_eq_none_iff {before : List Param} {p : Param} :
    p.fault? before = none ↔ p.name ≠ [] ∧ ∀ q ∈ before, q.Precedes p := by
  have hduplicate : before.any (·.name == p.name) = false ↔ ∀ q ∈ before, q.name ≠ p.name := by
    simp
  have hdefault : (p.default.isNone && before.any (·.default.isSome)) = false ↔
      ∀ q ∈ before, p.default = none → q.default = none := by
    cases p.default <;> simp
  simp only [Param.Precedes, forall_and, ← hduplicate, ← hdefault]
  rw [Param.fault?]
  generalize before.any (·.name == p.name) = duplicate
  generalize (p.default.isNone && before.any (·.default.isSome)) = required
  cases p.name <;> cases duplicate <;> cases required <;> simp

/-- The first fault is remembered. -/
theorem readItems_some (before : List Param) (fault : ParamFault) (items : List (List Char)) :
    (readItems before (some fault) items).2 = some fault := by
  induction items generalizing before with
  | nil => rfl
  | cons item items ih =>
    rw [readItems]
    split
    · exact ih before
    · exact ih _

theorem readItems_cons_of_fault {before : List Param} {item : List Char} {fault : ParamFault}
    (h : (Param.ofItem item).fault? before = some fault) (items : List (List Char)) :
    (readItems before none (item :: items)).2 = some fault := by
  rw [readItems]
  simp only [h, Option.none_or, Option.orElse_eq_orElse, Option.orElse_eq_or]
  split
  · exact readItems_some _ fault items
  · exact readItems_some _ fault items

theorem readItems_cons {before : List Param} {item : List Char}
    (h : (Param.ofItem item).fault? before = none) (items : List (List Char)) :
    readItems before none (item :: items) =
      readItems (before ++ [Param.ofItem item]) none items := by
  have hne := (Param.fault?_eq_none_iff.1 h).1
  rw [readItems]
  simp [h, hne]

/-- No fault is found if each item has a name and may stand behind all in front of it. Induction on
the items; the parameters in front of them are those read so far. -/
theorem readItems_eq_none_iff (before : List Param) (items : List (List Char)) :
    (readItems before none items).2 = none ↔ (∀ item ∈ items, itemName item ≠ []) ∧
      (items.map Param.ofItem).Pairwise Param.Precedes ∧
      ∀ q ∈ before, ∀ p ∈ items.map Param.ofItem, q.Precedes p := by
  induction items generalizing before with
  | nil => simp [readItems]
  | cons item items ih =>
    cases hfault : (Param.ofItem item).fault? before with
    | some fault =>
      rw [readItems_cons_of_fault hfault]
      -- an item that has a name and may stand behind all in front has no fault
      refine iff_of_false nofun fun ⟨hnamed, _, hbefore⟩ => ?_
      have hnone : (Param.ofItem item).fault? before = none :=
        Param.fault?_eq_none_iff.2 ⟨by simpa [name_ofItem] using hnamed item (by simp),
          fun q hq => hbefore q hq _ (by simp)⟩
      rw [hnone] at hfault
      cases hfault
    | none =>
      obtain ⟨hne, hitem⟩ := Param.fault?_eq_none_iff.1 hfault
      rw [name_ofItem] at hne
      -- its parameter joins those that the other items have in front of them
      rw [readItems_cons hfault, ih]
      rw [List.forall_mem_cons, List.map_cons, List.pairwise_cons]
      constructor
      · rintro ⟨hnamed, hpairs, hbefore⟩
        refine ⟨⟨hne, hnamed⟩, ⟨hbefore _ (by simp), hpairs⟩, fun q hq => ?_⟩
        exact List.forall_mem_cons.2 ⟨hitem q hq, hbefore q (List.mem_append_left _ hq)⟩
      · rintro ⟨⟨-, hnamed⟩, ⟨hfirst, hpairs⟩, hbefore⟩
        refine ⟨hnamed, hpairs, fun q hq => ?_⟩
        rcases List.mem_append.1 hq with hq | hq
        · exact (List.forall_mem_cons.1 (hbefore q hq)).2
        · obtain rfl := List.mem_singleton.1 hq
          exact hfirst

/-- Where no fault is found, each item gives a parameter. -/
theorem readItems_eq_map (before : List Param) (items : List (List Char))
    (h : (readItems before none items).2 = none) :
    (readItems before none items).1 = before ++ items.map Param.ofItem := by
  induction items generalizing before with
  | nil => simp [readItems]
  | cons item items ih =>
    cases hfault : (Param.ofItem item).fault? before with
    | some fault =>
      rw [readItems_cons_of_fault hfault] at h
      cases h
    | none =>
      rw [readItems_cons hfault] at h ⊢
      rw [ih _ h]
      simp

/-- A condition that holds of what stands in front of where it holds, holds of a part in front. -/
theorem pairwise_imp_iff {α : Type} {p : α → Prop} {l : List α} :
    l.Pairwise (fun a b => p b → p a) ↔
      ∃ front back, l = front ++ back ∧ (∀ a ∈ front, p a) ∧ ∀ a ∈ back, ¬p a := by
  constructor
  · intro h
    induction l with
    | nil => exact ⟨[], [], rfl, nofun, nofun⟩
    | cons a l ih =>
      obtain ⟨ha, hl⟩ := List.pairwise_cons.1 h
      by_cases hpa : p a
      · obtain ⟨front, back, rfl, hfront, hback⟩ := ih hl
        exact ⟨a :: front, back, rfl, List.forall_mem_cons.2 ⟨hpa, hfront⟩, hback⟩
      · refine ⟨[], a :: l, rfl, nofun, List.forall_mem_cons.2 ⟨hpa, fun b hb hpb => ?_⟩⟩
        exact hpa (ha b hb hpb)
  · rintro ⟨front, back, rfl, hfront, hback⟩
    refine List.pairwise_append.2 ⟨?_, ?_, fun a ha _ _ _ => hfront a ha⟩
    · exact List.pairwise_of_forall_mem_list fun a ha _ _ _ => hfront a ha
    · exact List.pairwise_of_forall_mem_list fun _ _ b hb hpb => absurd hpb (hback b hb)

theorem wellFormedItems_iff : WellFormedItems items ↔ (∀ item ∈ items, itemName item ≠ []) ∧
    (items.map Param.ofItem).Pairwise Param.Precedes := by
  have hdistinct : (items.map itemName).Nodup ↔
      items.Pairwise fun a b => (Param.ofItem a).name ≠ (Param.ofItem b).name := by
    simp only [name_ofItem]
    exact List.pairwise_map
  have hdefaults : (∃ required optional, items = required ++ optional ∧
      (∀ item ∈ required, '=' ∉ item) ∧ ∀ item ∈ optional, '=' ∈ item) ↔
      items.Pairwise fun a b =>
        (Param.ofItem b).default = none → (Param.ofItem a).default = none := by
    simp only [default_ofItem_eq_none_iff, pairwise_imp_iff, Classical.not_not]
  rw [List.pairwise_map]
  simp only [Param.Precedes, List.pairwise_and_iff, ← hdistinct, ← hdefaults]
  exact ⟨fun ⟨h1, h2, h3⟩ => ⟨h1, h2, h3⟩, fun ⟨h1, h2, h3⟩ => ⟨h1, h2, h3⟩⟩

theorem readParams_fault_eq_none_iff (hlist : Text.isAllBlank list = false) :
    (readParams list).2 = none ↔ WellFormedItems (splitTopLevel 0 list) := by
  rw [readParams, if_neg (Bool.eq_false_iff.1 hlist), readItems_eq_none_iff, wellFormedItems_iff]
  simp

theorem readParams_eq_map (hlist : Text.isAllBlank list = false)
    (h : WellFormedItems (splitTopLevel 0 list)) :
    readParams list = ((splitTopLevel 0 list).map Param.ofItem, none) := by
  have hfault := (readParams_fault_eq_none_iff hlist).2 h
  refine Prod.ext ?_ hfault
  rw [readParams, if_neg (Bool.eq_false_iff.1 hlist)] at hfault ⊢
  exact readItems_eq_map [] _ hfault

/-! ## Lines with a list -/

/-- The name of a definition is the run of letters behind the backslash. -/
theorem Definition.ofLine?_of_trim {line name s : List Char}
    (hline : Text.trim line = '\\' :: (name ++ s)) (hne : name ≠ [])
    (hname : ∀ c ∈ name, c.isAlpha = true) (hs : Stops Char.isAlpha s) :
    ofLine? line = (readSignature? s).map fun signature =>
      ⟨name, (readParams (signature.1.getD [])).1,
        Body.compile signature.2 ((readParams (signature.1.getD [])).1.map (·.name)),
        (readParams (signature.1.getD [])).2⟩ := by
  have hstrip : Text.stripStart? ['\\'] (Text.trim line) = some (name ++ s) :=
    Text.stripStart?_eq_some_iff.2 hline
  rw [ofLine?, hstrip]
  simp only [bind, Option.bind_some, Text.takeWhile_append_of_stops hname hs,
    Text.dropWhile_append_of_stops hname hs, List.isEmpty_iff, hne, if_false]
  cases readSignature? s <;> rfl

/-- The list ends at its first closing parenthesis. -/
theorem readSignature?_list {gap list : List Char} (hgap : Text.isAllBlank gap = true)
    (hlist : ')' ∉ list) (rest : List Char) :
    readSignature? (gap ++ '(' :: (list ++ ')' :: rest)) =
      ((Text.stripStart? ['='] (Text.trimStart rest)).bind readBody?).map (some list, ·) := by
  have hstart : Text.trimStart (gap ++ '(' :: (list ++ ')' :: rest)) =
      '(' :: (list ++ ')' :: rest) :=
    Text.trimStart_append_of_stops hgap (Text.stops_cons.2 rfl)
  have hsplit : Text.splitOnce? ')' (list ++ ')' :: rest) = some (list, rest) :=
    Text.splitOnce?_eq_some_iff.2 ⟨rfl, hlist⟩
  rw [readSignature?, hstart]
  simp only [hsplit, bind, Option.bind_some]
  cases Text.stripStart? ['='] (Text.trimStart rest) with
  | none => rfl
  | some s => cases hbody : readBody? s <;> simp [hbody]

/-- The line is a name with the list in parentheses behind it, and more. -/
inductive HasList : (line list : List Char) → Prop where
  | intro {lead name gap list rest : List Char} (hlead : Text.isAllBlank lead = true)
      (hne : name ≠ []) (hname : ∀ c ∈ name, c.isAlpha = true)
      (hgap : Text.isAllBlank gap = true) (hlist : ')' ∉ list) :
      HasList (lead ++ '\\' :: (name ++ (gap ++ '(' :: (list ++ ')' :: rest)))) list

theorem HasList.readParams_eq {line : List Char} {d : Definition} (h : HasList line list)
    (hd : Definition.ofLine? line = some d) : readParams list = (d.params, d.fault) := by
  obtain ⟨hlead, hne, hname, hgap, hlist⟩ := h
  rename_i lead name gap rest
  have htrim : Text.trim (lead ++ '\\' :: (name ++ (gap ++ '(' :: (list ++ ')' :: rest)))) =
      '\\' :: (name ++ (gap ++ '(' :: (list ++ ')' :: Text.trimEnd rest))) := by
    rw [Text.trim, Text.trimStart_append_of_stops hlead (Text.stops_cons.2 rfl)]
    have hend : Text.trimEnd ('\\' :: (name ++ (gap ++ '(' :: list)) ++ ')' :: rest) =
        '\\' :: (name ++ (gap ++ '(' :: list)) ++ ')' :: Text.trimEnd rest :=
      Text.trimEnd_append_cons rfl _ rest
    simpa using hend
  have hstops : Stops Char.isAlpha (gap ++ '(' :: (list ++ ')' :: Text.trimEnd rest)) := by
    refine Text.stops_append (Text.stops_of_forall fun c hc => ?_) (Text.stops_cons.2 rfl)
    exact Text.isAlpha_eq_false_of_isBlank (Text.isAllBlank_iff.1 hgap c hc)
  rw [Definition.ofLine?_of_trim htrim hne hname hstops, readSignature?_list hgap hlist,
    Option.map_map] at hd
  obtain ⟨body, -, rfl⟩ := Option.map_eq_some_iff.1 hd
  rfl

/-! ## The whole list -/

/-- A list of parameters has no fault if its items have names, these differ, and those with a
default come last; this makes a definition with the list valid. A call gives each parameter a value
if it has no more arguments than there are parameters, and one for each without a default. -/
theorem fault_eq_none_iff_and_isSome_bind?_iff (hlist : Text.isAllBlank list = false) :
    CutAtCommas list (splitTopLevel 0 list) ∧
    ((readParams list).2 = none ↔ WellFormedItems (splitTopLevel 0 list)) ∧
    (∀ line d, HasList line list → Definition.ofLine? line = some d →
      (d.isValid = true ↔ WellFormedItems (splitTopLevel 0 list))) ∧
    ∀ (d : Definition) (args : List (Option (List Char))),
      (bind? d.params args).isSome = true ↔ args.length ≤ d.params.length ∧
        ∀ (n : Nat) (p : Param), d.params[n]? = some p → p.default = none →
          ∃ value, args[n]? = some (some value) := by
  have hfault := readParams_fault_eq_none_iff hlist
  refine ⟨cutAtCommas_splitTopLevel list, hfault, fun line d hline hd => ?_, fun d args =>
    isSome_bind?_iff⟩
  rw [← hfault, hline.readParams_eq hd, Definition.isValid, Option.isNone_iff_eq_none]

/-- A comma in a group separates no parameters; a parameter without a default behind one that has a
default is a fault, and the parameter keeps its place all the same. -/
theorem fault_eq_none_iff_and_isSome_bind?_iff_of_groups :
    Text.isAllBlank "a, b=\x7b1,2\x7d".toList = false ∧
    (readParams "a, b=\x7b1,2\x7d".toList).2 = none ∧
    WellFormedItems ["a".toList, " b=\x7b1,2\x7d".toList] ∧
    Text.isAllBlank "a=\x7b1,2\x7d, b".toList = false ∧
    (readParams "a=\x7b1,2\x7d, b".toList).2 = some (.requiredAfterDefault ['b']) ∧
    ¬WellFormedItems ["a=\x7b1,2\x7d".toList, " b".toList] := by
  have hnone : (readParams "a, b=\x7b1,2\x7d".toList).2 = none := by decide
  have hsome : (readParams "a=\x7b1,2\x7d, b".toList).2 = some (.requiredAfterDefault ['b']) := by
    decide
  have hlist : Text.isAllBlank "a=\x7b1,2\x7d, b".toList = false := by decide
  refine ⟨by decide, hnone, ?_, hlist, hsome, fun hitems => ?_⟩
  · exact (fault_eq_none_iff_and_isSome_bind?_iff (by decide)).2.1.1 hnone
  · have hfault := (fault_eq_none_iff_and_isSome_bind?_iff hlist).2.1.2 hitems
    rw [hsome] at hfault
    cases hfault

end Treatise.Abbreviation
