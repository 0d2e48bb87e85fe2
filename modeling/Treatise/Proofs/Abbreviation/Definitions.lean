import Treatise.Proofs.Abbreviation.Parameters

/-!
# Definitions that are written down

A definition is put together from a name, parameters and a body, and read again.

* `Definition.Source` — what a definition is written from, and its line;
* `splitTopLevel_intercalate` — items that no comma cuts are found again between commas;
* `Param.ofItem_written` — a parameter is read from what is written for it;
* `notMem_default_of_ofLine?` — no default that is read holds a closing parenthesis, as the first
  one of the line ends the list, also inside braces;
* **`Definition.Source.ofLine?_text_iff`** — for this reason a definition is read as it was written
  if, and only if, its defaults hold no closing parenthesis.
-/

namespace Treatise.Abbreviation

open Markdown (Stops)

variable {p : Param} {s item list : List Char} {items : List (List Char)} {depth : Nat}

/-! ## What is written -/

/-- A default stands in braces. -/
def Param.written (p : Param) : List Char :=
  match p.default with
  | none => p.name
  | some text => p.name ++ '=' :: '{' :: (text ++ ['}'])

/-- The text between the parentheses of a list. -/
def writtenParams (params : List Param) : List Char :=
  [',', ' '].intercalate (params.map Param.written)

/-- The parameter can be found again in a list. -/
structure Param.WellFormed (p : Param) : Prop where
  name_ne_nil : p.name ≠ []
  trimmed : Text.trim p.name = p.name
  plain : ∀ c ∈ p.name, c ∉ [',', '=', '{', '}', '(', ')']
  balanced : ∀ text ∈ p.default, Balanced text

namespace Definition

/-- What a definition is written from. -/
structure Source where
  name : List Char
  params : List Param
  body : List Char

namespace Source

/-- The list in parentheses; no list stands where there are no parameters. -/
def paramList (d : Source) : List Char :=
  if d.params = [] then [] else '(' :: (writtenParams d.params ++ [')'])

/-- The line of the definition. -/
def text (d : Source) : List Char :=
  '\\' :: (d.name ++ (d.paramList ++ (" = \x7b".toList ++ (d.body ++ "\x7d;".toList))))

structure WellFormed (d : Source) : Prop where
  name_ne_nil : d.name ≠ []
  letters : ∀ c ∈ d.name, c.isAlpha = true
  params : ∀ p ∈ d.params, p.WellFormed
  distinct : (d.params.map (·.name)).Nodup
  /-- The parameters with a default are the last ones. -/
  defaultsLast : ∃ required optional, d.params = required ++ optional ∧
    (∀ p ∈ required, p.default = none) ∧ ∀ p ∈ optional, p.default ≠ none
  trimmed : Text.trim d.body = d.body

/-- The definition that is meant. It has no fault and is valid. -/
def meaning (d : Source) : Definition :=
  ⟨d.name, d.params, Body.compile d.body (d.params.map (·.name)), none⟩

end Source

end Definition

/-! ## Items without a cut -/

/-- Between items, commas cut. -/
theorem splitTopLevel_intercalate (hne : items ≠ [])
    (hitems : ∀ item ∈ items, depthBehind 0 item = 0 ∧ splitTopLevel 0 item = [item]) :
    splitTopLevel 0 ([','].intercalate items) = items := by
  induction items with
  | nil => exact absurd rfl hne
  | cons item items ih =>
    obtain ⟨⟨hclosed, hwhole⟩, hrest⟩ := List.forall_mem_cons.1 hitems
    cases items with
    | nil => simpa [List.intercalate] using hwhole
    | cons next items =>
      rw [Text.intercalate_cons _ _ (List.cons_ne_nil _ _), splitTopLevel_append_comma hclosed,
        hwhole, ih (List.cons_ne_nil _ _) hrest]
      rfl

theorem splitTopLevel_cons {c : Char} (hc : ¬(c = ',' ∧ depth = 0))
    (hs : splitTopLevel (depthStep depth c) s = [s]) :
    splitTopLevel depth (c :: s) = [c :: s] := by
  obtain ⟨l, ls, hrest, hcons⟩ := exists_splitTopLevel_cons hc s
  obtain ⟨rfl, rfl⟩ := List.cons.inj (hrest.symm.trans hs)
  exact hcons

/-- Inside a group, a balanced text is not cut. -/
theorem splitTopLevel_balanced_append {a : List Char} (ha : Balanced a)
    (hs : splitTopLevel (depth + 1) s = [s]) : splitTopLevel (depth + 1) (a ++ s) = [a ++ s] := by
  induction ha generalizing depth s with
  | nil => exact hs
  | @other c a hopening hclosing _ ih =>
    have hstep : depthStep (depth + 1) c = depth + 1 := by simp [depthStep, hopening, hclosing]
    exact splitTopLevel_cons (by simp) (by rw [hstep]; exact ih hs)
  | @group a b _ _ iha ihb =>
    -- the group inside is one level deeper, and behind it the level is the old one
    have hbehind : splitTopLevel (depth + 2) ('}' :: (b ++ s)) = ['}' :: (b ++ s)] :=
      splitTopLevel_cons (by simp) (ihb hs)
    have hinside : splitTopLevel (depth + 1) ('{' :: (a ++ '}' :: (b ++ s))) =
        ['{' :: (a ++ '}' :: (b ++ s))] :=
      splitTopLevel_cons (by simp) (iha hbehind)
    simpa using hinside

/-- A text in front of an item that neither cuts it nor opens a group. -/
theorem splitTopLevel_plain_append {front : List Char}
    (hfront : ∀ c ∈ front, c ∉ [',', '{', '}']) (hs : splitTopLevel 0 s = [s]) :
    splitTopLevel 0 (front ++ s) = [front ++ s] := by
  induction front with
  | nil => exact hs
  | cons c front ih =>
    obtain ⟨hc, hrest⟩ := List.forall_mem_cons.1 hfront
    simp only [List.mem_cons, List.not_mem_nil, or_false, not_or] at hc
    have hstep : depthStep 0 c = 0 := by simp [depthStep, hc]
    exact splitTopLevel_cons (by simp [hc]) (by rw [hstep]; exact ih hrest)

/-! ## Parameters -/

theorem balanced_plain_append {front : List Char} (hfront : ∀ c ∈ front, c ∉ ['{', '}'])
    (hs : Balanced s) : Balanced (front ++ s) := by
  induction front with
  | nil => exact hs
  | cons c front ih =>
    obtain ⟨hc, hrest⟩ := List.forall_mem_cons.1 hfront
    simp only [List.mem_cons, List.not_mem_nil, or_false, not_or] at hc
    exact .other hc.1 hc.2 (ih hrest)

theorem stripGroup_group (text : List Char) : stripGroup ('{' :: (text ++ ['}'])) = text := by
  have hend : Text.stripEnd? ['}'] (text ++ ['}']) = some text :=
    Text.stripEnd?_eq_some_iff.2 rfl
  rw [stripGroup, hend, Option.getD_some]

namespace Param

theorem WellFormed.notMem (h : p.WellFormed) {c : Char} (hc : c ∈ [',', '=', '{', '}', '(', ')']) :
    c ∉ p.name :=
  fun hname => h.plain c hname hc

theorem WellFormed.plain_of_subset (h : p.WellFormed) {marks : List Char}
    (hmarks : marks ⊆ [',', '=', '{', '}', '(', ')']) : ∀ c ∈ p.name, c ∉ marks :=
  fun c hc hmem => h.plain c hc (hmarks hmem)

theorem balanced_written (h : p.WellFormed) : Balanced p.written := by
  have hplain : ∀ c ∈ p.name, c ∉ ['{', '}'] := h.plain_of_subset (by decide)
  rw [written]
  split
  · simpa using balanced_plain_append hplain .nil
  · next text hdefault =>
    refine balanced_plain_append hplain (.other (by decide) (by decide) ?_)
    exact .group (h.balanced text hdefault) .nil

theorem splitTopLevel_written (h : p.WellFormed) : splitTopLevel 0 p.written = [p.written] := by
  have hplain : ∀ c ∈ p.name, c ∉ [',', '{', '}'] := h.plain_of_subset (by decide)
  rw [written]
  split
  · simpa using splitTopLevel_plain_append hplain (s := []) rfl
  · next text hdefault =>
    have hgroup : splitTopLevel 1 (text ++ ['}']) = [text ++ ['}']] :=
      splitTopLevel_balanced_append (h.balanced text hdefault) rfl
    refine splitTopLevel_plain_append hplain (splitTopLevel_cons (by simp) ?_)
    exact splitTopLevel_cons (by simp) hgroup

/-- Blanks in front of what is written do not matter. -/
theorem ofItem_written (h : p.WellFormed) (lead : List Char) (hlead : Text.isAllBlank lead = true) :
    ofItem (lead ++ p.written) = p := by
  have hname : Text.trim (lead ++ p.name) = p.name := by rw [Text.trim_append hlead, h.trimmed]
  have hequals : '=' ∉ lead ++ p.name := by
    rw [List.mem_append, not_or]
    exact ⟨fun hmem => absurd (Text.isAllBlank_iff.1 hlead _ hmem) (by decide), h.notMem (by simp)⟩
  cases hdefault : p.default with
  | none =>
    have hsplit : Text.splitOnce? '=' (lead ++ p.name) = none :=
      Text.splitOnce?_eq_none_iff.2 hequals
    simp only [written, hdefault, ofItem, hsplit, hname]
    rw [← hdefault]
  | some text =>
    have hsplit : Text.splitOnce? '=' (lead ++ (p.name ++ '=' :: '{' :: (text ++ ['}']))) =
        some (lead ++ p.name, '{' :: (text ++ ['}'])) :=
      Text.splitOnce?_eq_some_iff.2 ⟨(List.append_assoc _ _ _).symm, hequals⟩
    have hgroup : Text.trim ('{' :: (text ++ ['}'])) = '{' :: (text ++ ['}']) :=
      Text.trim_eq_self_iff.2 ⟨Text.stops_cons.2 rfl, by simp; rfl⟩
    simp only [written, hdefault, ofItem, hsplit, hname, hgroup, stripGroup_group]
    rw [← hdefault]

end Param

/-! ## Lists -/

/-- The items of the list that is written for the parameters. -/
def itemsOf : List Param → List (List Char)
  | [] => []
  | p :: params => p.written :: params.map fun p => ' ' :: p.written

theorem writtenParams_eq (params : List Param) :
    writtenParams params = [','].intercalate (itemsOf params) := by
  cases params with
  | nil => rfl
  | cons p params =>
    rw [writtenParams, itemsOf, List.map_cons, Text.intercalate_cons_separator, List.map_map]
    rfl

theorem map_ofItem_itemsOf {params : List Param} (h : ∀ p ∈ params, p.WellFormed) :
    (itemsOf params).map Param.ofItem = params := by
  cases params with
  | nil => rfl
  | cons p params =>
    obtain ⟨hp, hrest⟩ := List.forall_mem_cons.1 h
    rw [itemsOf, List.map_cons, List.map_map]
    congr 1
    · exact Param.ofItem_written hp [] rfl
    · refine (List.map_congr_left fun q hq => ?_).trans params.map_id
      exact Param.ofItem_written (hrest q hq) [' '] rfl

theorem splitTopLevel_writtenParams {params : List Param} (hne : params ≠ [])
    (h : ∀ p ∈ params, p.WellFormed) :
    splitTopLevel 0 (writtenParams params) = itemsOf params := by
  rw [writtenParams_eq]
  obtain ⟨p, params, rfl⟩ := List.exists_cons_of_ne_nil hne
  obtain ⟨hp, hrest⟩ := List.forall_mem_cons.1 h
  refine splitTopLevel_intercalate (List.cons_ne_nil _ _) ?_
  rw [itemsOf, List.forall_mem_cons, List.forall_mem_map]
  refine ⟨⟨depthBehind_balanced (p.balanced_written hp) 0, p.splitTopLevel_written hp⟩,
    fun q hq => ⟨?_, ?_⟩⟩
  · exact depthBehind_balanced (q.balanced_written (hrest q hq)) 0
  · exact splitTopLevel_cons (by simp) (q.splitTopLevel_written (hrest q hq))

theorem pairwise_precedes {params : List Param} (hdistinct : (params.map (·.name)).Nodup)
    (hlast : ∃ required optional, params = required ++ optional ∧
      (∀ p ∈ required, p.default = none) ∧ ∀ p ∈ optional, p.default ≠ none) :
    params.Pairwise Param.Precedes :=
  (List.pairwise_map.1 hdistinct).and (pairwise_imp_iff.2 hlast)

/-! ## Defaults that are read -/

theorem stripGroup_subset (s : List Char) : stripGroup s ⊆ s := by
  rw [stripGroup.eq_def]
  split
  · next rest =>
    cases hend : Text.stripEnd? ['}'] rest with
    | none => exact List.Subset.refl _
    | some text =>
      rw [Text.stripEnd?_eq_some_iff.1 hend]
      exact fun c hc => List.mem_cons_of_mem _ (List.mem_append_left _ hc)
  · exact List.Subset.refl s

theorem default_ofItem_subset {text : List Char} (h : text ∈ (Param.ofItem item).default) :
    text ⊆ item := by
  rw [Param.ofItem] at h
  split at h
  · next name default hsplit =>
    obtain rfl := Option.some.inj h
    rw [(Text.splitOnce?_eq_some_iff.1 hsplit).1]
    intro c hc
    have hmem : c ∈ default := Text.trim_subset default (stripGroup_subset _ hc)
    exact List.mem_append_right _ (List.mem_cons_of_mem _ hmem)
  · cases h

theorem mem_readItems {before : List Param} {fault : Option ParamFault}
    (h : p ∈ (readItems before fault items).1) :
    p ∈ before ∨ ∃ item ∈ items, p = Param.ofItem item := by
  induction items generalizing before fault with
  | nil => exact .inl h
  | cons item items ih =>
    rw [readItems] at h
    split at h
    · rcases ih h with hbefore | ⟨item, hitem, hp⟩
      · exact .inl hbefore
      · exact .inr ⟨item, List.mem_cons_of_mem _ hitem, hp⟩
    · rcases ih h with hbefore | ⟨item, hitem, hp⟩
      · rcases List.mem_append.1 hbefore with hbefore | hlast
        · exact .inl hbefore
        · exact .inr ⟨_, List.mem_cons_self, List.mem_singleton.1 hlast⟩
      · exact .inr ⟨item, List.mem_cons_of_mem _ hitem, hp⟩

/-- A default is a part of the list that it is read from. -/
theorem default_readParams_subset {text : List Char} (hp : p ∈ (readParams list).1)
    (htext : text ∈ p.default) : text ⊆ list := by
  rw [readParams] at hp
  split at hp
  · cases hp
  · obtain ⟨item, hitem, rfl⟩ := (mem_readItems hp).resolve_left (List.not_mem_nil)
    intro c hc
    rw [← intercalate_splitTopLevel 0 list, Text.mem_intercalate_iff]
    exact .inr ⟨item, hitem, default_ofItem_subset htext hc⟩

namespace Definition

theorem exists_readParams_of_ofLine? {line : List Char} {d : Definition}
    (h : ofLine? line = some d) : ∃ list, ')' ∉ list ∧ d.params = (readParams list).1 := by
  simp only [ofLine?, bind, Option.bind_eq_some_iff] at h
  obtain ⟨s, -, h⟩ := h
  split at h
  · cases h
  obtain ⟨signature, hread, heq⟩ := Option.bind_eq_some_iff.1 h
  obtain rfl := Option.some.inj heq
  refine ⟨signature.1.getD [], ?_, rfl⟩
  rw [readSignature?.eq_def] at hread
  split at hread
  · simp only [bind, Option.bind_eq_some_iff] at hread
    obtain ⟨⟨list, rest⟩, hlist, s, -, body, -, heq⟩ := hread
    obtain rfl := Option.some.inj heq
    exact (Text.splitOnce?_eq_some_iff.1 hlist).2
  · simp only [bind, Option.bind_eq_some_iff] at hread
    obtain ⟨s, -, body, -, heq⟩ := hread
    obtain rfl := Option.some.inj heq
    exact List.not_mem_nil

/-- No default that is read holds a closing parenthesis: the first one of the line, in braces or
not, ends the list. -/
theorem notMem_default_of_ofLine? {line text : List Char} {d : Definition}
    (h : ofLine? line = some d) (hp : p ∈ d.params) (htext : text ∈ p.default) : ')' ∉ text := by
  obtain ⟨list, hlist, hparams⟩ := exists_readParams_of_ofLine? h
  rw [hparams] at hp
  exact fun hmem => hlist (default_readParams_subset hp htext hmem)

/-! ## Bodies -/

theorem isAllBlank_space : Text.isAllBlank [' '] = true := rfl

theorem readBody?_written (body : List Char) :
    readBody? (" \x7b".toList ++ (body ++ "\x7d;".toList)) = some (Text.trim body) := by
  have htrim : Text.trim (' ' :: '{' :: (body ++ ['}', ';'])) = '{' :: (body ++ ['}', ';']) :=
    (Text.trim_append isAllBlank_space _).trans <|
      Text.trim_eq_self_iff.2 ⟨Text.stops_cons.2 rfl, by simp; rfl⟩
  have hsemicolon : Text.stripEnd? [';'] ('{' :: (body ++ ['}', ';'])) =
      some ('{' :: (body ++ ['}'])) :=
    Text.stripEnd?_eq_some_iff.2 (by simp)
  have htrimEnd : Text.trimEnd ('{' :: (body ++ ['}'])) = '{' :: (body ++ ['}']) :=
    Text.trimEnd_append_cons (c := '}') rfl ('{' :: body) []
  have hopening : Text.stripStart? ['{'] ('{' :: (body ++ ['}'])) = some (body ++ ['}']) :=
    Text.stripStart?_eq_some_iff.2 rfl
  have hclosing : Text.stripEnd? ['}'] (body ++ ['}']) = some body :=
    Text.stripEnd?_eq_some_iff.2 rfl
  show readBody? (' ' :: '{' :: (body ++ ['}', ';'])) = _
  rw [readBody?, htrim]
  simp only [bind, hsemicolon, Option.bind_some, htrimEnd, hopening, hclosing]
  rfl

/-- Where no list stands, the body follows the name. -/
theorem readSignature?_equals {gap : List Char} (hgap : Text.isAllBlank gap = true)
    (s : List Char) : readSignature? (gap ++ '=' :: s) = (readBody? s).map (none, ·) := by
  have hstart : Text.trimStart (gap ++ '=' :: s) = '=' :: s :=
    Text.trimStart_append_of_stops hgap (Text.stops_cons.2 rfl)
  have hstrip : Text.stripStart? ['='] ('=' :: s) = some s := Text.stripStart?_eq_some_iff.2 rfl
  rw [readSignature?, hstart]
  split
  · next hopening => simp at hopening
  · simp only [bind, hstrip, Option.bind_some]
    cases readBody? s <;> rfl

namespace Source

variable {d : Source}

/-! ## Reading what is written -/

theorem isAllBlank_writtenParams (h : d.WellFormed) (hne : d.params ≠ []) :
    Text.isAllBlank (writtenParams d.params) = false := by
  obtain ⟨p, params, hparams⟩ := List.exists_cons_of_ne_nil hne
  have hp : p.WellFormed := h.params p (by simp [hparams])
  obtain ⟨c, name, hname⟩ := List.exists_cons_of_ne_nil hp.name_ne_nil
  have hblank : Text.isBlank c = false :=
    Text.stops_cons.1 (hname ▸ (Text.trim_eq_self_iff.1 hp.trimmed).1)
  have hmem : c ∈ writtenParams d.params := by
    rw [hparams, writtenParams_eq, Text.mem_intercalate_iff]
    refine .inr ⟨p.written, List.mem_cons_self, ?_⟩
    rw [Param.written, hname]
    split <;> simp
  exact Bool.eq_false_iff.2 fun hall =>
    Bool.eq_false_iff.1 hblank (Text.isAllBlank_iff.1 hall c hmem)

theorem readParams_writtenParams (h : d.WellFormed) (hne : d.params ≠ []) :
    readParams (writtenParams d.params) = (d.params, none) := by
  -- the items are cut apart again, and each gives back its parameter
  have hsplit := splitTopLevel_writtenParams hne h.params
  have hmap := map_ofItem_itemsOf h.params
  have hitems : WellFormedItems (itemsOf d.params) := by
    rw [wellFormedItems_iff, hmap]
    refine ⟨fun item hitem => ?_, pairwise_precedes h.distinct h.defaultsLast⟩
    have hmem : Param.ofItem item ∈ d.params := by
      rw [← hmap]
      exact List.mem_map_of_mem hitem
    rw [← name_ofItem]
    exact (h.params _ hmem).name_ne_nil
  rw [readParams_eq_map (isAllBlank_writtenParams h hne) (by rwa [hsplit]), hsplit, hmap]

theorem notMem_writtenParams (h : d.WellFormed)
    (hdefaults : ∀ p ∈ d.params, ∀ text ∈ p.default, ')' ∉ text) :
    ')' ∉ writtenParams d.params := by
  have hwritten : ∀ p ∈ d.params, ')' ∉ p.written := by
    intro p hp
    have hname : ')' ∉ p.name := (h.params p hp).notMem (by simp)
    rw [Param.written]
    split
    · exact hname
    · next text hdefault =>
      have htext := hdefaults p hp text hdefault
      simp [hname, htext]
  have hitems : ∀ item ∈ itemsOf d.params, ')' ∉ item := by
    cases hparams : d.params with
    | nil => exact nofun
    | cons p params =>
      rw [hparams, List.forall_mem_cons] at hwritten
      rw [itemsOf, List.forall_mem_cons, List.forall_mem_map]
      exact ⟨hwritten.1, fun q hq => by simpa using hwritten.2 q hq⟩
  rw [writtenParams_eq, Text.mem_intercalate_iff]
  rintro (⟨hc, -⟩ | ⟨item, hitem, hmem⟩)
  · cases hc
  · exact hitems item hitem hmem

/-- Where no default ends the list too early, the list and the body are found. -/
theorem exists_readSignature?_written (h : d.WellFormed)
    (hdefaults : ∀ p ∈ d.params, ∀ text ∈ p.default, ')' ∉ text) :
    ∃ list, readSignature? (d.paramList ++ (" = \x7b".toList ++ (d.body ++ "\x7d;".toList))) =
      some (list, d.body) ∧ readParams (list.getD []) = (d.params, none) := by
  have hbody := readBody?_written d.body
  rw [h.trimmed] at hbody
  by_cases hparams : d.params = []
  · refine ⟨none, ?_, by rw [hparams]; rfl⟩
    rw [paramList, if_pos hparams, List.nil_append]
    have hequals := readSignature?_equals isAllBlank_space
      (" \x7b".toList ++ (d.body ++ "\x7d;".toList))
    rw [hbody] at hequals
    exact hequals
  · refine ⟨some (writtenParams d.params), ?_, readParams_writtenParams h hparams⟩
    have hequals : Text.stripStart? ['=']
        (Text.trimStart (" = \x7b".toList ++ (d.body ++ "\x7d;".toList))) =
          some (" \x7b".toList ++ (d.body ++ "\x7d;".toList)) :=
      Text.stripStart?_eq_some_iff.2
        (Text.trimStart_append_of_stops isAllBlank_space (Text.stops_cons.2 rfl))
    have hgap : Text.isAllBlank [] = true := rfl
    have hlist := readSignature?_list hgap (notMem_writtenParams h hdefaults)
      (" = \x7b".toList ++ (d.body ++ "\x7d;".toList))
    rw [hequals, Option.bind_some, hbody] at hlist
    rw [paramList, if_neg hparams, List.cons_append, List.append_assoc]
    exact hlist

/-- A definition is read as it was written if, and only if, its defaults hold no closing
parenthesis. A default that holds one is balanced all the same, but the list ends there, and so the
line means something else or nothing at all. -/
theorem ofLine?_text_iff (h : d.WellFormed) :
    ofLine? d.text = some d.meaning ↔ ∀ p ∈ d.params, ∀ text ∈ p.default, ')' ∉ text := by
  constructor
  · intro hread p hp text htext
    exact notMem_default_of_ofLine? hread hp htext
  · intro hdefaults
    obtain ⟨list, hsignature, hparams⟩ := exists_readSignature?_written h hdefaults
    have htrim : Text.trim d.text = d.text := by
      refine Text.trim_eq_self_iff.2 ⟨Text.stops_cons.2 rfl, ?_⟩
      simp [text]
      rfl
    have hstops : Stops Char.isAlpha
        (d.paramList ++ (" = \x7b".toList ++ (d.body ++ "\x7d;".toList))) := by
      refine Text.stops_append ?_ (Text.stops_cons.2 rfl)
      rw [paramList]
      split
      · exact nofun
      · exact Text.stops_cons.2 rfl
    rw [ofLine?_of_trim htrim h.name_ne_nil h.letters hstops, hsignature]
    simp only [Option.map_some, hparams, meaning]

/-- A default with a comma and a group of its own is read as it was written. With a closing
parenthesis, the line defines nothing. -/
theorem ofLine?_text_iff_of_groups :
    let kept : Source :=
      ⟨['d'], [⟨['a'], none⟩, ⟨['b'], some "x,\x7by\x7d".toList⟩], "(a; b)".toList⟩
    let lost : Source := ⟨['m'], [⟨['q'], some [')']⟩], ['q']⟩
    kept.WellFormed ∧ ofLine? kept.text = some kept.meaning ∧
      lost.WellFormed ∧ ofLine? lost.text ≠ some lost.meaning ∧ ofLine? lost.text = none := by
  have hgroup : Balanced "x,\x7by\x7d".toList :=
    .other (by decide) (by decide) <| .other (by decide) (by decide) <|
      .group (.other (by decide) (by decide) .nil) .nil
  have hkept : WellFormed
      ⟨['d'], [⟨['a'], none⟩, ⟨['b'], some "x,\x7by\x7d".toList⟩], "(a; b)".toList⟩ := by
    refine ⟨by decide, List.forall_mem_singleton.2 rfl, ?_, by decide,
      ⟨[⟨['a'], none⟩], _, rfl, ?_, ?_⟩, by decide⟩
    · rw [List.forall_mem_cons, List.forall_mem_singleton]
      refine ⟨⟨by decide, by decide, List.forall_mem_singleton.2 (by decide), nofun⟩,
        ⟨by decide, by decide, List.forall_mem_singleton.2 (by decide), ?_⟩⟩
      rintro _ ⟨⟩
      exact hgroup
    · exact List.forall_mem_singleton.2 rfl
    · exact List.forall_mem_singleton.2 nofun
  have hlost : WellFormed ⟨['m'], [⟨['q'], some [')']⟩], ['q']⟩ := by
    refine ⟨by decide, List.forall_mem_singleton.2 rfl, ?_, by decide,
      ⟨[], _, rfl, nofun, ?_⟩, by decide⟩
    · refine List.forall_mem_singleton.2
        ⟨by decide, by decide, List.forall_mem_singleton.2 (by decide), ?_⟩
      rintro _ ⟨⟩
      exact .other (by decide) (by decide) .nil
    · exact List.forall_mem_singleton.2 nofun
  refine ⟨hkept, (ofLine?_text_iff hkept).2 (by decide), hlost, fun hread => ?_, by decide⟩
  exact (ofLine?_text_iff hlost).1 hread ⟨['q'], some [')']⟩ (by simp) [')'] rfl (by simp)

end Source

end Definition

end Treatise.Abbreviation
