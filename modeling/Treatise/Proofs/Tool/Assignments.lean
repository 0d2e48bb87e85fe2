import Mathlib.Data.List.Induction
import Treatise.Proofs.Dictionaries
import Treatise.RenderOptions

/-!
# Assignments

What texts `key=value` assign to keys, and which of them are malformed.

* **`readAssignment_eq_ok_iff`** — the parts of an assignment are read from it.
* **`get?_readAssignments`** — a key has the value that the last assignment to it gives.
* **`errors_readAssignments`** — the malformed texts are what is wrong, each once and in order.
* **`overlays_union`** — assignments are put over a dictionary.
-/

namespace Treatise

/-! ## One text -/

/-- The text has the key before its first equals sign and the value behind it. Blanks around them do
not count, and the key is not empty. -/
def IsAssignment (s key value : String) : Prop :=
  ∃ before after, s.toList = before ++ '=' :: after ∧ '=' ∉ before ∧
    Text.trim before = key.toList ∧ key ≠ "" ∧ Text.trim after = value.toList

/-- The text assigns nothing to any key. -/
def IsMalformed (s : String) : Prop := ∀ key value, ¬IsAssignment s key value

/-- What is wrong with a malformed text: it has no key, or no equals sign. -/
def OptionError.ofMalformed (s : String) : OptionError :=
  if '=' ∈ s.toList then .emptyKey s else .missingValue s

variable {s key value : String}

theorem isAssignment_iff_of_split {before after : List Char}
    (hs : s.toList = before ++ '=' :: after) (h : '=' ∉ before) :
    IsAssignment s key value ↔
      Text.trim before = key.toList ∧ key ≠ "" ∧ Text.trim after = value.toList := by
  constructor
  · rintro ⟨before', after', hs', h', hassigned⟩
    -- a text has one first equals sign only
    have hsplit := Text.splitOnce?_eq_some_iff.2 ⟨hs, h⟩
    rw [Text.splitOnce?_eq_some_iff.2 ⟨hs', h'⟩] at hsplit
    obtain ⟨rfl, rfl⟩ := Prod.mk.inj (Option.some.inj hsplit)
    exact hassigned
  · exact fun hassigned => ⟨before, after, hs, h, hassigned⟩

theorem readAssignment_of_split {before after : List Char}
    (hs : s.toList = before ++ '=' :: after) (h : '=' ∉ before) :
    readAssignment s = if (Text.trim before).isEmpty then .error (.emptyKey s)
      else .ok (String.ofList (Text.trim before), String.ofList (Text.trim after)) := by
  rw [readAssignment, Text.splitOnce?_eq_some_iff.2 ⟨hs, h⟩]

theorem readAssignment_of_notMem (h : '=' ∉ s.toList) :
    readAssignment s = .error (.missingValue s) := by
  have hnone : Text.splitOnce? '=' s.toList = none := by
    rw [Option.eq_none_iff_forall_ne_some]
    rintro ⟨before, after⟩ hsplit
    rw [(Text.splitOnce?_eq_some_iff.1 hsplit).1] at h
    exact h (List.mem_append_right _ List.mem_cons_self)
  rw [readAssignment, hnone]

theorem ofList_eq_iff {l : List Char} : String.ofList l = s ↔ l = s.toList := by
  rw [← String.toList_inj, String.toList_ofList]

theorem readAssignment_eq_ok_iff :
    readAssignment s = .ok (key, value) ↔ IsAssignment s key value := by
  -- the text is cut at its first equals sign, if it has one
  by_cases h : '=' ∈ s.toList
  · obtain ⟨before, after, hs, hbefore⟩ := List.eq_append_cons_of_mem h
    rw [readAssignment_of_split hs hbefore, isAssignment_iff_of_split hs hbefore]
    split
    · next hempty =>
      refine iff_of_false (by simp) fun ⟨hkey, hne, _⟩ => hne ?_
      rw [List.isEmpty_iff.1 hempty] at hkey
      exact String.toList_eq_nil_iff.1 hkey.symm
    · next hempty =>
      rw [Except.ok.injEq, Prod.mk.injEq, ofList_eq_iff, ofList_eq_iff]
      refine and_congr_right fun hkey => (and_iff_right ?_).symm
      rintro rfl
      exact hempty (List.isEmpty_iff.2 hkey)
  · rw [readAssignment_of_notMem h]
    refine iff_of_false (by simp) fun ⟨before, after, hs, _⟩ => h ?_
    rw [hs]
    exact List.mem_append_right _ List.mem_cons_self

example : readAssignment " a = b=c " = .ok ("a", "b=c") := by decide +kernel

/-- The key and the value of an assignment. -/
def assignment? (s : String) : Option (String × String) := (readAssignment s).toOption

theorem assignment?_eq_some_iff : assignment? s = some (key, value) ↔ IsAssignment s key value := by
  rw [← readAssignment_eq_ok_iff, assignment?]
  cases readAssignment s <;> simp [Except.toOption]

theorem assignment?_eq_none_iff : assignment? s = none ↔ IsMalformed s := by
  simp only [Option.eq_none_iff_forall_ne_some, Prod.forall, ne_eq, assignment?_eq_some_iff]
  rfl

instance (s : String) : Decidable (IsMalformed s) :=
  decidable_of_iff _ assignment?_eq_none_iff

theorem readAssignment_of_isMalformed (h : IsMalformed s) :
    readAssignment s = .error (.ofMalformed s) := by
  rw [OptionError.ofMalformed]
  split
  · next hmem =>
    obtain ⟨before, after, hs, hbefore⟩ := List.eq_append_cons_of_mem hmem
    have hread := readAssignment_of_split hs hbefore
    split at hread
    · exact hread
    · exact absurd (readAssignment_eq_ok_iff.1 hread) (h _ _)
  · next hmem => exact readAssignment_of_notMem hmem

/-! ## Several texts -/

/-- The last of the texts that assigns something to the key assigns this value to it. -/
def LastAssigns (l : List String) (key value : String) : Prop :=
  ∃ before s after, l = before ++ s :: after ∧ IsAssignment s key value ∧
    ∀ s' ∈ after, ∀ value', ¬IsAssignment s' key value'

/-- None of the texts assigns anything to the key. -/
def Unassigned (l : List String) (key : String) : Prop :=
  ∀ s ∈ l, ∀ value, ¬IsAssignment s key value

variable {l : List String}

theorem lastAssigns_concat : LastAssigns (l ++ [s]) key value ↔
    IsAssignment s key value ∨ (∀ value', ¬IsAssignment s key value') ∧ LastAssigns l key value := by
  constructor
  · rintro ⟨before, s', after, hl, hassigns, hafter⟩
    rcases List.eq_nil_or_concat after with rfl | ⟨after, last, rfl⟩
    · obtain ⟨-, hs⟩ := List.append_inj' hl rfl
      exact .inl (List.singleton_inj.1 hs ▸ hassigns)
    · rw [List.concat_eq_append, ← List.cons_append, ← List.append_assoc] at hl
      obtain ⟨hl, hs⟩ := List.append_inj' hl rfl
      rw [List.concat_eq_append, List.forall_mem_append, ← hs, List.forall_mem_singleton] at hafter
      exact .inr ⟨hafter.2, before, s', after, hl, hassigns, hafter.1⟩
  · rintro (hassigns | ⟨hs, before, s', after, rfl, hassigns, hafter⟩)
    · exact ⟨l, s, [], rfl, hassigns, by simp⟩
    · refine ⟨before, s', after ++ [s], by simp, hassigns, ?_⟩
      rw [List.forall_mem_append, List.forall_mem_singleton]
      exact ⟨hafter, hs⟩

theorem unassigned_concat :
    Unassigned (l ++ [s]) key ↔ Unassigned l key ∧ ∀ value, ¬IsAssignment s key value := by
  rw [Unassigned, List.forall_mem_append, List.forall_mem_singleton]
  rfl

theorem splitAssignments_eq (l : List String) :
    splitAssignments l = (l.filterMap assignment?, (l.filter (IsMalformed ·)).map .ofMalformed) := by
  induction l with
  | nil => rfl
  | cons s l ih =>
    rw [splitAssignments, ih]
    by_cases hs : IsMalformed s
    · rw [readAssignment_of_isMalformed hs, List.filter_cons_of_pos (by simpa using hs),
        List.filterMap_cons_none (assignment?_eq_none_iff.2 hs)]
      rfl
    · rw [List.filter_cons_of_neg (by simpa using hs)]
      cases hread : assignment? s with
      | none => exact absurd (assignment?_eq_none_iff.1 hread) hs
      | some pair =>
        rw [readAssignment_eq_ok_iff.2 (assignment?_eq_some_iff.1 hread),
          List.filterMap_cons_some hread]

/-- What is wrong with texts is reported once for each malformed one, in their order. -/
theorem errors_readAssignments (l : List String) :
    (readAssignments l).2 = (l.filter (IsMalformed ·)).map .ofMalformed := by
  rw [readAssignments, splitAssignments_eq]

theorem fst_readAssignments (l : List String) :
    (readAssignments l).1 = Dict.ofList (l.filterMap assignment?) := by
  rw [readAssignments, splitAssignments_eq]

theorem readAssignments_concat (l : List String) (s : String) :
    (readAssignments (l ++ [s])).1 =
      (readAssignments l).1.insertAll (assignment? s).toList := by
  have hlast : [s].filterMap assignment? = (assignment? s).toList := by
    cases h : assignment? s <;> simp [h]
  rw [fst_readAssignments, fst_readAssignments, List.filterMap_append, hlast]
  exact List.foldl_append

theorem get?_readAssignments :
    (readAssignments l).1.get? key = some value ↔ LastAssigns l key value := by
  -- from the end, since the last text wins
  induction l using List.reverseRecOn with
  | nil => exact iff_of_false nofun fun ⟨before, s, after, hl, _⟩ => by simp at hl
  | append_singleton l s ih =>
    rw [readAssignments_concat, lastAssigns_concat, ← ih]
    simp only [← assignment?_eq_some_iff]
    cases assignment? s with
    | none => simp [Dict.insertAll]
    | some pair =>
      by_cases hkey : key = pair.1
      · simp [Dict.insertAll, hkey, Prod.ext_iff]
      · simp [Dict.insertAll, hkey, Ne.symm hkey, Prod.ext_iff]

theorem get?_readAssignments_eq_none :
    (readAssignments l).1.get? key = none ↔ Unassigned l key := by
  induction l using List.reverseRecOn with
  | nil => exact iff_of_true rfl (by simp [Unassigned])
  | append_singleton l s ih =>
    rw [readAssignments_concat, unassigned_concat, ← ih]
    simp only [← assignment?_eq_some_iff]
    cases assignment? s with
    | none => simp [Dict.insertAll]
    | some pair =>
      by_cases hkey : key = pair.1
      · simp [Dict.insertAll, hkey, Prod.ext_iff]
      · simp [Dict.insertAll, hkey, Ne.symm hkey, Prod.ext_iff]

/-- Malformed texts have no influence on what the others assign. -/
theorem readAssignments_filter (l : List String) :
    (readAssignments (l.filter fun s => ¬IsMalformed s)).1 = (readAssignments l).1 := by
  rw [fst_readAssignments, fst_readAssignments, List.filterMap_filter]
  refine congrArg (fun f => Dict.ofList (l.filterMap f)) (funext fun s => ?_)
  by_cases hs : IsMalformed s
  · rw [if_neg (by simpa using hs), assignment?_eq_none_iff.2 hs]
  · rw [if_pos (by simpa using hs)]

/-! ## Assignments over a dictionary -/

/-- A key has the value of the last assignment to it and, where there is none, the value from below. -/
def Overlays (d : Dict String) (l : List String) (below : String → Option String) : Prop :=
  ∀ key value, d.get? key = some value ↔
    LastAssigns l key value ∨ Unassigned l key ∧ below key = some value

theorem overlays_union (d : Dict String) (l : List String) :
    Overlays (d.union (readAssignments l).1) l d.get? := by
  intro key value
  rw [Dict.get?_union, ← get?_readAssignments, ← get?_readAssignments_eq_none]
  cases (readAssignments l).1.get? key <;> simp

end Treatise
