import Treatise.Proofs.Dictionaries
import Treatise.Proofs.Numbering.Statements

/-!
# Counters by name

The numbers of statements can be taken from counters: one for all statements, or one for each kind
with the name of the kind. A statement counts on the counter of its kind, and a heading that changes
the components in front of a statement's number sets all counters back to zero. The state of the walk
keeps the kinds that have counted instead, from which the same numbers come.

* **`Counters.pass`** — what a landmark does to the counters.
* **`Counters.Agrees`** — each counter stands at the number of statements that have counted on it; a
  landmark preserves this (`Counters.Agrees.pass`).
* **`Numbering.Reaches.count_eq`** — wherever the walk comes, a statement takes the number that its
  counter shows when it has counted.
-/

namespace Treatise

/-- The counters that have counted at least once, by name. -/
abbrev Counters := Dict Nat

namespace Counters

/-- The name of the counter that statements of a kind count on. -/
def nameFor (o : NumberingOptions) (kind : Kind) : String :=
  if o.byKind then kind.name else "generic"

/-- What a counter shows when it has counted once more. -/
def next (c : Counters) (name : String) : Nat := (c.get? name).getD 0 + 1

def increment (c : Counters) (name : String) : Counters := c.insert name (c.next name)

/-- Sets all counters back to zero. -/
def reset (c : Counters) : Counters := c.insertAll (c.entries.map fun e => (e.1, 0))

/-- The counters behind a landmark. -/
def pass (o : NumberingOptions) (c : Counters) : Landmark → Counters
  | .heading level _ => if level - 1 < o.depthLimit then c.reset else c
  | .statement kind => c.increment (nameFor o kind)

/-- The counters show how many statements have counted on each. -/
def Agrees (o : NumberingOptions) (c : Counters) (s : Numbering) : Prop :=
  ∀ kind, c.next (nameFor o kind) = s.count o kind

variable {o : NumberingOptions} {c : Counters} {s : Numbering} {kind kind' : Kind}

theorem next_increment (c : Counters) (name name' : String) :
    (c.increment name).next name' = c.next name' + if name' = name then 1 else 0 := by
  rw [next, increment, Dict.get?_insert]
  by_cases h : name' = name
  · subst h
    rw [if_pos rfl, if_pos rfl]
    rfl
  · rw [if_neg h, if_neg h]
    rfl

theorem next_reset (c : Counters) (name : String) : c.reset.next name = 1 := by
  have hzero : ∀ e ∈ (c.entries.map fun e => (e.1, 0)).filter (·.1 == name), e.2 = 0 := by
    intro e he
    obtain ⟨e', -, rfl⟩ := List.mem_map.1 (List.mem_filter.1 he).1
    rfl
  have hget : (c.reset.get? name).getD 0 = 0 := by
    rw [reset, Dict.get?_insertAll]
    cases hlast : ((c.entries.map fun e => (e.1, 0)).filter (·.1 == name)).getLast? with
    | some e => exact hzero e (List.mem_of_getLast? hlast)
    | none =>
      -- a counter that has not counted is not there, and shows zero as well
      have hnone : c.get? name = none := by
        rw [List.getLast?_eq_none_iff, List.filter_map, List.map_eq_nil_iff] at hlast
        have hfilter : c.entries.filter (·.1 == name) = [] := hlast
        rw [Dict.filter_entries] at hfilter
        cases hget : c.get? name with
        | none => rfl
        | some count => rw [hget] at hfilter; cases hfilter
      rw [hnone]
      rfl
  rw [next, hget]

/-- Kinds that are counted on their own have counters of their own. -/
theorem nameFor_eq_iff : nameFor o kind = nameFor o kind' ↔ (o.byKind = true → kind = kind') := by
  cases hbyKind : o.byKind with
  | false => simp [nameFor, hbyKind]
  | true =>
    simp only [nameFor, hbyKind, if_true, forall_const]
    constructor
    · intro hname
      have hfound := Kind.ofName?_eq_some_iff.2 hname
      rw [Kind.ofName?_eq_some_iff.2 rfl] at hfound
      exact Option.some.inj hfound
    · rintro rfl
      rfl

theorem agrees_initial (o : NumberingOptions) : Agrees o ∅ (.initial o) := by
  intro kind
  simp [next, Numbering.count, Numbering.initial, show (∅ : Counters).get? _ = none from rfl]

/-- A heading sets the counters back when the count begins anew, and a statement counts on the counter
of its kind only. -/
theorem Agrees.pass (h : Agrees o c s) (l : Landmark) : Agrees o (c.pass o l) (s.pass o l) := by
  intro kind
  cases l with
  | heading level title =>
    have hcounted : (s.pass o (.heading level title)).counted =
        if level - 1 < o.depthLimit then [] else s.counted := rfl
    rw [Counters.pass, Numbering.count, hcounted]
    split
    · rw [next_reset]
      cases o.byKind <;> rfl
    · exact h kind
  | statement kind' =>
    have hcount : (s.pass o (.statement kind')).count o kind =
        s.count o kind + if o.byKind = true → kind = kind' then 1 else 0 := by
      have hcounted : (s.pass o (.statement kind')).counted = kind' :: s.counted := rfl
      rw [Numbering.count, Numbering.count, hcounted]
      cases o.byKind with
      | false => simp [Nat.add_assoc]
      | true => simp [List.count_cons, Nat.add_assoc, eq_comm (a := kind)]
    rw [hcount, Counters.pass, next_increment, h kind]
    simp only [nameFor_eq_iff]

theorem agrees_foldl (h : Agrees o c s) (ls : List Landmark) :
    Agrees o (ls.foldl (Counters.pass o) c) (ls.foldl (Numbering.pass o) s) := by
  induction ls generalizing c s with
  | nil => exact h
  | cons l ls ih => exact ih (h.pass l)

end Counters

namespace Numbering

/-- The counters behind these nodes. -/
def countersBehind (o : NumberingOptions) (before : List Node) : Counters :=
  (before.filterMap (Node.landmark? o Node.headingTitle)).foldl (Counters.pass o) ∅

/-- Wherever the walk comes, the next statement has the number that its counter shows when it has
counted. -/
theorem Reaches.count_eq {o : NumberingOptions} {s : Numbering} {before : List Node}
    (h : s.Reaches o before) (kind : Kind) :
    s.count o kind = (countersBehind o before).next (Counters.nameFor o kind) := by
  have hcounters : s.counters = (behind o before).counters := h
  have hcounted : s.counted = (behind o before).counted := by
    show s.counters.counted = _
    rw [hcounters]
    rfl
  have hagrees := Counters.agrees_foldl (Counters.agrees_initial o)
    (before.filterMap (Node.landmark? o Node.headingTitle))
  rw [count, hcounted]
  exact (hagrees kind).symm

end Numbering

end Treatise
