import Mathlib.Data.List.Induction
import Treatise.Dict

/-!
# Entries of dictionaries

The entries of a dictionary are its look-ups, and entries that are put in one after another are looked
up from the last.

* **`Dict.mem_entries_iff`** — an entry is a look-up that succeeds.
* **`Dict.get?_insertAll`** — the last of several entries of one key wins over those before it and over
  what was there.
* **`Dict.get?_union`** — so do all entries of the second dictionary.
* `Dict.mem_keys_ofList` — the keys of a dictionary of pairs are those of the pairs.
* `Dict.size_restrict_eq_iff` — a part of a dictionary has as many entries as a part of it in turn
  if and only if the two have the same entries.
-/

namespace Treatise

/-- A filter that keeps no more than another one keeps as many elements if and only if it keeps the
same ones. -/
theorem length_filter_eq_iff {α : Type} {l : List α} {p q : α → Bool}
    (h : ∀ a ∈ l, p a = true → q a = true) :
    (l.filter p).length = (l.filter q).length ↔ ∀ a ∈ l, q a = true → p a = true := by
  have htwice : l.filter p = (l.filter q).filter p := by
    rw [List.filter_filter]
    refine List.filter_congr fun a ha => ?_
    cases hp : p a with
    | false => simp
    | true => simp [h a ha hp]
  rw [htwice, List.length_filter_eq_length_iff]
  simp only [List.mem_filter, and_imp]

namespace Dict

variable {α : Type}

/-- The dictionary with more entries, of which later ones win. -/
def insertAll (d : Dict α) (entries : List (String × α)) : Dict α :=
  entries.foldl (fun d e => d.insert e.1 e.2) d

theorem get?_insertAll (d : Dict α) (entries : List (String × α)) (key : String) :
    (d.insertAll entries).get? key =
      ((entries.filter (·.1 == key)).getLast?.map (·.2)).or (d.get? key) := by
  induction entries using List.reverseRecOn with
  | nil => rfl
  | append_singleton entries e ih =>
    rw [insertAll, List.foldl_append, List.foldl_cons, List.foldl_nil, get?_insert,
      List.filter_append]
    by_cases hkey : key = e.1
    · rw [if_pos hkey, List.filter_cons_of_pos (by simp [hkey]), List.filter_nil,
        List.getLast?_concat]
      rfl
    · rw [if_neg hkey, List.filter_cons_of_neg (by simp [Ne.symm hkey]), List.filter_nil,
        List.append_nil]
      exact ih

/-- Of entries in ascending order, at most one has the key. -/
private theorem filter_eq_of_sorted {entries : List (String × α)}
    (h : entries.Pairwise (fun a b => a.1 < b.1)) (key : String) :
    entries.filter (·.1 == key) = (entries.find? (·.1 == key)).toList := by
  induction entries with
  | nil => rfl
  | cons e entries ih =>
    obtain ⟨hhead, hrest⟩ := List.pairwise_cons.1 h
    by_cases hkey : e.1 = key
    · have hnone : entries.filter (·.1 == key) = [] := by
        rw [List.filter_eq_nil_iff]
        intro e' he' heq
        have hlt := hhead e' he'
        rw [hkey, beq_iff_eq.1 heq] at hlt
        exact String.lt_irrefl _ hlt
      rw [List.filter_cons_of_pos (by simp [hkey]), hnone,
        List.find?_cons_of_pos (by simp [hkey])]
      rfl
    · rw [List.filter_cons_of_neg (by simp [hkey]), List.find?_cons_of_neg (by simp [hkey]),
        ih hrest]

theorem filter_entries (d : Dict α) (key : String) :
    d.entries.filter (·.1 == key) = ((d.get? key).map (key, ·)).toList := by
  rw [filter_eq_of_sorted d.sorted, get?]
  cases h : d.entries.find? (·.1 == key) with
  | none => rfl
  | some e =>
    have hkey : e.1 = key := beq_iff_eq.1 (List.find?_some h :)
    subst hkey
    rfl

theorem mem_entries_iff {d : Dict α} {key : String} {value : α} :
    (key, value) ∈ d.entries ↔ d.get? key = some value := by
  have hfilter : (key, value) ∈ d.entries ↔ (key, value) ∈ d.entries.filter (·.1 == key) := by
    simp [List.mem_filter]
  rw [hfilter, filter_entries]
  cases d.get? key <;> simp [eq_comm]

theorem get?_union (d e : Dict α) (key : String) :
    (d.union e).get? key = (e.get? key).or (d.get? key) := by
  refine (get?_insertAll d e.entries key).trans ?_
  rw [filter_entries]
  cases e.get? key <;> rfl

theorem mem_keys_iff {d : Dict α} {key : String} : key ∈ d.keys ↔ (d.get? key).isSome = true := by
  rw [keys, List.mem_map, Option.isSome_iff_exists]
  constructor
  · rintro ⟨⟨k, value⟩, hmem, rfl⟩
    exact ⟨value, mem_entries_iff.1 hmem⟩
  · rintro ⟨value, hget⟩
    exact ⟨(key, value), mem_entries_iff.2 hget, rfl⟩

/-- The keys of entries that are put in one after another are kept, whichever of them win. -/
theorem mem_keys_ofList {entries : List (String × α)} {key : String} :
    key ∈ (ofList entries).keys ↔ key ∈ entries.map (·.1) := by
  have hget : (ofList entries).get? key =
      ((entries.filter (·.1 == key)).getLast?.map (·.2)).or none :=
    get?_insertAll empty entries key
  rw [mem_keys_iff, hget, Option.or_none, Option.isSome_map, List.getLast?_isSome, List.mem_map]
  constructor
  · intro hne
    obtain ⟨e, he⟩ := List.exists_mem_of_ne_nil _ hne
    obtain ⟨hmem, hkey⟩ := List.mem_filter.1 he
    exact ⟨e, hmem, beq_iff_eq.1 hkey⟩
  · rintro ⟨e, hmem, rfl⟩
    exact List.ne_nil_of_mem (List.mem_filter.2 ⟨hmem, beq_self_eq_true _⟩)

/-! ## Part of a dictionary -/

/-- The entries whose keys have a property. -/
def restrict (d : Dict α) (p : String → Bool) : Dict α where
  entries := d.entries.filter (p ·.1)
  sorted := d.sorted.filter _

theorem get?_restrict (d : Dict α) (p : String → Bool) (key : String) :
    (d.restrict p).get? key = if p key then d.get? key else none := by
  ext value
  rw [← mem_entries_iff, restrict, List.mem_filter, mem_entries_iff]
  cases p key <;> simp

theorem size_restrict_eq_iff {d : Dict α} {p q : String → Bool}
    (h : ∀ key, p key = true → q key = true) :
    (d.restrict p).size = (d.restrict q).size ↔ ∀ key ∈ d.keys, q key = true → p key = true := by
  refine (length_filter_eq_iff fun e _ => h e.1).trans ?_
  simp only [keys, List.forall_mem_map]

end Dict

end Treatise
