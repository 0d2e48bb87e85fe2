/-!
# Dictionaries

A finite map from strings, kept as its entries in ascending order of the keys. The order is part of
the type, so a dictionary has one form only: two dictionaries with the same look-ups are equal
(`Dict.ext_get?`).

* `Dict.get?_insert` — a look-up after an insertion;
* `Dict.insert_of_get?` — inserting what is there already changes nothing.
-/

namespace Treatise

/-- The entries with `key ↦ value` put in its place, over an entry of the same key. -/
def insertEntry {α : Type} (key : String) (value : α) : List (String × α) → List (String × α)
  | [] => [(key, value)]
  | (k, v) :: rest =>
    if key < k then (key, value) :: (k, v) :: rest
    else if key = k then (key, value) :: rest
    else (k, v) :: insertEntry key value rest

theorem mem_insertEntry {α : Type} {key : String} {value : α} {l : List (String × α)}
    {p : String × α} (h : p ∈ insertEntry key value l) : p = (key, value) ∨ p ∈ l := by
  induction l with
  | nil => simpa [insertEntry] using h
  | cons q l ih =>
    obtain ⟨k, v⟩ := q
    unfold insertEntry at h
    split at h
    · simpa using h
    · split at h
      · rcases List.mem_cons.1 h with h | h
        · exact .inl h
        · exact .inr (List.mem_cons_of_mem _ h)
      · rcases List.mem_cons.1 h with h | h
        · exact .inr (h ▸ List.mem_cons_self)
        · exact (ih h).imp_right (List.mem_cons_of_mem _)

theorem sorted_insertEntry {α : Type} {key : String} {value : α} {l : List (String × α)}
    (h : l.Pairwise (fun a b => a.1 < b.1)) :
    (insertEntry key value l).Pairwise (fun a b => a.1 < b.1) := by
  induction l with
  | nil => simp [insertEntry]
  | cons q l ih =>
    obtain ⟨k, v⟩ := q
    rw [List.pairwise_cons] at h
    unfold insertEntry
    split
    · next hlt =>
      -- the new entry comes first, before all that come behind the old first one
      refine List.pairwise_cons.2 ⟨?_, List.pairwise_cons.2 h⟩
      intro p hp
      rcases List.mem_cons.1 hp with rfl | hp
      · exact hlt
      · exact String.lt_trans hlt (h.1 p hp)
    · next hge =>
      split
      · next heq =>
        subst heq
        exact List.pairwise_cons.2 ⟨h.1, h.2⟩
      · next hne =>
        -- the new entry goes somewhere behind, and its key is the greater one
        refine List.pairwise_cons.2 ⟨?_, ih h.2⟩
        intro p hp
        rcases mem_insertEntry hp with rfl | hp
        · rcases Std.lt_trichotomy k key with hk | hk | hk
          · exact hk
          · exact absurd hk.symm hne
          · exact absurd hk hge
        · exact h.1 p hp

/-- A map from strings: entries in ascending order of distinct keys. -/
structure Dict (α : Type) where
  entries : List (String × α)
  sorted : entries.Pairwise (fun a b => a.1 < b.1)
  deriving DecidableEq

namespace Dict

variable {α : Type}

def empty : Dict α := ⟨[], List.Pairwise.nil⟩

instance : EmptyCollection (Dict α) := ⟨empty⟩

instance : Inhabited (Dict α) := ⟨empty⟩

/-- The value at a key. -/
def get? (d : Dict α) (key : String) : Option α :=
  (d.entries.find? (·.1 == key)).map (·.2)

/-- The dictionary with `key ↦ value`, in place of what was at that key. -/
def insert (d : Dict α) (key : String) (value : α) : Dict α :=
  ⟨insertEntry key value d.entries, sorted_insertEntry d.sorted⟩

def contains (d : Dict α) (key : String) : Bool := (d.get? key).isSome

def isEmpty (d : Dict α) : Bool := d.entries.isEmpty

def size (d : Dict α) : Nat := d.entries.length

def keys (d : Dict α) : List String := d.entries.map (·.1)

/-- The dictionary of the pairs, later ones winning. -/
def ofList (l : List (String × α)) : Dict α :=
  l.foldl (fun d p => d.insert p.1 p.2) empty

/-- The first dictionary with the entries of the second, which win. -/
def union (d e : Dict α) : Dict α :=
  e.entries.foldl (fun d p => d.insert p.1 p.2) d

/-! ## Look-ups -/

@[simp] theorem get?_empty (key : String) : (empty : Dict α).get? key = none := rfl

private theorem find?_insertEntry {key : String} {value : α} {l : List (String × α)}
    (h : l.Pairwise (fun a b => a.1 < b.1)) (k : String) :
    ((insertEntry key value l).find? (·.1 == k)).map (·.2) =
      if k = key then some value else (l.find? (·.1 == k)).map (·.2) := by
  induction l with
  | nil =>
    by_cases hk : k = key
    · simp [insertEntry, hk]
    · simp [insertEntry, hk, Ne.symm hk]
  | cons q l ih =>
    obtain ⟨k', v⟩ := q
    rw [List.pairwise_cons] at h
    unfold insertEntry
    split
    · by_cases hk : k = key
      · simp [hk]
      · simp [hk, Ne.symm hk]
    · split
      · next heq =>
        subst heq
        by_cases hk : k = key
        · simp [hk]
        · simp [hk, Ne.symm hk]
      · next hne =>
        by_cases hk : k = k'
        · subst hk
          simp [Ne.symm hne]
        · have hk' : (k' == k) = false := by simp [Ne.symm hk]
          simp only [List.find?_cons, hk']
          exact ih h.2

@[simp] theorem get?_insert (d : Dict α) (key k : String) (value : α) :
    (d.insert key value).get? k = if k = key then some value else d.get? k :=
  find?_insertEntry d.sorted k

private theorem find?_eq_none_of_lt {l : List (String × α)} {k : String}
    (h : ∀ p ∈ l, k < p.1) : l.find? (·.1 == k) = none := by
  rw [List.find?_eq_none]
  intro p hp he
  have := h p hp
  rw [show p.1 = k from by simpa using he] at this
  exact String.lt_irrefl _ this

/-- A list that has something at the first key of another one does not begin behind that key. -/
private theorem not_lt_head_key {p q : String × α} {l m : List (String × α)}
    (hm : (q :: m).Pairwise (fun a b => a.1 < b.1))
    (h : ((p :: l).find? (·.1 == p.1)).map (·.2) = ((q :: m).find? (·.1 == p.1)).map (·.2)) :
    ¬p.1 < q.1 := by
  intro hlt
  have hbefore : ∀ r ∈ q :: m, p.1 < r.1 := by
    intro r hr
    rcases List.mem_cons.1 hr with rfl | hr
    · exact hlt
    · exact String.lt_trans hlt ((List.pairwise_cons.1 hm).1 r hr)
  rw [find?_eq_none_of_lt hbefore] at h
  simp at h

private theorem entries_ext {l m : List (String × α)}
    (hl : l.Pairwise (fun a b => a.1 < b.1)) (hm : m.Pairwise (fun a b => a.1 < b.1))
    (h : ∀ k : String, (l.find? (·.1 == k)).map (·.2) = (m.find? (·.1 == k)).map (·.2)) :
    l = m := by
  induction l generalizing m with
  | nil =>
    cases m with
    | nil => rfl
    | cons q m => have := h q.1; simp at this
  | cons p l ih =>
    cases m with
    | nil => have := h p.1; simp at this
    | cons q m =>
      -- the smallest keys are the same, as neither list begins behind the key of the other
      have hkeys : p.1 = q.1 := by
        rcases Std.lt_trichotomy p.1 q.1 with hlt | heq | hgt
        · exact absurd hlt (not_lt_head_key hm (h p.1))
        · exact heq
        · exact absurd hgt (not_lt_head_key hl (h q.1).symm)
      rw [List.pairwise_cons] at hl hm
      have hvals : p.2 = q.2 := by
        have := h p.1
        simpa [hkeys] using this
      have hpq : p = q := Prod.ext hkeys hvals
      subst hpq
      congr 1
      refine ih hl.2 hm.2 fun k => ?_
      by_cases hk : k = p.1
      · subst hk
        rw [find?_eq_none_of_lt hl.1, find?_eq_none_of_lt hm.1]
      · have := h k
        have hk' : (p.1 == k) = false := by simp [Ne.symm hk]
        simpa only [List.find?_cons, hk'] using this

/-- A dictionary is determined by its look-ups. -/
theorem ext_get? {d e : Dict α} (h : ∀ k, d.get? k = e.get? k) : d = e := by
  obtain ⟨l, hl⟩ := d
  obtain ⟨m, hm⟩ := e
  have : l = m := entries_ext hl hm h
  subst this
  rfl

theorem insert_of_get? {d : Dict α} {key : String} {value : α} (h : d.get? key = some value) :
    d.insert key value = d := by
  refine ext_get? fun k => ?_
  rw [get?_insert]
  split
  · next hk => rw [hk, h]
  · rfl

theorem insert_insert (d : Dict α) (key : String) (v w : α) :
    (d.insert key v).insert key w = d.insert key w := by
  refine ext_get? fun k => ?_
  simp only [get?_insert]
  split <;> simp_all

end Dict

end Treatise
