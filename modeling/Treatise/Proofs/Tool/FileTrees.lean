import Mathlib.Data.List.Nodup
import Treatise.Proofs.Pieces
import Treatise.Tool.FileTree

/-!
# Trees of files

What is at the end of a list of names, and how paths lead there.

* **`FileTree.WellFormed`** — a tree as a file system has it: the names in a directory are distinct, and
  each can be a part of a path.
* **`FileTree.LeadsTo.joinAll`** — behind the path of a directory, the names of what is below it lead to
  it.
-/

namespace Treatise

namespace FileTree

/-! ## Names -/

/-- The text can be the name of a file. -/
structure IsName (name : String) : Prop where
  ne_empty : name ≠ ""
  no_slash : '/' ∉ name.toList
  no_nul : '\x00' ∉ name.toList
  ne_here : name ≠ "."
  ne_up : name ≠ ".."
  size : name.utf8ByteSize ≤ maxNameSize

instance (name : String) : Decidable (IsName name) :=
  decidable_of_iff (name ≠ "" ∧ '/' ∉ name.toList ∧ '\x00' ∉ name.toList ∧ name ≠ "." ∧
      name ≠ ".." ∧ name.utf8ByteSize ≤ maxNameSize)
    ⟨fun ⟨h₁, h₂, h₃, h₄, h₅, h₆⟩ => ⟨h₁, h₂, h₃, h₄, h₅, h₆⟩,
      fun ⟨h₁, h₂, h₃, h₄, h₅, h₆⟩ => ⟨h₁, h₂, h₃, h₄, h₅, h₆⟩⟩

/-- A tree as a file system has it. -/
inductive WellFormed : FileTree → Prop
  | file (content : ByteArray) : WellFormed (file content)
  | directory {entries : List (String × FileTree)} (distinct : (entries.map Prod.fst).Nodup)
      (names : ∀ e ∈ entries, IsName e.1) (below : ∀ e ∈ entries, WellFormed e.2) :
      WellFormed (directory entries)

/-- Induction over the entries of a directory: the first is a file or a directory with entries of its
own. -/
theorem entries_induction {motive : List (String × FileTree) → Prop} (nil : motive [])
    (file : ∀ name content entries, motive entries → motive ((name, file content) :: entries))
    (directory : ∀ name below entries, motive below → motive entries →
      motive ((name, directory below) :: entries)) : ∀ entries, motive entries
  | [] => nil
  | (name, .file content) :: entries =>
    file name content entries (entries_induction nil file directory entries)
  | (name, .directory below) :: entries =>
    directory name below entries (entries_induction nil file directory below)
      (entries_induction nil file directory entries)

/-! ## Look-ups -/

variable {entries : List (String × FileTree)} {t u leaf : FileTree} {name : String}
  {names : List String}

theorem lookup_eq_some_iff (h : (entries.map Prod.fst).Nodup) :
    entries.lookup name = some t ↔ (name, t) ∈ entries := by
  induction entries with
  | nil => simp
  | cons e entries ih =>
    obtain ⟨key, u⟩ := e
    obtain ⟨hkey, hrest⟩ := List.nodup_cons.1 h
    rw [List.lookup_cons, List.mem_cons, ← ih hrest]
    by_cases hname : name = key
    · subst hname
      have hnone : entries.lookup name = none := by
        rw [List.lookup_eq_none_iff]
        intro e he
        refine bne_iff_ne.2 fun heq => hkey ?_
        show name ∈ entries.map Prod.fst
        rw [heq]
        exact List.mem_map_of_mem he
      simp [hnone, eq_comm]
    · simp [hname, beq_eq_false_iff_ne.2 hname]

theorem get?_append (names below : List String) (t : FileTree) :
    t.get? (names ++ below) = (t.get? names).bind (get? below) := by
  induction names generalizing t with
  | nil => rfl
  | cons name names ih =>
    cases t with
    | file content => rfl
    | directory entries =>
      rw [List.cons_append, get?, get?, Option.bind_assoc]
      exact congrArg _ (funext ih)

theorem get?_directory_eq_some_iff (h : (entries.map Prod.fst).Nodup) :
    (directory entries).get? (name :: names) = some leaf ↔
      ∃ u, (name, u) ∈ entries ∧ u.get? names = some leaf := by
  rw [get?, Option.bind_eq_some_iff]
  simp only [lookup_eq_some_iff h]

theorem wellFormed_of_mem (h : WellFormed (directory entries)) (hmem : (name, t) ∈ entries) :
    IsName name ∧ WellFormed t := by
  cases h with
  | directory distinct names below => exact ⟨names _ hmem, below _ hmem⟩

theorem WellFormed.distinct (h : WellFormed (.directory entries)) :
    (entries.map Prod.fst).Nodup := by
  cases h with
  | directory distinct => exact distinct

theorem WellFormed.tail {e : String × FileTree}
    (h : WellFormed (.directory (e :: entries))) : WellFormed (.directory entries) := by
  cases h with
  | directory distinct names below =>
    exact .directory (List.nodup_cons.1 distinct).2 (fun _ he => names _ (List.mem_cons_of_mem _ he))
      fun _ he => below _ (List.mem_cons_of_mem _ he)

theorem WellFormed.of_get? (h : t.WellFormed) (hget : t.get? names = some u) : u.WellFormed := by
  induction names generalizing t with
  | nil => exact Option.some.inj hget ▸ h
  | cons name names ih =>
    cases t with
    | file content => cases hget
    | directory entries =>
      obtain ⟨child, hmem, hchild⟩ := (get?_directory_eq_some_iff h.distinct).1 hget
      exact ih (wellFormed_of_mem h hmem).2 hchild

theorem get?_cons_eq_some_iff {key : String}
    (h : WellFormed (directory ((key, u) :: entries))) :
    (directory ((key, u) :: entries)).get? (name :: names) = some leaf ↔
      name = key ∧ u.get? names = some leaf ∨
        (directory entries).get? (name :: names) = some leaf := by
  rw [get?_directory_eq_some_iff h.distinct, get?_directory_eq_some_iff h.tail.distinct]
  simp only [List.mem_cons, Prod.mk.injEq, or_and_right, exists_or, and_assoc, exists_and_left,
    exists_eq_left]

/-- The first name on the way to something in a directory is that of an entry. -/
theorem mem_keys_of_get? (h : (entries.map Prod.fst).Nodup)
    (hget : (directory entries).get? (name :: names) = some leaf) :
    name ∈ entries.map Prod.fst := by
  obtain ⟨u, hmem, -⟩ := (get?_directory_eq_some_iff h).1 hget
  exact List.mem_map_of_mem hmem

/-! ## Paths -/

/-- The path leads to this part of the tree. -/
def LeadsTo (t : FileTree) (path : String) (u : FileTree) : Prop :=
  ∃ names, t.locate? path = .ok (.inside names) ∧ t.get? names.reverse = some u

/-- The path behind a path, along names. -/
def joinAll (path : List Char) (names : List String) : List Char :=
  names.foldl (fun p name => Path.join p name.toList) path

variable {p : String} {path : List Char}

theorem IsName.toList_ne_nil (h : IsName name) : name.toList ≠ [] := by
  intro hnil
  exact h.ne_empty (String.toList_inj.1 hnil)

theorem IsName.isAbsolute (h : IsName name) : Path.isAbsolute name.toList = false := by
  rw [Path.isAbsolute, beq_eq_false_iff_ne]
  exact fun hhead => h.no_slash (List.mem_of_mem_head? hhead)

/-- A name is one more piece of a path. A path that ends in a slash has an empty piece there, which
counts for nothing. -/
theorem join_eq (hpath : path ≠ []) (hname : IsName name) :
    ∃ pieces, Text.splitAll '/' (Path.join path name.toList) = pieces ++ [name.toList] ∧
      (Text.splitAll '/' path = pieces ∨ Text.splitAll '/' path = pieces ++ [[]]) := by
  have hjoin : Path.join path name.toList =
      if path.getLast? = some '/' then path ++ name.toList else path ++ '/' :: name.toList := by
    rw [Path.join, if_neg]
    simp [hname.isAbsolute, hpath]
  have hlast := Text.splitAll_of_notMem hname.no_slash
  rw [hjoin]
  split
  · next hslash =>
    obtain ⟨front, rfl⟩ := List.getLast?_eq_some_iff.1 hslash
    refine ⟨Text.splitAll '/' front, ?_, .inr (Text.splitAll_append '/' front [])⟩
    rw [List.append_assoc, List.singleton_append, Text.splitAll_append, hlast]
  · exact ⟨_, by rw [Text.splitAll_append, hlast], .inl rfl⟩

theorem isAbsolute_join (hpath : path ≠ []) (hname : IsName name) :
    Path.isAbsolute (Path.join path name.toList) = Path.isAbsolute path := by
  have hhead (rest : List Char) : Path.isAbsolute (path ++ rest) = Path.isAbsolute path := by
    rw [Path.isAbsolute, List.head?_append_of_ne_nil _ hpath, Path.isAbsolute]
  rw [Path.join, if_neg (by simp [hname.isAbsolute, hpath])]
  split <;> exact hhead _

theorem join_ne_nil (hpath : path ≠ []) (hname : IsName name) :
    Path.join path name.toList ≠ [] := by
  rw [Path.join, if_neg (by simp [hname.isAbsolute, hpath])]
  split <;> simp [hpath]

/-- An empty piece leaves a place where it is. -/
theorem eq_of_step_nil {place place' : Place} (h : t.step place [] = .ok place') :
    place' = place := by
  cases place with
  | outside => exact (Except.ok.inj h).symm
  | inside names =>
    unfold step at h
    simp only [true_or, if_true] at h
    split at h
    · cases h
    · cases h
    · exact (Except.ok.inj h).symm

theorem step_name (hname : IsName name)
    (hget : t.get? names.reverse = some (directory entries))
    (hlookup : (entries.lookup name).isSome = true) :
    t.step (.inside names) name.toList = .ok (.inside (name :: names)) := by
  have hne (s : String) (h : name ≠ s) : name.toList ≠ s.toList := fun heq =>
    h (String.toList_inj.1 heq)
  have hhere : ¬(name.toList = [] ∨ name.toList = ['.']) :=
    not_or.2 ⟨hname.toList_ne_nil, hne "." hname.ne_here⟩
  have hup : name.toList ≠ ['.', '.'] := hne ".." hname.ne_up
  have hsize : ¬maxNameSize < name.utf8ByteSize := Nat.not_lt.2 hname.size
  simp only [step, String.ofList_toList, hget, if_neg hhere, if_neg hup, if_neg hsize,
    if_pos hlookup]

theorem walk_join (hpath : path ≠ []) (hname : IsName name)
    (hwalk : t.walk path (Text.splitAll '/' path) = .ok (.inside names))
    (hget : t.get? names.reverse = some (directory entries))
    (hlookup : (entries.lookup name).isSome = true) :
    t.walk (Path.join path name.toList) (Text.splitAll '/' (Path.join path name.toList)) =
      .ok (.inside (name :: names)) := by
  obtain ⟨pieces, hpieces, hold⟩ := join_eq hpath hname
  have hfront : t.walk path pieces = .ok (.inside names) := by
    rcases hold with hold | hold
    · rwa [hold] at hwalk
    · rw [hold, walk, List.foldlM_append] at hwalk
      -- the empty piece is read at the place that the others lead to
      cases hplace : pieces.foldlM (step t)
          (if Path.isAbsolute path then .outside else .inside []) with
      | error e =>
        rw [hplace] at hwalk
        cases hwalk
      | ok place =>
        rw [hplace] at hwalk
        have hstep : t.step place [] = .ok (.inside names) := (bind_pure _).symm.trans hwalk
        rw [walk, hplace, eq_of_step_nil hstep]
  rw [walk, isAbsolute_join hpath hname, hpieces, List.foldlM_append]
  rw [walk] at hfront
  rw [hfront]
  exact (bind_pure _).trans (step_name hname hget hlookup)

/-- The names of what is below a directory lead to it, behind a path of the directory. -/
theorem walk_joinAll {below : List String} {current : FileTree} (hpath : path ≠ [])
    (hwalk : t.walk path (Text.splitAll '/' path) = .ok (.inside names))
    (hcurrent : t.get? names.reverse = some current) (hwf : current.WellFormed)
    (hleaf : current.get? below = some leaf) :
    ∃ names', t.walk (joinAll path below) (Text.splitAll '/' (joinAll path below)) =
        .ok (.inside names') ∧ t.get? names'.reverse = some leaf := by
  -- each name is put behind the path and in front of the names so far
  induction below generalizing path names current with
  | nil => exact ⟨names, hwalk, by rw [hcurrent, ← hleaf]; rfl⟩
  | cons name below ih =>
    cases current with
    | file content => cases hleaf
    | directory entries =>
      obtain ⟨child, hmem, hleaf⟩ := (get?_directory_eq_some_iff hwf.distinct).1 hleaf
      obtain ⟨hname, hchild⟩ := wellFormed_of_mem hwf hmem
      have hlookup := (lookup_eq_some_iff hwf.distinct).2 hmem
      have hstep := walk_join hpath hname hwalk hcurrent (by rw [hlookup]; rfl)
      have hget : t.get? (name :: names).reverse = some child := by
        rw [List.reverse_cons, get?_append, hcurrent, Option.bind_some, get?, hlookup]
        rfl
      exact ih (join_ne_nil hpath hname) hstep hget hchild hleaf

theorem LeadsTo.read_file {content : ByteArray} (h : t.LeadsTo p (file content)) :
    t.read p = .ok content := by
  obtain ⟨names, hlocate, hget⟩ := h
  simp only [read, hlocate, bind, Except.bind, hget]

theorem LeadsTo.isFile_directory (h : t.LeadsTo p (directory entries)) : t.isFile p = false := by
  obtain ⟨names, hlocate, hget⟩ := h
  simp only [isFile, read, hlocate, bind, Except.bind, hget]
  rfl

theorem LeadsTo.list_directory (h : t.LeadsTo p (directory entries)) :
    t.list p = entriesToListing entries := by
  obtain ⟨names, hlocate, hget⟩ := h
  simp only [list, hlocate, hget]

theorem LeadsTo.wellFormed (h : t.LeadsTo p u) (hwf : t.WellFormed) : u.WellFormed := by
  obtain ⟨names, -, hget⟩ := h
  exact hwf.of_get? hget

/-- What is below a directory is found at the path that leads to it. -/
theorem LeadsTo.joinAll {below : List String} (h : t.LeadsTo p u) (hwf : u.WellFormed)
    (hleaf : u.get? below = some leaf)
    (hpath : FileError.ofPath? (String.ofList (joinAll p.toList below)) = none) :
    t.LeadsTo (String.ofList (joinAll p.toList below)) leaf := by
  obtain ⟨names, hlocate, hget⟩ := h
  have htop : FileError.ofPath? p = none := by
    cases h : FileError.ofPath? p with
    | none => rfl
    | some e =>
      rw [locate?, h] at hlocate
      cases hlocate
  have hne : p.toList ≠ [] := by
    intro hnil
    have hempty : p = "" := String.toList_inj.1 hnil
    rw [hempty] at htop
    cases htop
  rw [locate?, htop] at hlocate
  obtain ⟨names', hwalk, hget'⟩ := walk_joinAll hne hlocate hget hwf hleaf
  refine ⟨names', ?_, hget'⟩
  rw [locate?, hpath, String.toList_ofList]
  exact hwalk

end FileTree

end Treatise
