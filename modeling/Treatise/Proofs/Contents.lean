import Treatise.Proofs.Numbering.Counting
import Treatise.Proofs.Tree.Forest

/-!
# Entries of a table of contents

A table of contents as a map from paths of segments to titles.

* **`titleAt?_insertAt`** — an insertion is seen at its own path and nowhere else.
* **`titleAt?_foldl_note`** — after given numbers were noted, the title of each section stands at
  its path, as no later section has the same number.
* **`exists_titled_of_link`**, **`exists_section_of_titled`** — every link of the table goes to an
  entry with a title, and every such entry is that of a section.
-/

namespace Treatise

/-- Nodes of this kind are rendered as links. -/
def Tag.isLink : Tag → Bool
  | link | citation | span .referenceNumber => true
  | _ => false

namespace Contents

/-! ## Insertions -/

/-- What an insertion does to the entry at the first segment, given the segments behind it. -/
def entitle (title : String) (path : List String) (e : ContentsEntry) : ContentsEntry :=
  if path = [] then { e with title := some title }
  else { e with entries := insertAt title path e.entries }

theorem segment_entitle (title : String) (path : List String) (e : ContentsEntry) :
    (entitle title path e).segment = e.segment := by
  unfold entitle
  split <;> rfl

theorem insertAt_cons (title segment : String) (path : List String) (es : Contents) :
    insertAt title (segment :: path) es = modifyEntry segment (entitle title path) es := by
  unfold entitle
  cases path <;> simp [insertAt]

/-- The title of the entry at a path. -/
def titleAt? : (path : List String) → Contents → Option String
  | [], _ => none
  | segment :: path, es =>
    (es.find? (·.segment = segment)).bind fun e =>
      if path = [] then e.title else titleAt? path e.entries

variable {segment : String} {f : ContentsEntry → ContentsEntry} {es : Contents}

/-- The entry that is changed: the first with its segment, or a new one. -/
theorem find?_modifyEntry_self (hf : ∀ e, (f e).segment = e.segment) :
    (modifyEntry segment f es).find? (·.segment = segment) =
      some (f ((es.find? (·.segment = segment)).getD ⟨segment, none, []⟩)) := by
  induction es with
  | nil => simp [modifyEntry, hf]
  | cons e es ih =>
    unfold modifyEntry
    by_cases he : e.segment = segment
    · simp [he, hf]
    · simp [he, ih]

theorem find?_modifyEntry_of_ne (hf : ∀ e, (f e).segment = e.segment) {other : String}
    (hother : other ≠ segment) :
    (modifyEntry segment f es).find? (·.segment = other) = es.find? (·.segment = other) := by
  induction es with
  | nil => simp [modifyEntry, hf, Ne.symm hother]
  | cons e es ih =>
    unfold modifyEntry
    by_cases he : e.segment = segment
    · simp [he, hf, Ne.symm hother]
    · simp [he, List.find?_cons, ih]

theorem titleAt?_nil (path : List String) : titleAt? path [] = none := by
  cases path <;> rfl

/-- An insertion is seen at its own path and nowhere else. -/
theorem titleAt?_insertAt (title : String) {path : List String} (hpath : path ≠ [])
    (query : List String) (es : Contents) :
    titleAt? query (insertAt title path es) =
      if query = path then some title else titleAt? query es := by
  induction path generalizing query es with
  | nil => exact absurd rfl hpath
  | cons segment path ih =>
    cases query with
    | nil => rfl
    | cons first query =>
      rw [insertAt_cons, titleAt?, titleAt?]
      by_cases hfirst : first = segment
      · -- the query follows the path down, as long as neither ends
        subst hfirst
        rw [find?_modifyEntry_self (segment_entitle title path), Option.bind_some, entitle]
        by_cases hnil : path = []
        · subst hnil
          cases query with
          | nil => simp
          | cons second query => cases es.find? (·.segment = first) <;> simp [titleAt?_nil]
        · cases query with
          | nil => cases es.find? (·.segment = first) <;> simp [hnil, Ne.symm hnil]
          | cons second query =>
            cases es.find? (·.segment = first) <;> simp [hnil, ih hnil, titleAt?_nil]
      · rw [find?_modifyEntry_of_ne (segment_entitle title path) hfirst, if_neg (by simp [hfirst])]

/-! ## Given numbers -/

/-- Gives the entry of a section its title. -/
def note (c : Contents) : GivenNumber → Contents
  | .section cs title => c.insert (dotted cs) title
  | .statement _ _ => c

end Contents

theorem Numbering.contents_foldl_pass (o : NumberingOptions) (s : Numbering)
    (ls : List Landmark) :
    (ls.foldl (pass o) s).contents = (given o s ls).foldl Contents.note s.contents := by
  induction ls generalizing s with
  | nil => rfl
  | cons l ls ih =>
    rw [List.foldl_cons, ih, given, List.foldl_cons]
    cases l <;> rfl

/-- A section number has a component. -/
theorem Numbering.ne_nil_of_section_mem_given {o : NumberingOptions} {s : Numbering}
    {ls : List Landmark} {cs : List Nat} {title : String}
    (h : .section cs title ∈ given o s ls) : cs ≠ [] := by
  rintro rfl
  exact List.not_lt_nil _ (lt_of_section_mem_given h)

namespace Contents

theorem titleAt?_note_section {cs ds : List Nat} (hds : ds ≠ []) (title : String) (c : Contents) :
    titleAt? (cs.map Nat.repr) (c.note (.section ds title)) =
      if cs = ds then some title else titleAt? (cs.map Nat.repr) c := by
  rw [note, Contents.insert, segments_dotted hds, titleAt?_insertAt title (by simpa using hds)]
  simp only [List.map_inj_right (fun _ _ => repr_injective)]

/-- Noting other sections does not change the title of a section. -/
theorem titleAt?_foldl_note_of_ne {cs : List Nat} {gs : List GivenNumber}
    (hgs : ∀ ds title, .section ds title ∈ gs → ds ≠ [] ∧ cs ≠ ds) (c : Contents) :
    titleAt? (cs.map Nat.repr) (gs.foldl note c) = titleAt? (cs.map Nat.repr) c := by
  induction gs generalizing c with
  | nil => rfl
  | cons g gs ih =>
    rw [List.foldl_cons, ih fun ds title h => hgs ds title (List.mem_cons_of_mem g h)]
    cases g with
    | statement kind number => rfl
    | «section» ds title =>
      obtain ⟨hnil, hne⟩ := hgs ds title List.mem_cons_self
      rw [titleAt?_note_section hnil, if_neg hne]

/-- After given numbers were noted, the title of each section stands at its path. -/
theorem titleAt?_foldl_note {o : NumberingOptions} {s : Numbering} {ls : List Landmark}
    {cs : List Nat} {title : String} (h : .section cs title ∈ Numbering.given o s ls)
    (c : Contents) :
    titleAt? (cs.map Nat.repr) ((Numbering.given o s ls).foldl note c) = some title := by
  have hnil : ∀ ds title, .section ds title ∈ Numbering.given o s ls → ds ≠ [] :=
    fun _ _ => Numbering.ne_nil_of_section_mem_given
  have hapart := Numbering.pairwise_given o s ls
  -- the induction is on the given numbers, of which no more is needed than these facts
  revert h hnil hapart
  generalize Numbering.given o s ls = gs
  intro h hnil hapart
  induction gs generalizing c with
  | nil => simp at h
  | cons g gs ih =>
    rw [List.pairwise_cons] at hapart
    rcases List.mem_cons.1 h with rfl | h
    · -- the numbers behind the section are greater, so none of them is noted over it
      rw [List.foldl_cons, titleAt?_foldl_note_of_ne, titleAt?_note_section, if_pos rfl]
      · exact hnil cs title h
      · intro ds title' hds
        refine ⟨hnil ds title' (List.mem_cons_of_mem _ hds), ?_⟩
        rintro rfl
        exact List.lt_irrefl _ (hapart.1 _ hds)
    · exact ih _ h (fun ds title' hds => hnil ds title' (List.mem_cons_of_mem g hds)) hapart.2

/-! ## Links -/

/-- A path leads to an entry with a title. -/
inductive Titled : List String → Contents → Prop
  | here {e es} (mem : e ∈ es) (title : e.title.isSome = true) : Titled [e.segment] es
  | inside {e es path} (mem : e ∈ es) (titled : Titled path e.entries) :
      Titled (e.segment :: path) es

theorem not_titled_nil (path : List String) : ¬ Titled path [] := by
  intro h
  cases h with
  | here mem => cases mem
  | inside mem => cases mem

theorem mem_modifyEntry {segment : String} {f : ContentsEntry → ContentsEntry} {es : Contents}
    {e : ContentsEntry} (h : e ∈ modifyEntry segment f es) :
    e ∈ es ∨ ∃ d, (d ∈ es ∨ d.title = none ∧ d.entries = []) ∧ d.segment = segment ∧
      e = f d := by
  induction es with
  | nil => exact .inr ⟨_, .inr ⟨rfl, rfl⟩, rfl, List.mem_singleton.1 h⟩
  | cons d es ih =>
    unfold modifyEntry at h
    split at h
    · next hd =>
      rcases List.mem_cons.1 h with rfl | h
      · exact .inr ⟨d, .inl List.mem_cons_self, hd, rfl⟩
      · exact .inl (List.mem_cons_of_mem d h)
    · rcases List.mem_cons.1 h with rfl | h
      · exact .inl List.mem_cons_self
      · rcases ih h with h | ⟨d', hd', hsegment, rfl⟩
        · exact .inl (List.mem_cons_of_mem d h)
        · exact .inr ⟨d', hd'.imp_left (List.mem_cons_of_mem d), hsegment, rfl⟩

/-- An insertion gives a title to no other path than its own. -/
theorem eq_or_titled_of_insertAt {title : String} {path query : List String} {es : Contents}
    (h : Titled query (insertAt title path es)) : query = path ∨ Titled query es := by
  induction path generalizing query es with
  | nil => exact .inr h
  | cons segment path ih =>
    rw [insertAt_cons] at h
    cases h with
    | @here e _ mem htitle =>
      rcases mem_modifyEntry mem with hmem | ⟨d, hd, rfl, rfl⟩
      · exact .inr (.here hmem htitle)
      · -- the entry that was changed had its title before, unless the path ends here
        rw [segment_entitle]
        by_cases hnil : path = []
        · exact .inl (by rw [hnil])
        · rw [entitle, if_neg hnil] at htitle
          rcases hd with hd | ⟨hnone, -⟩
          · exact .inr (.here hd htitle)
          · exact absurd htitle (by simp [hnone])
    | @inside e _ query mem hbehind =>
      rcases mem_modifyEntry mem with hmem | ⟨d, hd, rfl, rfl⟩
      · exact .inr (.inside hmem hbehind)
      · -- the path goes on below an entry that was there, or below a new one, which is empty
        rw [segment_entitle]
        have hbelow : query = path ∨ Titled query d.entries := by
          by_cases hnil : path = []
          · rw [entitle, if_pos hnil] at hbehind
            exact .inr hbehind
          · rw [entitle, if_neg hnil] at hbehind
            exact ih hbehind
        rcases hbelow with rfl | hbelow
        · exact .inl rfl
        · rcases hd with hd | ⟨-, hnone⟩
          · exact .inr (.inside hd hbelow)
          · rw [hnone] at hbelow
            exact absurd hbelow (not_titled_nil query)

/-- Every entry with a title is that of a section. -/
theorem exists_section_of_titled {gs : List GivenNumber}
    (hgs : ∀ cs title, .section cs title ∈ gs → cs ≠ []) {c : Contents} {path : List String}
    (h : Titled path (gs.foldl note c)) :
    Titled path c ∨ ∃ cs title, .section cs title ∈ gs ∧ path = cs.map Nat.repr := by
  induction gs generalizing c with
  | nil => exact .inl h
  | cons g gs ih =>
    have hlater : ∀ cs title, .section cs title ∈ gs → cs ≠ [] :=
      fun cs title hcs => hgs cs title (List.mem_cons_of_mem g hcs)
    rcases ih hlater h with h | ⟨cs, title, hcs, hpath⟩
    · cases g with
      | statement kind number => exact .inl h
      | «section» cs title =>
        have hnil : cs ≠ [] := hgs cs title List.mem_cons_self
        rw [note, Contents.insert, segments_dotted hnil] at h
        rcases eq_or_titled_of_insertAt h with hpath | h
        · exact .inr ⟨cs, title, List.mem_cons_self, hpath⟩
        · exact .inl h
    · exact .inr ⟨cs, title, List.mem_cons_of_mem g hcs, hpath⟩

/-- Induction over tables of contents, as over forests. -/
@[elab_as_elim]
theorem entry_induction {motive : Contents → Prop} (es : Contents) (nil : motive [])
    (cons : ∀ e es, motive e.entries → motive es → motive (e :: es)) : motive es :=
  @ContentsEntry.rec_1 (fun e => motive e.entries) motive (fun _ _ _ ih => ih) nil cons es

/-- Links among items that are put into a list are links of the items. -/
theorem mem_of_mem_listNodes {items : List Node} {n : Node}
    (h : n ∈ Node.descendantsOf (listNodes items)) (htag : n.tag.isLink = true) :
    n ∈ Node.descendantsOf items := by
  unfold listNodes at h
  split at h
  · exact absurd h List.not_mem_nil
  · rw [Node.descendantsOf_cons, Node.descendantsOf_nil, List.append_nil, List.mem_cons] at h
    rcases h with rfl | h
    · exact absurd htag Bool.false_ne_true
    · exact h

/-- Every link goes to an entry with a title. -/
theorem exists_titled_of_link {above : String} {es : Contents} {n : Node}
    (h : n ∈ Node.descendantsOf (itemNodes above es)) (htag : n.tag.isLink = true) :
    n.tag = .link ∧ ∃ path, Titled path es ∧
      n.attr? "href" = some ("#sec" ++ path.foldl joinNumber above) := by
  induction es using entry_induction generalizing above with
  | nil => exact absurd h List.not_mem_nil
  | cons e es below behind =>
    obtain ⟨segment, title, entries⟩ := e
    rw [itemNodes, Node.descendantsOf_cons, List.mem_cons, List.mem_append, itemNode,
      Node.descendantsOf_append, List.mem_append] at h
    rcases h with rfl | (h | h) | h
    · exact absurd htag Bool.false_ne_true
    · cases title with
      | none => exact absurd h List.not_mem_nil
      | some title =>
        rcases List.mem_cons.1 h with rfl | h
        · refine ⟨rfl, [segment],
            .here (e := ⟨segment, some title, entries⟩) List.mem_cons_self rfl, ?_⟩
          simp [linkNode, Node.setAttr, Node.attr?]
        · -- below the link are its words only
          rcases List.mem_cons.1 h with rfl | h
          · exact absurd htag Bool.false_ne_true
          · rw [List.mem_singleton.1 h] at htag
            exact absurd htag Bool.false_ne_true
    · -- the entries inside carry on the number of this one
      obtain ⟨hlink, path, hpath, hhref⟩ := below (mem_of_mem_listNodes h htag)
      exact ⟨hlink, segment :: path,
        .inside (e := ⟨segment, title, entries⟩) List.mem_cons_self hpath, hhref⟩
    · obtain ⟨hlink, path, hpath, hhref⟩ := behind h
      refine ⟨hlink, path, ?_, hhref⟩
      cases hpath with
      | here mem title => exact .here (List.mem_cons_of_mem _ mem) title
      | inside mem titled => exact .inside (List.mem_cons_of_mem _ mem) titled

theorem joinNumber_dotted {cs : List Nat} (h : cs ≠ []) (n : Nat) :
    joinNumber (dotted cs) (Nat.repr n) = dotted (cs ++ [n]) := by
  have hempty : (dotted cs).isEmpty = false := by
    rw [Bool.eq_false_iff, Ne, String.isEmpty_iff, dotted_eq_empty_iff]
    exact h
  rw [joinNumber, hempty, dotted_concat h]
  rfl

/-- The path of a section joins to its number. -/
theorem foldl_joinNumber {cs : List Nat} (h : cs ≠ []) :
    (cs.map Nat.repr).foldl joinNumber "" = dotted cs := by
  -- the number so far has to have a component, as nothing goes in front of the first dot
  have hstep (ds : List Nat) (hds : ds ≠ []) (cs : List Nat) :
      (cs.map Nat.repr).foldl joinNumber (dotted ds) = dotted (ds ++ cs) := by
    induction cs generalizing ds with
    | nil => simp
    | cons n cs ih => simp [joinNumber_dotted hds, ih (ds ++ [n]) (by simp)]
  cases cs with
  | nil => exact absurd rfl h
  | cons n cs =>
    have hfirst : joinNumber "" (Nat.repr n) = dotted [n] := (dotted_singleton n).symm
    rw [List.map_cons, List.foldl_cons, hfirst, hstep [n] (List.cons_ne_nil n []),
      List.singleton_append]

end Contents

end Treatise
