import Treatise.Proofs.Numbering.Shown

/-!
# Titles with references

The title of a heading is read before its references are resolved. Read again afterwards, it has the
numbers of these references in it.

* **`dotted_of_get?_labels`** — what a reference to a known label shows is a dotted number.
* **`headingTitle_resolveNode_iff`** — resolving leaves the title of a heading as it is if, and only
  if, every reference in the heading shows nothing. Titles are trimmed, but no number has a blank in
  it, so the characters that are no blanks (`Text.ink`) tell titles apart.
-/

namespace Treatise

open Node (Fresh AllOf descendantsOf textContentOf titleWords)

/-! ## Ink -/

/-- How many characters of a text are no blanks. -/
def Text.ink (s : String) : Nat := s.toList.countP (!isBlank ·)

namespace Text

@[simp] theorem ink_empty : ink "" = 0 := rfl

@[simp] theorem ink_append (s t : String) : ink (s ++ t) = ink s + ink t := by
  simp [ink]

theorem countP_dropWhile_isBlank (s : List Char) :
    (s.dropWhile isBlank).countP (!isBlank ·) = s.countP (!isBlank ·) := by
  induction s with
  | nil => rfl
  | cons c s ih => by_cases hc : isBlank c = true <;> simp [hc, ih]

theorem ink_trimString (s : String) : ink (trimString s) = ink s := by
  simp only [ink, trimString, trim, trimEnd, trimStart, String.toList_ofList, List.countP_reverse,
    countP_dropWhile_isBlank]

theorem ink_pos {s : String} {c : Char} (h : c ∈ s.toList) (hc : isBlank c = false) : 0 < ink s :=
  List.countP_pos_iff.2 ⟨c, h, by simp [hc]⟩

/-- No digit and no dot is a blank. -/
theorem isBlank_eq_false_of_isDigit_or_dot {c : Char} (h : c.isDigit = true ∨ c = '.') :
    isBlank c = false := by
  rcases h with h | rfl
  · have hrange : 48 ≤ c.toNat ∧ c.toNat ≤ 57 := by
      simp only [Char.isDigit, Bool.and_eq_true, decide_eq_true_eq, UInt32.le_iff_toNat_le] at h
      exact h
    rw [← Bool.not_eq_true]
    intro hblank
    simp only [isBlank, Bool.or_eq_true, Bool.and_eq_true, decide_eq_true_eq, beq_iff_eq] at hblank
    omega
  · decide

end Text

/-- A dotted number without ink is empty. -/
theorem dotted_eq_empty_of_ink {cs : List Nat} (h : Text.ink (dotted cs) = 0) : dotted cs = "" := by
  by_contra hne
  obtain ⟨c, hc⟩ : ∃ c, c ∈ (dotted cs).toList := by
    refine List.exists_mem_of_ne_nil _ fun hnil => hne ?_
    rw [← String.toList_inj, hnil]
    rfl
  -- digits and dots are no blanks, so any character would have ink
  have hblank := Text.isBlank_eq_false_of_isDigit_or_dot (isDigit_or_dot_of_mem_dotted hc)
  exact absurd h (Nat.ne_of_gt (Text.ink_pos hc hblank))

/-! ## What references show -/

/-- The number that a target shows is dotted. -/
def Target.IsDotted (t : Target) : Prop := ∃ cs, t.number = dotted cs

theorem isDotted_labelTarget {enclosing : List (Option Target)}
    (h : ∀ t, some t ∈ enclosing → t.IsDotted) (s : Numbering) :
    (s.labelTarget enclosing).IsDotted := by
  unfold Numbering.labelTarget
  split
  · next target htarget =>
    obtain ⟨t, ht, rfl⟩ := List.exists_of_findSome?_eq_some htarget
    exact h target ht
  · exact ⟨s.components, rfl⟩

/-- Numbering records only targets with dotted numbers. -/
theorem isDotted_of_numbers {o : NumberingOptions} {enclosing : List (Option Target)}
    {s s' : Numbering} {ns ms : List Node} (h : Numbers o enclosing s ns ms s')
    (henclosing : ∀ t, some t ∈ enclosing → t.IsDotted)
    (hs : ∀ key t, s.labels.get? key = some t → t.IsDotted) :
    ∀ key t, s'.labels.get? key = some t → t.IsDotted := by
  induction h with
  | nil => exact hs
  | heading _ _ _ below behind => exact behind henclosing (below henclosing hs)
  | numbered _ _ _ _ _ below behind =>
    -- inside the statement its own target is one more that labels may get
    refine behind henclosing (below ?_ hs)
    intro t ht
    rcases List.mem_cons.1 ht with ht | ht
    · cases ht
      exact ⟨_, rfl⟩
    · exact henclosing t ht
  | unnumbered _ _ _ _ _ below behind =>
    refine behind henclosing (below ?_ hs)
    intro t ht
    exact henclosing t (by simpa using ht)
  | place _ _ behind => exact behind henclosing hs
  | @label enclosing s _ n _ _ _ _ behind =>
    refine behind henclosing fun key t hkey => ?_
    unfold Numbering.recordLabel at hkey
    split at hkey
    · rw [Dict.get?_insert] at hkey
      split at hkey
      · cases hkey
        exact isDotted_labelTarget henclosing s
      · exact hs key t hkey
    · exact hs key t hkey
  | «section» _ _ _ below behind => exact behind henclosing (below henclosing hs)
  | plain _ _ _ below behind => exact behind henclosing (below henclosing hs)

/-- What a reference shows is empty or has ink. -/
theorem text_numberSpan_eq_empty {labels : Dict Target}
    (hlabels : ∀ key t, labels.get? key = some t → t.IsDotted) {key : String}
    (h : Text.ink (numberSpan (labels.get? key)).text = 0) :
    (numberSpan (labels.get? key)).text = "" := by
  cases hkey : labels.get? key with
  | none =>
    rw [hkey] at h
    exact absurd h (by decide)
  | some t =>
    rw [hkey] at h
    obtain ⟨cs, hcs⟩ := hlabels key t hkey
    rw [show (numberSpan (some t)).text = t.number from rfl, hcs] at h ⊢
    exact dotted_eq_empty_of_ink h

/-! ## The words of resolved nodes -/

section Words

variable (labels : Dict Target) (fileId : Nat)

/-- How many characters the references among nodes show that are no blanks. -/
def referenceInk (ns : List Node) : Nat :=
  (((descendantsOf ns).filter (·.tag = .reference)).flatMap
    fun m => (numberSpan (labels.get? m.key)).text.toList).countP (!Text.isBlank ·)

theorem referenceInk_cons (n : Node) (ns : List Node) :
    referenceInk labels (n :: ns) =
      (if n.tag = .reference then Text.ink (numberSpan (labels.get? n.key)).text else 0) +
        (referenceInk labels n.children + referenceInk labels ns) := by
  by_cases h : n.tag = .reference <;> simp [referenceInk, Text.ink, h]

theorem textContentOf_cons (n : Node) (ns : List Node) :
    textContentOf (n :: ns) = n.text ++ textContentOf n.children ++ n.tail ++ textContentOf ns := by
  rw [textContentOf, Node.textContent_eq]

/-- A fresh reference, once it is resolved, has only what it refers to below it. -/
theorem children_resolveNode_reference {n : Node} (hn : Fresh n) (h : n.tag = .reference) :
    (resolveNode labels fileId n).1.children = [numberSpan (labels.get? n.key)] := by
  have hnil : n.children = [] := hn.leaf (by rw [h]; rfl)
  rw [resolveNode_reference h, resolveReference, hnil]
  rfl

/-- Resolving the references of fresh nodes adds what the references show. -/
theorem ink_textContentOf_resolveNodes {ns : List Node} (hfresh : AllOf Fresh ns) :
    Text.ink (textContentOf (resolveNodes labels fileId ns).1) =
      Text.ink (textContentOf ns) + referenceInk labels ns := by
  induction ns using Node.forest_induction with
  | nil => rfl
  | cons n ns below behind =>
    rw [Node.allOf_cons] at hfresh
    obtain ⟨hn, hchildren, hns⟩ := hfresh
    rw [resolveNodes_cons, textContentOf_cons, textContentOf_cons, referenceInk_cons,
      text_resolveNode, tail_resolveNode]
    simp only [Text.ink_append, behind hns]
    by_cases href : n.tag = .reference
    · have hnil : n.children = [] := hn.leaf (by rw [href]; rfl)
      rw [children_resolveNode_reference labels fileId hn href, hnil, if_pos href,
        textContentOf_cons, children_numberSpan]
      simp only [Text.ink_append, tail_numberSpan, textContentOf, Text.ink_empty]
      rw [show referenceInk labels [] = 0 from rfl]
      omega
    · rw [children_resolveNode_of_ne href, below hchildren, if_neg href]
      omega

/-- References that show nothing leave the words as they are. -/
theorem textContentOf_resolveNodes {ns : List Node} (hfresh : AllOf Fresh ns)
    (h : ∀ m ∈ descendantsOf ns, m.tag = .reference →
      (numberSpan (labels.get? m.key)).text = "") :
    textContentOf (resolveNodes labels fileId ns).1 = textContentOf ns := by
  induction ns using Node.forest_induction with
  | nil => rfl
  | cons n ns below behind =>
    rw [Node.allOf_cons] at hfresh
    obtain ⟨hn, hchildren, hns⟩ := hfresh
    have hbelow := below hchildren fun m hm => h m (by simp [hm])
    have hbehind := behind hns fun m hm => h m (by simp [hm])
    rw [resolveNodes_cons, textContentOf_cons, textContentOf_cons, text_resolveNode,
      tail_resolveNode, hbehind]
    by_cases href : n.tag = .reference
    · have hnil : n.children = [] := hn.leaf (by rw [href]; rfl)
      have hempty := h n (by simp) href
      rw [children_resolveNode_reference labels fileId hn href, hnil, textContentOf_cons,
        children_numberSpan, hempty, tail_numberSpan]
      rfl
    · rw [children_resolveNode_of_ne href, hbelow]

/-- The words of a heading that holds no number in front are all its words. -/
theorem titleWords_eq {ns : List Node} (h : ∀ c ∈ ns, c.tag.isInline = true) :
    titleWords ns = textContentOf ns := by
  induction ns with
  | nil => rfl
  | cons n ns ih =>
    have hrole : n.hasRole .sectionNumber = false := by
      have hinline := h n List.mem_cons_self
      rw [Node.hasRole, beq_eq_false_iff_ne]
      intro htag
      rw [htag] at hinline
      exact absurd hinline Bool.false_ne_true
    rw [titleWords, hrole, ih fun c hc => h c (List.mem_cons_of_mem n hc)]
    rfl

/-- Resolving keeps running text. -/
theorem isInline_resolveNodes {ns : List Node} (h : ∀ c ∈ ns, c.tag.isInline = true) :
    ∀ c ∈ (resolveNodes labels fileId ns).1, c.tag.isInline = true := by
  intro c hc
  rw [fst_resolveNodes] at hc
  obtain ⟨m, hm, rfl⟩ := List.mem_map.1 hc
  rw [tag_resolveNode]
  exact h m hm

/-- Resolving leaves the title of a heading as it is if, and only if, every reference in it shows
nothing. -/
theorem headingTitle_resolveNode_iff
    (hlabels : ∀ key t, labels.get? key = some t → t.IsDotted) {n : Node} (hn : Fresh n)
    (hchildren : AllOf Fresh n.children) {level : Nat} (hlevel : n.tag = .heading level) :
    (resolveNode labels fileId n).1.headingTitle = n.headingTitle ↔
      ∀ m ∈ n.descendants, m.tag = .reference → (numberSpan (labels.get? m.key)).text = "" := by
  have hinline : ∀ c ∈ n.children, c.tag.isInline = true := hn.inline (by rw [hlevel]; rfl)
  rw [Node.headingTitle, Node.headingTitle, text_resolveNode,
    children_resolveNode_of_ne (by simp [hlevel]), titleWords_eq hinline,
    titleWords_eq (isInline_resolveNodes labels fileId hinline), Node.descendants_eq]
  constructor
  · intro htitle m hm href
    -- both titles are trimmed, which takes no ink off them
    have hink := congrArg Text.ink htitle
    rw [Text.ink_trimString, Text.ink_trimString, Text.ink_append, Text.ink_append,
      ink_textContentOf_resolveNodes labels fileId hchildren] at hink
    have hzero : referenceInk labels n.children = 0 := by omega
    have hshown := List.countP_eq_zero.1 hzero
    refine text_numberSpan_eq_empty hlabels (List.countP_eq_zero.2 fun c hc => hshown c ?_)
    exact List.mem_flatMap.2 ⟨m, List.mem_filter.2 ⟨hm, by simp [href]⟩, hc⟩
  · intro h
    rw [textContentOf_resolveNodes labels fileId hchildren h]

end Words

end Treatise
