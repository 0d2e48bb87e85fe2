import Mathlib.Data.List.Basic
import Treatise.Proofs.Render.Elements

/-!
# Fragments of HTML as text

What a well-formed piece of HTML is as a sequence of characters, without a look at how it came about.

* **`Html.Fragment`** — the grammar: text, void elements, and start and end tags that match, where
  text and attribute values hold special characters only as entities.
* **`Html.readBrackets`** — the tags in a text, as anyone finds them who looks for angle brackets and
  for nothing else. `Html.Fragment.readBrackets_eq` says that in a fragment these are the tags of the
  grammar, so that no text or value is taken for a tag.
* **`Html.fragment_printAll`** — a tree of elements is printed as a fragment.
-/

namespace Treatise

namespace Html

/-! ## Escaped text -/

/-- Text without the reserved characters, in which every `&` begins one of the entities. -/
inductive Escaped (reserved : List Char) (entities : List String) : List Char → Prop
  | nil : Escaped reserved entities []
  | char {c s} (free : c ∉ '&' :: reserved) (rest : Escaped reserved entities s) :
      Escaped reserved entities (c :: s)
  | entity {e s} (mem : e ∈ entities) (rest : Escaped reserved entities s) :
      Escaped reserved entities (e.toList ++ s)

/-- Text between tags. -/
abbrev IsText : List Char → Prop := Escaped ['<', '>'] ["&amp;", "&lt;", "&gt;"]

/-- The value of an attribute, without its quotation marks. -/
abbrev IsValue : List Char → Prop := Escaped ['"', '<', '>'] ["&amp;", "&lt;", "&gt;", "&quot;"]

section Escaped

variable {reserved : List Char} {entities : List String} {s : List Char}

/-- A reserved character that is in no entity does not occur. -/
theorem Escaped.notMem (h : Escaped reserved entities s) {c : Char} (hc : c ∈ '&' :: reserved)
    (hentities : ∀ e ∈ entities, c ∉ e.toList) : c ∉ s := by
  induction h with
  | nil => exact List.not_mem_nil
  | char free rest ih =>
    rw [List.mem_cons, not_or]
    exact ⟨fun heq => free (heq ▸ hc), ih⟩
  | entity mem rest ih =>
    rw [List.mem_append, not_or]
    exact ⟨hentities _ mem, ih⟩

/-- Escaping character by character gives escaped text, if each character stays as it is or becomes
an entity. -/
theorem escaped_flatMap {f : Char → List Char}
    (hf : ∀ c, (c ∉ '&' :: reserved ∧ f c = [c]) ∨ ∃ e ∈ entities, f c = e.toList)
    (s : List Char) : Escaped reserved entities (s.flatMap f) := by
  induction s with
  | nil => exact .nil
  | cons c s ih =>
    rw [List.flatMap_cons]
    rcases hf c with ⟨hfree, hc⟩ | ⟨e, he, hc⟩
    · rw [hc]
      exact .char hfree ih
    · rw [hc]
      exact .entity he ih

end Escaped

/-- A character of a text stays as it is or becomes an entity. -/
theorem escapeTextChar_cases (c : Char) :
    (c ∉ ['&', '<', '>'] ∧ escapeTextChar c = [c]) ∨
      ∃ e ∈ ["&amp;", "&lt;", "&gt;"], escapeTextChar c = e.toList := by
  unfold escapeTextChar
  split
  · exact .inr ⟨"&amp;", by simp, rfl⟩
  · exact .inr ⟨"&lt;", by simp, rfl⟩
  · exact .inr ⟨"&gt;", by simp, rfl⟩
  · next hamp hlt hgt => exact .inl ⟨by simpa using ⟨hamp, hlt, hgt⟩, rfl⟩

theorem isText_escapeText (s : String) : IsText (escapeText s).toList := by
  rw [escapeText, String.toList_ofList]
  exact escaped_flatMap escapeTextChar_cases _

theorem isValue_escapeValue (s : String) : IsValue (escapeValue s).toList := by
  rw [escapeValue, String.toList_ofList]
  refine escaped_flatMap (fun c => ?_) _
  unfold escapeValueChar
  split
  · exact .inr ⟨"&quot;", by simp, rfl⟩
  · next hquot =>
    -- any other character is escaped as in a text
    rcases escapeTextChar_cases c with ⟨hfree, hc⟩ | ⟨e, he, hc⟩
    · refine .inl ⟨?_, hc⟩
      simp only [List.mem_cons, List.not_mem_nil, or_false, not_or] at hfree ⊢
      exact ⟨hfree.1, hquot, hfree.2⟩
    · exact .inr ⟨e, List.mem_append_left ["&quot;"] he, hc⟩

theorem IsText.lt_notMem {s : List Char} (h : IsText s) : '<' ∉ s :=
  h.notMem (by decide) (by decide)

theorem IsValue.gt_notMem {s : List Char} (h : IsValue s) : '>' ∉ s :=
  h.notMem (by decide) (by decide)

/-! ## Tags -/

/-- A character of a name. -/
def isNameChar (c : Char) : Bool := c.isLower || c.isDigit

/-- The name of an element or an attribute: small letters and digits, with a letter in front. -/
def isName (s : String) : Bool := s.toList.head?.any Char.isLower && s.toList.all isNameChar

/-- The names of elements without content or end tag. -/
def voidNames : List String := ["hr", "br", "img"]

/-- Attributes in a tag, each with a blank in front and its value in double quotes. -/
inductive AttributeList : List Char → Prop
  | nil : AttributeList []
  | cons {name : String} {value rest : List Char} (name_isName : isName name = true)
      (isValue : IsValue value) (more : AttributeList rest) :
      AttributeList (' ' :: (name.toList ++ '=' :: '"' :: (value ++ '"' :: rest)))

/-- A tag by what it does. -/
inductive Bracket where
  | opening (name : String)
  | closing (name : String)
  /-- The tag of an element without content, which opens and closes nothing. -/
  | void (name : String)
  deriving DecidableEq, Repr

/-- A well-formed piece of HTML with its tags. Of the void elements only images have attributes. -/
inductive Fragment : List Bracket → List Char → Prop
  | nil : Fragment [] []
  | text {t s bs} (isText : IsText t) (rest : Fragment bs s) : Fragment bs (t ++ s)
  | void {name : String} {attrs s bs} (isVoid : name ∈ voidNames) (isList : AttributeList attrs)
      (bare : name ≠ "img" → attrs = []) (rest : Fragment bs s) :
      Fragment (.void name :: bs) ('<' :: (name.toList ++ attrs ++ [' ', '/']) ++ '>' :: s)
  | element {name : String} {attrs content s cs bs} (name_isName : isName name = true)
      (notVoid : name ∉ voidNames) (isList : AttributeList attrs) (inside : Fragment cs content)
      (rest : Fragment bs s) :
      Fragment (.opening name :: (cs ++ .closing name :: bs))
        ('<' :: (name.toList ++ attrs) ++
          '>' :: (content ++ ('<' :: ('/' :: name.toList) ++ '>' :: s)))

/-! ## Reading tags -/

/-- The insides of the tags in a text. A tag goes from a `<` to the next `>`; `tag` is what has been
read of a tag that is not complete. -/
def tagsFrom : (tag : Option (List Char)) → List Char → List (List Char)
  | _, [] => []
  | none, c :: s => if c = '<' then tagsFrom (some []) s else tagsFrom none s
  | some tag, c :: s => if c = '>' then tag :: tagsFrom none s else tagsFrom (some (tag ++ [c])) s

/-- What a tag does, from its inside. -/
def Bracket.ofTag : List Char → Bracket
  | '/' :: name => .closing (String.ofList name)
  | tag =>
    let name := String.ofList (tag.takeWhile isNameChar)
    if tag.getLast? = some '/' then .void name else .opening name

/-- The tags in a text. -/
def readBrackets (s : List Char) : List Bracket := (tagsFrom none s).map Bracket.ofTag

theorem readBrackets_text {t : List Char} (h : '<' ∉ t) (s : List Char) :
    readBrackets (t ++ s) = readBrackets s := by
  unfold readBrackets
  induction t with
  | nil => rfl
  | cons c t ih =>
    rw [List.mem_cons, not_or] at h
    rw [List.cons_append, tagsFrom, if_neg (Ne.symm h.1), ih h.2]

theorem tagsFrom_some {inside : List Char} (h : '>' ∉ inside) (tag s : List Char) :
    tagsFrom (some tag) (inside ++ '>' :: s) = (tag ++ inside) :: tagsFrom none s := by
  induction inside generalizing tag with
  | nil => simp [tagsFrom]
  | cons c inside ih =>
    rw [List.mem_cons, not_or] at h
    rw [List.cons_append, tagsFrom, if_neg (Ne.symm h.1), ih h.2, List.append_assoc]
    rfl

theorem readBrackets_tag {inside : List Char} (h : '>' ∉ inside) (s : List Char) :
    readBrackets ('<' :: inside ++ '>' :: s) = Bracket.ofTag inside :: readBrackets s := by
  rw [readBrackets, List.cons_append, tagsFrom, if_pos rfl, tagsFrom_some h]
  rfl

section Names

variable {name : String} {attrs : List Char}

theorem isNameChar_of_mem (h : isName name = true) {c : Char} (hc : c ∈ name.toList) :
    isNameChar c = true := by
  rw [isName, Bool.and_eq_true, List.all_eq_true] at h
  exact h.2 c hc

theorem notMem_of_isName (h : isName name = true) {c : Char} (hc : isNameChar c = false) :
    c ∉ name.toList := by
  intro hmem
  rw [isNameChar_of_mem h hmem] at hc
  exact absurd hc Bool.noConfusion

theorem exists_cons_of_isName (h : isName name = true) :
    ∃ c s, name.toList = c :: s ∧ isNameChar c = true := by
  cases hname : name.toList with
  | nil => simp [isName, hname] at h
  | cons c s => exact ⟨c, s, rfl, isNameChar_of_mem h (by simp [hname])⟩

theorem AttributeList.gt_notMem (h : AttributeList attrs) : '>' ∉ attrs := by
  induction h with
  | nil => exact List.not_mem_nil
  | cons hname hvalue more ih =>
    have hgt := notMem_of_isName hname (c := '>') (by decide)
    simp [hgt, IsValue.gt_notMem hvalue, ih]

/-- What is behind the name in a tag begins with no character of a name. -/
theorem AttributeList.takeWhile_eq_nil (h : AttributeList attrs) (rest : List Char) :
    (attrs ++ ' ' :: rest).takeWhile isNameChar = [] ∧ attrs.takeWhile isNameChar = [] := by
  cases h with
  | nil => exact ⟨rfl, rfl⟩
  | cons => exact ⟨rfl, rfl⟩

/-- Attributes end in a quotation mark. -/
theorem AttributeList.getLast?_eq (h : AttributeList attrs) :
    attrs = [] ∨ attrs.getLast? = some '"' := by
  induction h with
  | nil => exact .inl rfl
  | @cons name value rest _ _ _ ih =>
    right
    rw [show ' ' :: (name.toList ++ '=' :: '"' :: (value ++ '"' :: rest)) =
      (' ' :: (name.toList ++ '=' :: '"' :: value)) ++ '"' :: rest by simp,
      List.getLast?_append_of_ne_nil _ (List.cons_ne_nil _ _)]
    rcases ih with rfl | ih
    · rfl
    · rw [List.getLast?_cons, ih]
      rfl

theorem ofTag_opening (h : isName name = true) (hattrs : AttributeList attrs) :
    Bracket.ofTag (name.toList ++ attrs) = .opening name := by
  obtain ⟨c, s, hname, hc⟩ := exists_cons_of_isName h
  have hslash : c ≠ '/' := by
    rintro rfl
    exact absurd hc (by decide)
  have hlast : (name.toList ++ attrs).getLast? ≠ some '/' := by
    rcases hattrs.getLast?_eq with rfl | hlast
    · intro hslash
      rw [List.append_nil] at hslash
      exact notMem_of_isName h (by decide) (List.mem_of_getLast? hslash)
    · rw [List.getLast?_append, hlast, Option.some_or]
      decide
  have htake : (name.toList ++ attrs).takeWhile isNameChar = name.toList := by
    rw [List.takeWhile_append_of_pos (fun _ hc => isNameChar_of_mem h hc),
      (hattrs.takeWhile_eq_nil []).2, List.append_nil]
  rw [hname, List.cons_append] at hlast htake ⊢
  unfold Bracket.ofTag
  split
  · next heq => exact absurd (List.cons.inj heq).1 hslash
  · rw [if_neg hlast, htake, ← hname, String.ofList_toList]

theorem ofTag_void (h : isName name = true) (hattrs : AttributeList attrs) :
    Bracket.ofTag (name.toList ++ attrs ++ [' ', '/']) = .void name := by
  obtain ⟨c, s, hname, hc⟩ := exists_cons_of_isName h
  have hslash : c ≠ '/' := by
    rintro rfl
    exact absurd hc (by decide)
  have hlast : (name.toList ++ attrs ++ [' ', '/']).getLast? = some '/' := by
    rw [List.getLast?_append]
    rfl
  have htake : (name.toList ++ attrs ++ [' ', '/']).takeWhile isNameChar = name.toList := by
    rw [List.append_assoc, List.takeWhile_append_of_pos (fun _ hc => isNameChar_of_mem h hc),
      (hattrs.takeWhile_eq_nil ['/']).1, List.append_nil]
  rw [hname, List.cons_append, List.cons_append] at hlast htake ⊢
  unfold Bracket.ofTag
  split
  · next heq => exact absurd (List.cons.inj heq).1 hslash
  · rw [if_pos hlast, htake, ← hname, String.ofList_toList]

theorem isName_of_mem_voidNames (h : name ∈ voidNames) : isName name = true := by
  revert name
  decide

end Names

/-- The tags that are read in a fragment are those of the grammar. Induction on the grammar, with
what follows the fragment left open, since content is followed by an end tag. -/
theorem Fragment.readBrackets_append {bs : List Bracket} {s : List Char} (h : Fragment bs s)
    (rest : List Char) : readBrackets (s ++ rest) = bs ++ readBrackets rest := by
  induction h generalizing rest with
  | nil => rfl
  | text isText _ ih => rw [List.append_assoc, readBrackets_text isText.lt_notMem, ih]
  | void isVoid isList _ _ ih =>
    have hname := isName_of_mem_voidNames isVoid
    have hgt := notMem_of_isName hname (c := '>') (by decide)
    rw [List.append_assoc, List.cons_append (a := '>'),
      readBrackets_tag (by simp [hgt, isList.gt_notMem]), ofTag_void hname isList, ih]
    rfl
  | element name_isName _ isList _ _ ihInside ih =>
    have hgt := notMem_of_isName name_isName (c := '>') (by decide)
    rw [List.append_assoc, List.cons_append (a := '>'),
      readBrackets_tag (by simp [hgt, isList.gt_notMem]), ofTag_opening name_isName isList,
      List.append_assoc, ihInside, List.append_assoc, List.cons_append (a := '>'),
      readBrackets_tag (by simp [hgt]), ih]
    simp [Bracket.ofTag]

theorem Fragment.readBrackets_eq {bs : List Bracket} {s : List Char} (h : Fragment bs s) :
    readBrackets s = bs := by
  have happend := h.readBrackets_append []
  rwa [List.append_nil, show readBrackets [] = [] from rfl, List.append_nil] at happend

theorem Fragment.append {as bs : List Bracket} {s t : List Char} (h : Fragment as s)
    (h' : Fragment bs t) : Fragment (as ++ bs) (s ++ t) := by
  induction h with
  | nil => exact h'
  | text isText _ ih =>
    rw [List.append_assoc]
    exact .text isText ih
  | void isVoid isList bare _ ih =>
    rw [List.append_assoc, List.cons_append, List.cons_append (a := '>')]
    exact .void isVoid isList bare ih
  | element name_isName notVoid isList inside _ _ ih =>
    have hfragment := Fragment.element name_isName notVoid isList inside ih
    simpa using hfragment

/-! ## Printed trees -/

mutual

/-- The tags of a piece of HTML, in the order in which they are printed. -/
def brackets : Html → List Bracket
  | text _ => []
  | raw _ => []
  | element name _ content => .opening name :: (bracketsOf content ++ [.closing name])
  | void name _ => [.void name]

/-- The tags of pieces of HTML that follow each other. -/
def bracketsOf : List Html → List Bracket
  | [] => []
  | h :: hs => brackets h ++ bracketsOf hs

end

/-- All attributes have names. -/
def haveNames (attrs : List (String × String)) : Bool := attrs.all (isName ·.1)

mutual

/-- The elements and attributes have names, and what is void is so by its name. -/
def isNamed : Html → Bool
  | element name attrs content =>
    isName name && !voidNames.contains name && haveNames attrs && areNamed content
  | void name attrs =>
    voidNames.contains name && haveNames attrs && (name == "img" || attrs.isEmpty)
  | _ => true

def areNamed : List Html → Bool
  | [] => true
  | h :: hs => isNamed h && areNamed hs

end

@[simp] theorem bracketsOf_append (hs ks : List Html) :
    bracketsOf (hs ++ ks) = bracketsOf hs ++ bracketsOf ks := by
  induction hs with
  | nil => rfl
  | cons h hs ih => rw [List.cons_append, bracketsOf, bracketsOf, ih, List.append_assoc]

@[simp] theorem bracketsOf_text (s : String) (hs : List Html) :
    bracketsOf (.text s :: hs) = bracketsOf hs := rfl

@[simp] theorem areNamed_append (hs ks : List Html) :
    areNamed (hs ++ ks) = (areNamed hs && areNamed ks) := by
  induction hs with
  | nil => rfl
  | cons h hs ih => rw [List.cons_append, areNamed, areNamed, ih, Bool.and_assoc]

@[simp] theorem areNamed_text (s : String) (hs : List Html) :
    areNamed (.text s :: hs) = areNamed hs := rfl

@[simp] theorem haveNames_nil : haveNames [] = true := rfl

@[simp] theorem haveNames_cons (a : String × String) (attrs : List (String × String)) :
    haveNames (a :: attrs) = (isName a.1 && haveNames attrs) := rfl

@[simp] theorem haveNames_append (attrs more : List (String × String)) :
    haveNames (attrs ++ more) = (haveNames attrs && haveNames more) := List.all_append

theorem attributeList_printAttrs {attrs : List (String × String)} (h : haveNames attrs = true) :
    AttributeList (printAttrs attrs).toList := by
  induction attrs with
  | nil => exact .nil
  | cons a attrs ih =>
    rw [haveNames_cons, Bool.and_eq_true] at h
    have hlist := AttributeList.cons h.1 (isValue_escapeValue a.2) (ih h.2)
    simpa [printAttrs] using hlist

/-- HTML is printed as a fragment, if none of its markup is raw. -/
theorem fragment_printAll {hs : List Html} (hraw : areRawFree hs = true)
    (hnamed : areNamed hs = true) : Fragment (bracketsOf hs) (printAll hs).toList := by
  -- induction over HTML as over forests: the content of an element is a list of pieces
  refine @Html.rec_1
    (fun h => h.isRawFree = true → h.isNamed = true → Fragment h.brackets h.print.toList)
    (fun hs => areRawFree hs = true → areNamed hs = true →
      Fragment (bracketsOf hs) (printAll hs).toList)
    ?text ?raw ?element ?void ?nil ?cons hs hraw hnamed
  case text =>
    intro s _ _
    have htext := Fragment.text (isText_escapeText s) .nil
    rwa [List.append_nil] at htext
  case raw =>
    intro s hraw
    exact absurd hraw Bool.false_ne_true
  case element =>
    intro name attrs content ih hraw hnamed
    simp only [isNamed, Bool.and_eq_true, Bool.not_eq_true', List.contains_eq_mem,
      decide_eq_false_iff_not] at hnamed
    obtain ⟨⟨⟨hname, hvoid⟩, hattrs⟩, hcontent⟩ := hnamed
    have helement := Fragment.element hname hvoid (attributeList_printAttrs hattrs)
      (ih hraw hcontent) .nil
    simpa [print, brackets] using helement
  case void =>
    intro name attrs _ hnamed
    simp only [isNamed, Bool.and_eq_true, List.contains_eq_mem, decide_eq_true_eq,
      Bool.or_eq_true, beq_iff_eq, List.isEmpty_iff] at hnamed
    obtain ⟨⟨hvoid, hattrs⟩, hbare⟩ := hnamed
    have hfragment := Fragment.void hvoid (attributeList_printAttrs hattrs)
      (fun himg => by rw [hbare.resolve_left himg]; rfl) .nil
    simpa [print, brackets] using hfragment
  case nil => exact fun _ _ => .nil
  case cons =>
    intro h hs ih ihs hraw hnamed
    rw [areRawFree, Bool.and_eq_true] at hraw
    rw [areNamed, Bool.and_eq_true] at hnamed
    rw [bracketsOf, printAll, String.toList_append]
    exact (ih hraw.1 hnamed.1).append (ihs hraw.2 hnamed.2)

end Html

end Treatise
