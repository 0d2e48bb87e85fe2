import Treatise.Proofs.Trimming
import Treatise.Statement.Opening

/-!
# The grammar of openings

What opens a statement, as a grammar. Each part of an opening is described by a relation between its
text and what it says; the blanks that may follow a part belong to its text.

* `Opening.IsLabel`, `Opening.IsGroup`, `Subject.IsNamed` — the parts; `Opening.Gives` — what a group
  with nothing in it says;
* **`Opening.Announces`** — the texts that open a statement, with what they say about it;
* `Opening.exists_of_readGroup?`, `Opening.readGroup?_append` — what the reader of a part reads is
  such a part, and it reads such a part whatever follows, as long as the part could not begin so;
* **`Opening.read?_eq_some_iff`** — the whole reader accepts just the grammar.
-/

namespace Treatise

open Markdown (Stops)

/-! ## Keys -/

/-- A key is not empty and holds no blank. -/
def KeyText (key : List Char) : Prop := key ≠ [] ∧ ∀ c ∈ key, Text.isBlank c = false

theorem isKey_iff {key : List Char} : isKey key = true ↔ KeyText key := by
  simp [isKey, KeyText]

theorem isKey_eq_false_iff {key : List Char} : isKey key = false ↔ ¬KeyText key := by
  rw [← isKey_iff, Bool.not_eq_true]

theorem stops_of_isKey {key : List Char} (h : isKey key = true) : Stops Text.isBlank key :=
  Text.stops_of_forall (isKey_iff.1 h).2

/-! ## Subjects of proofs -/

/-- The words for what is proved: a label if they are `#` and a key, and otherwise a description. -/
inductive Subject.IsWritten : List Char → Subject → Prop where
  | reference {key : List Char} (hkey : KeyText key) :
      IsWritten ('#' :: key) (.reference (String.ofList key))
  | text {words : List Char} (hne : words ≠ []) (hkey : ∀ key, words = '#' :: key → ¬KeyText key) :
      IsWritten words (.text (String.ofList words))

/-- The name of a proof, without blanks around it: the word `of`, blanks, and what is proved. -/
inductive Subject.IsNamed : List Char → Subject → Prop where
  | intro {blanks words : List Char} {subject : Subject} (hne : blanks ≠ [])
      (hblanks : Text.isAllBlank blanks = true) (hstart : Stops Text.isBlank words)
      (hwords : subject.IsWritten words) :
      IsNamed (['o', 'f'] ++ (blanks ++ words)) subject

namespace Subject

variable {name : List Char} {subject : Subject}

/-- Behind the word `of` and a blank, the words alone decide. -/
theorem ofName?_eq_some_iff_isWritten {c : Char} {s : List Char} (htrim : Text.trim name = name)
    (hname : name = ['o', 'f'] ++ c :: s) (hc : Text.isBlank c = true) :
    ofName? name = some subject ↔ subject.IsWritten (Text.trim (c :: s)) := by
  have hafter : Text.after? "of" name = some (c :: s) := Text.stripStart?_eq_some_iff.2 hname
  simp only [ofName?, htrim, hafter, hc, if_true]
  generalize Text.trim (c :: s) = words
  constructor
  · intro h
    split at h
    · cases h
    · split at h <;> cases h
      · exact .reference (isKey_iff.1 ‹_›)
      · refine .text (List.cons_ne_nil _ _) ?_
        rintro key ⟨⟩
        exact mt isKey_iff.2 ‹_›
    · rename_i hne hlabel
      cases h
      exact .text hne fun key hkey => absurd hkey (hlabel key)
  · intro h
    cases h with
    | reference hkey => simp only [isKey_iff.2 hkey, if_true]
    | text hne hkey =>
      split
      · exact absurd rfl hne
      · rename_i key
        simp only [isKey_eq_false_iff.2 (hkey key rfl), Bool.false_eq_true, if_false]
      · rfl

/-- The reader of names reads the names of proofs. -/
theorem ofName?_eq_some_iff (htrim : Text.trim name = name) :
    ofName? name = some subject ↔ subject.IsNamed name := by
  have hstop : Stops Text.isBlank name.reverse := (Text.trim_eq_self_iff.1 htrim).2
  constructor
  · intro h
    obtain ⟨c, s, rfl, hc⟩ : ∃ c s, name = ['o', 'f'] ++ c :: s ∧ Text.isBlank c = true := by
      rw [ofName?, htrim] at h
      split at h
      · cases h
      · rename_i rest hrest
        cases rest with
        | nil => cases h
        | cons c s =>
          by_cases hc : Text.isBlank c = true
          · exact ⟨c, s, Text.stripStart?_eq_some_iff.1 hrest, hc⟩
          · simp [hc] at h
    rw [ofName?_eq_some_iff_isWritten htrim rfl hc,
      -- The name ends in no blank, so that only the blanks behind the word `of` are trimmed.
      Text.trim_eq_trimStart_of_suffix hstop (List.suffix_append _ _)] at h
    have hstart := Text.stops_trimStart (c :: s)
    obtain ⟨blanks, hblanks, heq⟩ := Text.exists_eq_trimStart (c :: s)
    generalize Text.trimStart (c :: s) = words at h hstart heq
    rw [heq]
    refine .intro ?_ hblanks hstart h
    rintro rfl
    rw [List.nil_append] at heq
    simp [← heq, hc] at hstart
  · rintro ⟨hne, hblanks, hstart, hwords⟩
    rename_i blanks words
    obtain ⟨c, s, rfl⟩ := List.exists_cons_of_ne_nil hne
    have hc : Text.isBlank c = true := Text.isAllBlank_iff.1 hblanks c (List.mem_cons_self ..)
    have hwritten : Text.trim (c :: s ++ words) = words := by
      rw [Text.trim_eq_trimStart_of_suffix hstop (List.suffix_append _ _)]
      exact Text.trimStart_append_of_stops hblanks hstart
    have hwords : subject.IsWritten (Text.trim (c :: s ++ words)) := by rwa [hwritten]
    exact (ofName?_eq_some_iff_isWritten htrim rfl hc).2 hwords

end Subject

namespace Opening

/-! ## The grammar -/

/-- A label or nothing. The text in the braces is `#` and a key, with blanks around each. -/
inductive IsLabel : List Char → Option (List Char) → Prop where
  | absent : IsLabel [] none
  | group {inner blanks key gap : List Char} (hclosing : '}' ∉ inner)
      (hinner : Text.IsPadded inner ('#' :: (blanks ++ key)))
      (hblanks : Text.isAllBlank blanks = true) (hkey : KeyText key)
      (hgap : Text.isAllBlank gap = true) :
      IsLabel ('{' :: inner ++ '}' :: gap) (some key)

/-- A group in brackets, with blanks around its text, or nothing. -/
inductive IsGroup (opening closing : Char) : List Char → Option (List Char) → Prop where
  | absent : IsGroup opening closing [] none
  | group {inner words gap : List Char} (hclosing : closing ∉ inner)
      (hinner : Text.IsPadded inner words) (hgap : Text.isAllBlank gap = true) :
      IsGroup opening closing (opening :: inner ++ closing :: gap) (some words)

/-- What a group gives: its text. A group with nothing in it gives no more than one that is not
there. -/
inductive Gives : Option (List Char) → Option (List Char) → Prop where
  | absent : Gives none none
  | empty : Gives (some []) none
  | text {words : List Char} (hne : words ≠ []) : Gives (some words) (some words)

/-- Only a proof is a proof of something, which is in the group for the name. It has no group of
references. -/
inductive HasSubject : Kind → (name references : Option (List Char)) → Option Subject → Prop where
  | statement {kind : Kind} {name references : Option (List Char)} (h : kind ≠ .proof) :
      HasSubject kind name references none
  | proof : HasSubject .proof none none none
  | proofOf {name : List Char} {subject : Subject} (h : subject.IsNamed name) :
      HasSubject .proof (some name) none (some subject)

/-- The star behind the word of a statement that takes no number. -/
def starText (starred : Bool) : List Char := if starred then ['*'] else []

/-- The text opens a statement: a label, the word for the kind, a star, a name, references and a
colon. Nothing that may follow the word begins with a letter: the word is a whole run of letters. -/
inductive Announces : List Char → Opening → Prop where
  | intro {lead labelText gap nameText referencesText blanks rest : List Char}
      {label nameGroup referencesGroup name references : Option (List Char)} {kind : Kind}
      {starred : Bool} {subject : Option Subject} (hlead : Text.isAllBlank lead = true)
      (hlabel : IsLabel labelText label) (hgap : Text.isAllBlank gap = true)
      (hnameGroup : IsGroup '(' ')' nameText nameGroup)
      (hreferencesGroup : IsGroup '[' ']' referencesText referencesGroup)
      (hsubject : HasSubject kind nameGroup referencesGroup subject)
      (hname : Gives nameGroup name) (hreferences : Gives referencesGroup references)
      (hblanks : Text.isAllBlank blanks = true) (hrest : Stops Text.isBlank rest) :
      Announces (lead ++ (labelText ++ (kind.name.toList ++ (starText starred ++ (gap ++
          (nameText ++ (referencesText ++ ':' :: (blanks ++ rest))))))))
        ⟨label, kind, starred, name, references, subject, rest⟩

/-! ## Labels and groups -/

variable {opening closing : Char} {s r t : List Char} {found : Option (List Char)}

theorem gives_iff {name : Option (List Char)} : Gives found name ↔ nonEmpty found = name := by
  constructor
  · intro h
    cases h with
    | absent => rfl
    | empty => rfl
    | @text words hne =>
      cases words with
      | nil => exact absurd rfl hne
      | cons c words => rfl
  · rintro rfl
    rcases found with _ | _ | ⟨c, words⟩
    · exact .absent
    · exact .empty
    · exact .text (List.cons_ne_nil c words)

theorem labelKey?_eq_some_iff {inner key : List Char} :
    labelKey? inner = some key ↔
      ∃ blanks, Text.trim inner = '#' :: (blanks ++ key) ∧ Text.isAllBlank blanks = true ∧
        isKey key = true := by
  have hstop : Stops Text.isBlank (Text.trim inner).reverse := Text.stops_reverse_trim inner
  simp only [labelKey?, Option.bind_eq_bind, Option.bind_eq_some_iff, Text.stripStart?_eq_some_iff,
    List.singleton_append, Option.ite_none_right_eq_some, Option.some.injEq]
  constructor
  · rintro ⟨rest, heq, hkey, rfl⟩
    rw [heq] at hstop
    rw [Text.trim_eq_trimStart_of_suffix hstop (List.suffix_cons _ _)] at hkey ⊢
    obtain ⟨blanks, hblanks, hrest⟩ := Text.exists_eq_trimStart rest
    exact ⟨blanks, by rw [← hrest, heq], hblanks, hkey⟩
  · rintro ⟨blanks, heq, hblanks, hkey⟩
    rw [heq] at hstop
    have htrim : Text.trim (blanks ++ key) = key := by
      rw [Text.trim_eq_trimStart_of_suffix hstop (List.suffix_cons _ _)]
      exact Text.trimStart_append_of_stops hblanks (stops_of_isKey hkey)
    exact ⟨blanks ++ key, heq, by rwa [htrim], htrim⟩

theorem exists_of_readLabel? (h : readLabel? s = some (found, r)) :
    ∃ t, IsLabel t found ∧ s = t ++ r := by
  unfold readLabel? at h
  split at h
  · rename_i rest
    simp only [Option.bind_eq_bind, Option.bind_eq_some_iff, Prod.exists, Option.pure_def,
      Option.some.injEq, Prod.mk.injEq, Text.splitOnce?_eq_some_iff, labelKey?_eq_some_iff] at h
    obtain ⟨inner, after, ⟨rfl, hclosing⟩, key, ⟨blanks, hinner, hblanks, hkey⟩, rfl, rfl⟩ := h
    obtain ⟨gap, hgap, hafter⟩ := Text.exists_eq_trimStart after
    refine ⟨_, .group hclosing (Text.isPadded_iff.2 hinner) hblanks (isKey_iff.1 hkey) hgap, ?_⟩
    simp [← hafter]
  · cases h
    exact ⟨[], .absent, rfl⟩

theorem readLabel?_append (h : IsLabel t found) (hblank : Stops Text.isBlank s)
    (hbrace : Stops (· == '{') s) : readLabel? (t ++ s) = some (found, s) := by
  cases h with
  | absent =>
    rw [List.nil_append]
    unfold readLabel?
    split
    · exact absurd (Text.stops_cons.1 hbrace) (by decide)
    · rfl
  | @group inner blanks key gap hclosing hinner hblanks hkey hgap =>
    have hsplit : Text.splitOnce? '}' (inner ++ '}' :: (gap ++ s)) = some (inner, gap ++ s) :=
      Text.splitOnce?_eq_some_iff.2 ⟨rfl, hclosing⟩
    have hread : labelKey? inner = some key :=
      labelKey?_eq_some_iff.2 ⟨blanks, Text.isPadded_iff.1 hinner, hblanks, isKey_iff.2 hkey⟩
    simp [readLabel?, hsplit, hread, Text.trimStart_append_of_stops hgap hblank]

theorem exists_of_readGroup? (h : readGroup? opening closing s = some (found, r)) :
    ∃ t, IsGroup opening closing t found ∧ s = t ++ r := by
  unfold readGroup? at h
  split at h
  · cases h
    exact ⟨[], .absent, rfl⟩
  · split at h
    · rename_i heq
      subst heq
      simp only [Option.map_eq_some_iff, Prod.exists, Prod.mk.injEq,
        Text.splitOnce?_eq_some_iff] at h
      obtain ⟨inner, after, ⟨rfl, hclosing⟩, rfl, rfl⟩ := h
      obtain ⟨gap, hgap, hafter⟩ := Text.exists_eq_trimStart after
      refine ⟨_, .group hclosing (Text.isPadded_iff.2 rfl) hgap, ?_⟩
      simp [← hafter]
    · cases h
      exact ⟨[], .absent, rfl⟩

theorem readGroup?_append (h : IsGroup opening closing t found) (hblank : Stops Text.isBlank s)
    (hopening : Stops (· == opening) s) :
    readGroup? opening closing (t ++ s) = some (found, s) := by
  cases h with
  | absent =>
    cases s with
    | nil => rfl
    | cons c s => simpa [readGroup?] using hopening
  | @group inner words gap hclosing hinner hgap =>
    have hsplit :
        Text.splitOnce? closing (inner ++ closing :: (gap ++ s)) = some (inner, gap ++ s) :=
      Text.splitOnce?_eq_some_iff.2 ⟨rfl, hclosing⟩
    simp [readGroup?, hsplit, Text.isPadded_iff.1 hinner, Text.trimStart_append_of_stops hgap hblank]

theorem IsLabel.stops (h : IsLabel t found) : Stops Text.isBlank t := by
  cases h with
  | absent => exact Text.stops_of_forall (by simp)
  | group => exact Text.stops_cons.2 rfl

/-- A group begins with its opening bracket. -/
theorem IsGroup.stops_append {p : Char → Bool} (h : IsGroup opening closing t found)
    (hp : p opening = false) (hs : Stops p s) : Stops p (t ++ s) := by
  cases h with
  | absent => exact hs
  | group => exact Text.stops_cons.2 hp

theorem IsGroup.trim_eq {inner : List Char} (h : IsGroup opening closing t (some inner)) :
    Text.trim inner = inner := by
  cases h with
  | group hclosing hinner =>
    rw [← Text.isPadded_iff.1 hinner]
    exact Text.trim_trim _

theorem subject?_eq_some_iff {kind : Kind} {name references : Option (List Char)}
    {subject : Option Subject} (htrim : ∀ n ∈ name, Text.trim n = n) :
    subject? kind name references = some subject ↔ HasSubject kind name references subject := by
  unfold subject?
  cases hproof : kind.isProof with
  | false =>
    rw [if_neg Bool.false_ne_true, Option.some.injEq]
    constructor
    · rintro rfl
      exact .statement (by rintro rfl; cases hproof)
    · intro h
      cases h with
      | statement => rfl
      | proof => cases hproof
      | proofOf => cases hproof
  | true =>
    -- a proof is announced without references, and its name says what it is a proof of
    obtain rfl : kind = .proof := by cases kind <;> first | rfl | cases hproof
    rw [if_pos rfl]
    cases references with
    | some references =>
      refine iff_of_false (by simp) ?_
      rintro ⟨hne⟩
      exact hne rfl
    | none =>
      cases name with
      | none =>
        simp only [Option.isSome_none, Bool.false_eq_true, if_false, Option.some.injEq]
        constructor
        · rintro rfl
          exact .proof
        · intro h
          cases h with
          | statement hne => exact absurd rfl hne
          | proof => rfl
      | some name =>
        simp only [Option.isSome_none, Bool.false_eq_true, if_false, Option.map_eq_some_iff,
          Subject.ofName?_eq_some_iff (htrim name rfl)]
        constructor
        · rintro ⟨subject, h, rfl⟩
          exact .proofOf h
        · intro h
          cases h with
          | statement hne => exact absurd rfl hne
          | proofOf h => exact ⟨_, h, rfl⟩

/-! ## The words for kinds -/

theorem isAlpha_of_mem_name (kind : Kind) : ∀ c ∈ kind.name.toList, c.isAlpha = true :=
  List.all_eq_true.1 (by cases kind <;> decide)

theorem isKindShaped_name (kind : Kind) : isKindShaped kind.name.toList = true := by
  cases kind <;> decide

theorem stops_name (kind : Kind) (s : List Char) :
    Stops Text.isBlank (kind.name.toList ++ s) ∧ Stops (· == '{') (kind.name.toList ++ s) := by
  cases kind <;> constructor <;> rintro c ⟨⟩ <;> rfl

theorem takeWhile_name_append (kind : Kind) {tail : List Char} (h : Stops Char.isAlpha tail) :
    (kind.name.toList ++ tail).takeWhile Char.isAlpha = kind.name.toList :=
  Text.takeWhile_append_of_stops (isAlpha_of_mem_name kind) h

theorem dropWhile_name_append (kind : Kind) {tail : List Char} (h : Stops Char.isAlpha tail) :
    (kind.name.toList ++ tail).dropWhile Char.isAlpha = tail :=
  Text.dropWhile_append_of_stops (isAlpha_of_mem_name kind) h

/-! ## The whole reader -/

theorem eq_starText_append (s : List Char) :
    s = starText (s.head? == some '*') ++ (if s.head? == some '*' then s.drop 1 else s) := by
  unfold starText
  split
  · rename_i h
    obtain ⟨s, rfl⟩ := List.head?_eq_some_iff.1 (beq_iff_eq.1 h)
    rfl
  · rfl

theorem head?_starText_append {s : List Char} (starred : Bool) (h : Stops (· == '*') s) :
    ((starText starred ++ s).head? == some '*') = starred := by
  cases starred with
  | true => rfl
  | false =>
    cases s with
    | nil => rfl
    | cons c s => simpa [starText] using h

theorem drop_starText_append (starred : Bool) (s : List Char) :
    (if starred then (starText starred ++ s).drop 1 else starText starred ++ s) = s := by
  cases starred <;> rfl

theorem announces_of_read? {text : List Char} {o : Opening} (h : read? text = some o) :
    Announces text o := by
  simp only [read?, Option.bind_eq_bind, Option.bind_eq_some_iff, Prod.exists] at h
  obtain ⟨label, s, hlabel, h⟩ := h
  split at h
  · cases h
  · simp only [Option.bind_eq_some_iff, Prod.exists, Text.stripStart?_eq_some_iff] at h
    obtain ⟨name, s₁, hname, references, s₂, hreferences, after, rfl, kind, hkind, subject,
      hsubject, h⟩ := h
    cases h
    -- each reader has taken a part of the text, and the parts together are the text
    obtain ⟨lead, hlead, htext⟩ := Text.exists_eq_trimStart text
    obtain ⟨labelText, hlabel, hs⟩ := exists_of_readLabel? hlabel
    have hword : s.takeWhile Char.isAlpha = kind.name.toList := by
      rw [← Kind.ofName?_eq_some_iff.1 hkind, String.toList_ofList]
    obtain ⟨tail, htail⟩ : ∃ tail, s.dropWhile Char.isAlpha = tail := ⟨_, rfl⟩
    have hsplit : s = kind.name.toList ++ tail := by
      rw [← hword, ← htail, List.takeWhile_append_dropWhile]
    rw [htail] at hname ⊢
    have hstar := eq_starText_append tail
    generalize (tail.head? == some '*') = starred at hname hstar ⊢
    obtain ⟨gap, hgap, hbehind⟩ := Text.exists_eq_trimStart (if starred then tail.drop 1 else tail)
    obtain ⟨nameText, hname, hnameText⟩ := exists_of_readGroup? hname
    obtain ⟨referencesText, hreferences, hreferencesText⟩ := exists_of_readGroup? hreferences
    obtain ⟨blanks, hblanks, hafter⟩ := Text.exists_eq_trimStart after
    rw [hbehind, hnameText, hreferencesText] at hstar
    rw [htext, hs, hsplit, hstar, hafter, Text.trimStart_append_of_stops hblanks
      (Text.stops_trimStart after)]
    refine .intro hlead hlabel hgap hname hreferences ?_ (gives_iff.2 rfl) (gives_iff.2 rfl) hblanks
      (Text.stops_trimStart after)
    refine (subject?_eq_some_iff ?_).1 hsubject
    rintro n rfl
    exact hname.trim_eq

theorem read?_of_announces {text : List Char} {o : Opening} (h : Announces text o) :
    read? text = some o := by
  cases h with
  | @intro lead labelText gap nameText referencesText blanks rest label nameGroup referencesGroup
      name references kind starred subject hlead hlabel hgap hname hreferences hsubject hgiven
      hgivenReferences hblanks hrest =>
    obtain ⟨after, hafter⟩ : ∃ after, blanks ++ rest = after := ⟨_, rfl⟩
    obtain rfl : Text.trimStart after = rest := by
      rw [← hafter]
      exact Text.trimStart_append_of_stops hblanks hrest
    rw [hafter]
    -- behind each part stands a character with which the part could not have begun
    have hcolon {p : Char → Bool} (hp : p ':' = false) : Stops p (':' :: after) :=
      Text.stops_cons.2 hp
    have hbehind {p : Char → Bool} (hbracket : p '[' = false) (hp : p ':' = false) :
        Stops p (referencesText ++ ':' :: after) :=
      hreferences.stops_append hbracket (hcolon hp)
    have hnamed {p : Char → Bool} (hround : p '(' = false) (hbracket : p '[' = false)
        (hp : p ':' = false) : Stops p (nameText ++ (referencesText ++ ':' :: after)) :=
      hname.stops_append hround (hbehind hbracket hp)
    have hreadName := readGroup?_append hname (hbehind rfl rfl) (hbehind rfl rfl)
    have hreadReferences := readGroup?_append hreferences (hcolon rfl) (hcolon rfl)
    have hsubject : subject? kind nameGroup referencesGroup = some subject := by
      refine (subject?_eq_some_iff ?_).2 hsubject
      rintro n rfl
      exact hname.trim_eq
    -- the word ends where the letters end, and a star only stands directly behind it
    have hnoStar : Stops (· == '*') (gap ++ (nameText ++ (referencesText ++ ':' :: after))) := by
      refine Text.stops_append (Text.stops_of_forall fun c hc => ?_) (hnamed rfl rfl rfl)
      have hblank := Text.isAllBlank_iff.1 hgap c hc
      exact beq_eq_false_iff_ne.2 (by rintro rfl; cases hblank)
    have hword : Stops Char.isAlpha
        (starText starred ++ (gap ++ (nameText ++ (referencesText ++ ':' :: after)))) := by
      refine Text.stops_append (by cases starred <;> rintro c ⟨⟩; rfl) ?_
      refine Text.stops_append (Text.stops_of_forall fun c hc => ?_) (hnamed rfl rfl rfl)
      exact Text.isAlpha_eq_false_of_isBlank (Text.isAllBlank_iff.1 hgap c hc)
    have hstarred := head?_starText_append starred hnoStar
    have hdrop := drop_starText_append starred
      (gap ++ (nameText ++ (referencesText ++ ':' :: after)))
    generalize starText starred ++ (gap ++ (nameText ++ (referencesText ++ ':' :: after))) = tail
      at *
    have hkind := stops_name kind tail
    have hreadLabel := readLabel?_append hlabel hkind.1 hkind.2
    simp only [read?, Text.trimStart_append_of_stops hlead (Text.stops_append hlabel.stops hkind.1),
      hreadLabel, takeWhile_name_append kind hword, dropWhile_name_append kind hword, hstarred,
      hdrop, isKindShaped_name kind, Text.trimStart_append_of_stops hgap (hnamed rfl rfl rfl),
      hreadName, hreadReferences, String.ofList_toList, Kind.ofName?_eq_some_iff.2 rfl, hsubject,
      gives_iff.1 hgiven, gives_iff.1 hgivenReferences, Option.bind_eq_bind, Option.bind_some]
    rfl

/-- **Just the grammar.** A text opens a statement if and only if the grammar says so, and then it
says what the grammar says. -/
theorem read?_eq_some_iff {text : List Char} {o : Opening} :
    read? text = some o ↔ Announces text o :=
  ⟨announces_of_read?, read?_of_announces⟩

/-- A name and references between blanks are given without these, and groups with nothing in them
give none. -/
theorem announces_name_and_references :
    Announces " \x7b# a \x7d Theorem* ( Main ) [ \x7bref: #b\x7d ]: Let".toList
        ⟨some ['a'], .thm, true, some "Main".toList, some "\x7bref: #b\x7d".toList, none, "Let".toList⟩ ∧
      Announces "Lemma ( ) []:Let".toList ⟨none, .lem, false, none, none, none, "Let".toList⟩ :=
  ⟨read?_eq_some_iff.1 (by decide +kernel), read?_eq_some_iff.1 (by decide +kernel)⟩

end Opening

end Treatise
