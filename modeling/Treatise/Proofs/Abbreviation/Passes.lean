import Treatise.Abbreviation.Expansion

/-!
# One pass of an abbreviation

A pass reads a text from left to right and replaces complete calls. Here it is described by what it
leaves of the text and what it replaces, without the order in which it looks.

* `Definition.IsCall` — what makes a name and the text behind it a complete call, and what the call
  stands for. This is what `Definition.call?` looks for (`call?_eq_some_iff`).
* `Definition.Keeps` — no complete call starts in a stretch of text.
* **`Definition.Pass`** — stretches that are kept and calls between them.
* **`exists_pass`** — every text is cut like this, and the pass puts the values in the place of the
  calls.
-/

namespace Treatise.Abbreviation

namespace Definition

variable {d : Definition}

/-! ## Names -/

/-- A definition that is read has a name of ASCII letters. -/
theorem isAlpha_of_mem_name {line : List Char} (h : ofLine? line = some d) {c : Char}
    (hc : c ∈ d.name) : c.isAlpha = true := by
  simp only [ofLine?, bind, Option.bind_eq_some_iff] at h
  obtain ⟨s, -, h⟩ := h
  split at h
  · cases h
  · obtain ⟨signature, _, heq⟩ := Option.bind_eq_some_iff.1 h
    obtain rfl := Option.some.inj heq
    exact List.all_eq_true.1 List.all_takeWhile c hc

/-- So no name begins inside a name with its backslash. -/
theorem notMem_name_of_ofLine? {line : List Char} (h : ofLine? line = some d) : '\\' ∉ d.name := by
  intro hmem
  have halpha := isAlpha_of_mem_name h hmem
  revert halpha
  decide

/-! ## Complete calls -/

/-- The name behind a backslash, as it is written in a call. -/
def command (d : Definition) : List Char := '\\' :: d.name

/-- The name, with `list` directly behind it and then `next`, is a complete call and stands for
`value`. An abbreviation without parameters is called by its name, unless a letter makes it a longer
word; any other is called with a list of arguments that give a value to each parameter. -/
inductive IsCall (d : Definition) : (list next value : List Char) → Prop where
  | name {next : List Char} (hparams : d.params = [])
      (hnext : ∀ c ∈ next.head?, Text.isAlphabetic c = false) :
      IsCall d [] next (d.body.instantiate [])
  | list {list next : List Char} {args : List (Option (List Char))} {values : List (List Char)}
      (hparams : d.params ≠ []) (hread : readCall? (list ++ next) = some (args, next))
      (hbind : bind? d.params args = some values) :
      IsCall d list next (d.body.instantiate values)

/-- The text behind the name is searched for just what makes a complete call. -/
theorem call?_eq_some_iff {after value next : List Char} :
    d.call? after = some (value, next) ↔
      ∃ list, after = list ++ next ∧ d.IsCall list next value := by
  by_cases hparams : d.params = []
  · -- the name alone is the call, so nothing behind it is read
    have hcall : d.call? after =
        if ∀ c ∈ after.head?, Text.isAlphabetic c = false then some (d.body.instantiate [], after)
        else none := by
      cases after with
      | nil => simp [call?, hparams]
      | cons c s => cases hc : Text.isAlphabetic c <;> simp [call?, hparams, hc]
    rw [hcall]
    constructor
    · intro h
      obtain ⟨hnext, heq⟩ := Option.ite_none_right_eq_some.1 h
      obtain ⟨rfl, rfl⟩ := Prod.mk.inj (Option.some.inj heq)
      exact ⟨[], rfl, .name hparams hnext⟩
    · rintro ⟨list, rfl, hiscall⟩
      cases hiscall with
      | name _ hnext => exact if_pos hnext
      | list hne => exact absurd hparams hne
  · have hcall : d.call? after = some (value, next) ↔ ∃ args values,
        readCall? after = some (args, next) ∧ bind? d.params args = some values ∧
          d.body.instantiate values = value := by
      simp only [call?, List.isEmpty_iff, hparams, if_false, bind, Option.bind_eq_some_iff,
        Prod.exists, pure, Option.some.injEq, Prod.mk.injEq]
      constructor
      · rintro ⟨args, _, hread, values, hbind, hvalue, rfl⟩
        exact ⟨args, values, hread, hbind, hvalue⟩
      · rintro ⟨args, values, hread, hbind, hvalue⟩
        exact ⟨args, next, hread, values, hbind, hvalue, rfl⟩
    rw [hcall]
    constructor
    · rintro ⟨args, values, hread, hbind, rfl⟩
      obtain ⟨list, rfl⟩ := readCall?_suffix hread
      exact ⟨list, rfl, .list hparams hread hbind⟩
    · rintro ⟨list, rfl, hiscall⟩
      cases hiscall with
      | name hnil => exact absurd hnil hparams
      | list _ hread hbind => exact ⟨_, _, hread, hbind, rfl⟩

theorem call?_eq_none_iff {after : List Char} :
    d.call? after = none ↔
      ∀ list next value, after = list ++ next → ¬d.IsCall list next value := by
  rw [Option.eq_none_iff_forall_ne_some]
  constructor
  · intro h list next value heq hcall
    exact h (value, next) (call?_eq_some_iff.2 ⟨list, heq, hcall⟩)
  · rintro h ⟨value, next⟩ hsome
    obtain ⟨list, heq, hcall⟩ := call?_eq_some_iff.1 hsome
    exact h list next value heq hcall

/-! ## What one step of a pass does -/

/-- A character at which the name does not stand is kept. -/
theorem apply_cons {c : Char} {s : List Char} (h : ¬d.command <+: c :: s) :
    d.apply (c :: s) = c :: d.apply s := by
  rw [apply]
  split
  · rfl
  · next after hname => exact absurd ⟨after, (Text.stripStart?_eq_some_iff.1 hname).symm⟩ h

theorem apply_command (after : List Char) :
    d.apply (d.command ++ after) =
      match d.call? after with
      | some (value, next) => value ++ d.apply next
      | none => d.command ++ d.apply after := by
  have hname : Text.stripStart? ('\\' :: d.name) ('\\' :: (d.name ++ after)) = some after :=
    Text.stripStart?_eq_some_iff.2 rfl
  rw [command, List.cons_append, apply]
  split
  · next hnone => rw [hnone] at hname; cases hname
  · next after' hsome =>
    obtain rfl := Option.some.inj (hsome.symm.trans hname)
    split
    · next hcall => rw [hcall]
    · next hcall => rw [hcall]

/-! ## The pass -/

/-- No complete call starts in `kept`, which `next` follows. -/
def Keeps (d : Definition) (kept next : List Char) : Prop :=
  ∀ front back after, kept = front ++ back → back ≠ [] → back ++ next = d.command ++ after →
    ∀ list rest value, after = list ++ rest → ¬d.IsCall list rest value

/-- A stretch of text that is kept, and a call behind it: what belongs to the call behind the name,
and what the call stands for. -/
structure Replaced where
  kept : List Char
  list : List Char
  value : List Char

/-- The text in which calls are replaced; `last` is what is kept behind the last call. -/
def source (d : Definition) (replaced : List Replaced) (last : List Char) : List Char :=
  replaced.flatMap (fun r => r.kept ++ d.command ++ r.list) ++ last

/-- The text in which they have been replaced. -/
def output (replaced : List Replaced) (last : List Char) : List Char :=
  replaced.flatMap (fun r => r.kept ++ r.value) ++ last

/-- Between stretches in which no complete call starts stand complete calls. Both depend on the text
behind them as it is in the source. -/
inductive Pass (d : Definition) : List Replaced → List Char → Prop where
  | nil {last : List Char} (hlast : d.Keeps last []) : Pass d [] last
  | cons {r : Replaced} {replaced : List Replaced} {last : List Char}
      (hkept : d.Keeps r.kept (d.command ++ r.list ++ d.source replaced last))
      (hcall : d.IsCall r.list (d.source replaced last) r.value)
      (hmore : Pass d replaced last) : Pass d (r :: replaced) last

theorem Keeps.nil (next : List Char) : d.Keeps [] next := by
  intro front back after hkept hback
  exact absurd (List.append_eq_nil_iff.1 hkept.symm).2 hback

theorem Keeps.append {a b next : List Char} (ha : d.Keeps a (b ++ next)) (hb : d.Keeps b next) :
    d.Keeps (a ++ b) next := by
  intro front back after hkept hback hname
  rcases List.append_eq_append_iff.1 hkept with ⟨front', rfl, hb'⟩ | ⟨back', ha', hback'⟩
  · exact hb front' back after hb' hback hname
  · by_cases hnil : back' = []
    · rw [hnil, List.nil_append] at hback'
      exact hb [] back after hback'.symm hback hname
    · rw [hback', List.append_assoc] at hname
      exact ha front back' after ha' hnil hname

/-- A text in front of a pass is kept with what the pass keeps first. -/
theorem Pass.exists_append {front last : List Char} {replaced : List Replaced}
    (h : d.Pass replaced last) (hfront : d.Keeps front (d.source replaced last)) :
    ∃ replaced' last', d.source replaced' last' = front ++ d.source replaced last ∧
      output replaced' last' = front ++ output replaced last ∧ d.Pass replaced' last' := by
  cases h with
  | nil hlast =>
    refine ⟨[], front ++ last, rfl, rfl, .nil ?_⟩
    exact Keeps.append (by simpa [source] using hfront) hlast
  | @cons r replaced last hkept hcall hmore =>
    refine ⟨⟨front ++ r.kept, r.list, r.value⟩ :: replaced, last, ?_, ?_, .cons ?_ hcall hmore⟩
    · simp [source]
    · simp [output]
    · exact Keeps.append (by simpa [source] using hfront) hkept

/-- A character at which the name does not stand is kept, whatever follows. -/
theorem keeps_singleton {c : Char} {next : List Char} (h : ¬d.command <+: c :: next) :
    d.Keeps [c] next := by
  intro front back after hkept hback hname
  have hlen := congrArg List.length hkept
  cases front with
  | nil =>
    obtain rfl : [c] = back := hkept
    exact absurd ⟨after, hname.symm⟩ h
  | cons x front =>
    have hnil : back = [] := by
      apply List.eq_nil_of_length_eq_zero
      simp only [List.length_append, List.length_cons, List.length_nil] at hlen
      omega
    exact absurd hnil hback

/-- A name that begins no complete call is kept. No other name starts in it, for it has no backslash
but the first. -/
theorem keeps_command (hname : '\\' ∉ d.name) {next : List Char} (h : d.call? next = none) :
    d.Keeps d.command next := by
  intro front back after hkept hback heq
  cases front with
  | nil =>
    obtain rfl : d.command = back := hkept
    obtain rfl := List.append_cancel_left heq
    exact call?_eq_none_iff.1 h
  | cons x front =>
    obtain ⟨c, back, rfl⟩ := List.exists_cons_of_ne_nil hback
    have hmem : c ∈ d.name := by
      rw [(List.cons.inj hkept).2]
      simp
    obtain ⟨rfl, -⟩ := List.cons.inj heq
    exact absurd hmem hname

/-- A pass reads the text once, from left to right: the text is cut into stretches in which no
complete call starts and complete calls between them, and the outcome has the values in the place of
the calls. Induction on the pass; each step puts a call or a stretch that is kept in front. Every
definition that is read has such a name (`notMem_name_of_ofLine?`). -/
theorem exists_pass (hname : '\\' ∉ d.name) (text : List Char) :
    ∃ replaced last, d.source replaced last = text ∧ output replaced last = d.apply text ∧
      d.Pass replaced last := by
  fun_induction d.apply text with
  | case1 => exact ⟨[], [], rfl, rfl, .nil (Keeps.nil [])⟩
  | case2 c s hnone ih =>
    obtain ⟨replaced, last, rfl, hout, hpass⟩ := ih
    rw [← hout]
    refine hpass.exists_append (keeps_singleton ?_)
    rintro ⟨after, heq⟩
    have hsome := Text.stripStart?_eq_some_iff.2 heq.symm
    rw [command, hnone] at hsome
    cases hsome
  | case3 c s after hat value rest hcall ih =>
    obtain ⟨replaced, last, rfl, hout, hpass⟩ := ih
    obtain ⟨list, rfl, hiscall⟩ := call?_eq_some_iff.1 hcall
    refine ⟨⟨[], list, value⟩ :: replaced, last, ?_, ?_, .cons (Keeps.nil _) hiscall hpass⟩
    · rw [Text.stripStart?_eq_some_iff.1 hat]
      simp [source, command]
    · simp [← hout, output]
  | case4 c s after hat hcall ih =>
    obtain ⟨replaced, last, rfl, hout, hpass⟩ := ih
    rw [Text.stripStart?_eq_some_iff.1 hat, ← hout]
    exact hpass.exists_append (keeps_command hname hcall)

/-- A call in an argument belongs to the call around it and is not replaced. Behind a name that
begins no complete call, a call that starts in what looks like its argument is. -/
theorem exists_pass_of_nested_calls :
    ∃ d, ofLine? "\\m(x) = \x7b[x]\x7d;".toList = some d ∧ '\\' ∉ d.name ∧
      ∃ replaced last, d.source replaced last = "\\m(\x7b\\m(a)\x7d) \\m(\\m(b))".toList ∧
        output replaced last = "[\\m(a)] \\m([b])".toList ∧ d.Pass replaced last := by
  obtain ⟨d, hd⟩ : ∃ d, ofLine? "\\m(x) = \x7b[x]\x7d;".toList = some d := ⟨_, rfl⟩
  have happly : (ofLine? "\\m(x) = \x7b[x]\x7d;".toList).map
      (·.apply "\\m(\x7b\\m(a)\x7d) \\m(\\m(b))".toList) = some "[\\m(a)] \\m([b])".toList := by
    decide +kernel
  rw [hd] at happly
  have hname := notMem_name_of_ofLine? hd
  obtain ⟨replaced, last, hsource, hout, hpass⟩ :=
    exists_pass hname "\\m(\x7b\\m(a)\x7d) \\m(\\m(b))".toList
  exact ⟨d, hd, hname, replaced, last, hsource, hout.trans (Option.some.inj happly), hpass⟩

end Definition

end Treatise.Abbreviation
