import Treatise.Markdown.Event
import Treatise.Proofs.Markdown.Tokens

/-!
# Running text before the end of the last line

What a passage says does not depend on the end of its last line. Reading a passage with that line end
goes in step with reading it without: the open brackets know of the line end behind the text, and
that is all.

* `Running.extend` — running text read in part, where the line end follows;
* `Running.take_extend` — the step for one token;
* **`readInlines_chomp`** — the inline content of a passage without the end of its last line.
-/

namespace Treatise.Markdown

/-! ## The text of a passage -/

/-- The passages stand in the same containers. Apart from the tokens, nothing else of a passage
counts. -/
structure Passage.Alike (p' p : Passage) : Prop where
  containers : p'.containers = p.containers
  isCell : p'.isCell = p.isCell

namespace Passage.Alike

variable {p' p : Passage} (h : p'.Alike p)
include h

theorem lineStart : p'.lineStart = p.lineStart := by
  funext s
  rw [Passage.lineStart, h.containers, Passage.lineStart]

theorem withoutMarks (bound : Nat) (s : List Char) :
    p'.withoutMarks bound s = p.withoutMarks bound s := by
  induction bound generalizing s with
  | zero => rfl
  | succ bound ih =>
    cases s with
    | nil => rfl
    | cons c s => rw [Passage.withoutMarks, Passage.withoutMarks, h.lineStart, ih, ih]

theorem plain : p'.plain = p.plain := by
  funext s
  simp only [Passage.plain, h.withoutMarks, h.isCell]

end Passage.Alike

theorem LineStop.local_lineStart {y : List Char} (hy : LineStop y) (p : Passage) :
    LineStep.Local (fun s => some (p.lineStart s)) ⟨y, []⟩ where
  suffix h := by
    obtain rfl := Option.some.inj h
    exact (p.localStart_lineStart hy.atLineEnd).suffix _
  within _ _ := by
    rw [Tail.text, List.append_nil, Option.map_some,
      (p.localStart_lineStart hy.atLineEnd).append]
  behind h := by
    obtain rfl := Option.some.inj h
    rw [(p.localStart_lineStart hy.atLineEnd).rest_nil]
    exact Blank.nil

/-- What is before a place in a text is not changed by what follows the text. -/
theorem take_append_sub {x y : List Char} {n m k : Nat} (hn : n = x.length) :
    (x ++ y).take (n + y.length - (m + y.length) - k) = x.take (n - m - k) := by
  rw [Nat.add_sub_add_right, List.take_append_of_le_length (by omega)]

/-! ## What stays -/

def Bracket.extend (y : List Char) (b : Bracket) : Bracket :=
  { b with after := b.after ++ y, left := b.left + y.length }

namespace Running

/-- Running text, where more text follows behind the passage. -/
def extend (y : List Char) (r : Running) : Running :=
  { r with
    brackets := r.brackets.map (·.extend y)
    spent := r.spent.map (· + y.length) }

/-- What is behind the open brackets. -/
def places (r : Running) : List (List Char × Nat) := r.brackets.map fun b => (b.after, b.left)

/-- The open brackets stand in the text. -/
def StandsIn (x : List Char) (r : Running) : Prop :=
  ∀ q ∈ r.places, q.2 = q.1.length ∧ q.1 <:+ x

theorem append_extend (y : List Char) (r : Running) (items : List Item) :
    (r.extend y).append items = (r.append items).extend y := by
  obtain ⟨_, brackets, _⟩ := r
  cases brackets <;> rfl

theorem add_extend (y : List Char) (r : Running) (i : Inline) :
    (r.extend y).add i = (r.add i).extend y := append_extend y r _

theorem places_append (r : Running) (items : List Item) : (r.append items).places = r.places := by
  obtain ⟨_, brackets, _⟩ := r
  cases brackets <;> rfl

theorem places_add (r : Running) (i : Inline) : (r.add i).places = r.places := places_append r _

theorem deactivate_extend (y : List Char) (r : Running) :
    (r.extend y).deactivate = r.deactivate.extend y := by
  simp only [deactivate, extend, List.map_map]
  congr 1
  refine List.map_congr_left fun b _ => ?_
  by_cases hb : b.image = true <;> simp [Bracket.extend, hb]

theorem places_deactivate (r : Running) : r.deactivate.places = r.places := by
  simp only [places, deactivate, List.map_map]
  refine List.map_congr_left fun b _ => ?_
  by_cases hb : b.image = true <;> simp [hb]

theorem behind_map (y : List Char) (n : Nat) (ts : List Token) :
    behind (n + y.length) (ts.map (·.extend y)) = (behind n ts).map (·.extend y) := by
  rw [behind, List.dropWhile_map, behind]
  congr 2
  funext t
  exact decide_eq_decide.2 (Nat.add_le_add_iff_right ..)

theorem behind_suffix (n : Nat) (ts : List Token) : behind n ts <:+ ts := List.dropWhile_suffix _

/-! ## Code and mathematics -/

/-- The token is not the run of backticks that closes one of the given length. -/
def isOtherRun (count : Nat) (t : Token) : Bool :=
  match t.piece with
  | .ticks n _ => n != count
  | _ => true

section Code

variable {p : Passage} {count : Nat} {t : Token} {ts : List Token}

theorem code?_of_nil (h : ts.dropWhile (isOtherRun count) = []) : code? p count t ts = none := by
  unfold code?
  split
  next => rfl
  next heq => cases heq.symm.trans h

theorem code?_of_cons {u : Token} {rest : List Token}
    (h : ts.dropWhile (isOtherRun count) = u :: rest) :
    code? p count t ts = some (codeText p (t.after.take (t.left - u.left - count)), rest) := by
  unfold code?
  split
  next heq => cases heq.symm.trans h
  next heq =>
    obtain ⟨rfl, rfl⟩ := List.cons.inj (heq.symm.trans h)
    rfl

theorem dropWhile_extend (count : Nat) (ts : List Token) (y : List Char) :
    (ts.map (·.extend y)).dropWhile (isOtherRun count) =
      (ts.dropWhile (isOtherRun count)).map (·.extend y) :=
  List.dropWhile_map ..

end Code

section Stop

variable {y : List Char} (hy : LineStop y) {p' p : Passage} (hp : p'.Alike p)
include hy hp

omit hy in
theorem codeText_alike (s : List Char) : codeText p' s = codeText p s := by
  rw [codeText, hp.plain, codeText]

omit hy in
theorem code?_extend (count : Nat) {t : Token} (ht : t.left = t.after.length) (ts : List Token) :
    code? p' count (t.extend y) (ts.map (·.extend y)) =
      (code? p count t ts).map fun q => (q.1, q.2.map (·.extend y)) := by
  have hextend := dropWhile_extend count ts y
  cases h : ts.dropWhile (isOtherRun count) with
  | nil =>
    rw [h] at hextend
    rw [code?_of_nil h, code?_of_nil hextend]
    rfl
  | cons u rest =>
    rw [h] at hextend
    rw [code?_of_cons h, code?_of_cons hextend, codeText_alike hp]
    exact congrArg (fun s => some (codeText p s, rest.map (·.extend y)))
      (take_append_sub (m := u.left) (k := count) ht)

omit hy hp in
theorem nextDollar?_map (group : Nat) (ts : List Token) :
    nextDollar? group (ts.map (·.extend y)) =
      (nextDollar? group ts).map fun q => (q.1.extend y, q.2.1, q.2.2.map (·.extend y)) := by
  induction ts with
  | nil => rfl
  | cons t ts ih =>
    rw [List.map_cons, nextDollar?, nextDollar?, ih]
    have hpiece : (t.extend y).piece = t.piece := rfl
    rw [hpiece]
    cases t.piece with
    | dollar canOpen canClose g =>
      dsimp only
      split <;> rfl
    | _ => rfl

omit hy in
theorem math?_extend (group : Nat) {t : Token} (ht : t.left = t.after.length) {ts : List Token}
    (hts : ∀ u ∈ ts, u.left = u.after.length) :
    math? p' group (t.extend y) (ts.map (·.extend y)) =
      (math? p group t ts).map fun q => (q.1, q.2.map (·.extend y)) := by
  cases ts with
  | nil => rfl
  | cons u us =>
    have hu := hts u (.head _)
    have hdollar (v : Token) : isDollar (v.extend y) = isDollar v := rfl
    have hnext := nextDollar?_map (y := y) group (u :: us)
    rw [List.map_cons] at hnext
    rw [List.map_cons, math?, math?]
    simp only [hdollar, hnext, nextDollar?_map, hp.plain]
    -- two dollars open displayed math, one opens math in a line
    split
    · cases nextDollar? group us with
      | none => rfl
      | some q =>
        obtain ⟨v, canClose, _ | ⟨w, rest⟩⟩ := q
        · rfl
        · simp only [Option.map_some, List.map_cons, hdollar]
          split
          · exact congrArg (fun s => some (Inline.math true (p.plain s), rest.map (·.extend y)))
              (take_append_sub (m := v.left) (k := 1) hu)
          · rfl
    · cases nextDollar? group (u :: us) with
      | none => rfl
      | some q =>
        obtain ⟨v, _ | _, rest⟩ := q
        · rfl
        · exact congrArg (fun s => some (Inline.math false (p.plain s), rest.map (·.extend y)))
            (take_append_sub (m := v.left) (k := 1) ht)

/-! ## Angle brackets -/

theorem angle?_extend {t : Token} (ht : t.left = t.after.length) (hx : EndsInLine t.after) :
    angle? p' (t.extend y) = (angle? p t).map (behindBy y) := by
  -- what is cut off in front of the rest is the same, as both ends move by the line end
  have hupTo (rest : List Char) :
      (t.after ++ y).take (t.left + y.length - (rest ++ y).length) =
        t.after.take (t.left - rest.length) := by
    rw [List.length_append]
    exact take_append_sub (m := rest.length) (k := 0) ht
  have htag := RawHtml.readTag?_append hy (p.localStart_lineStart hy.atLineEnd) hx
    (show _ < t.left + 1 by omega)
    (show _ < t.left + y.length + 1 by rw [List.length_append]; omega)
  simp only [angle?, Token.extend, uri?_append hy.atLineEnd, mail?_append hy.atLineEnd,
    RawHtml.readSpecial?_append hy, hp.lineStart, hp.withoutMarks, htag]
  cases uri? t.after with
  | some q => rfl
  | none =>
    cases mail? t.after with
    | some q => rfl
    | none =>
      simp only [Option.map_none, Option.orElse_eq_orElse, Option.orElse_none]
      cases RawHtml.readSpecial? t.after with
      | some rest =>
        simp only [Option.map_some, hupTo]
        rfl
      | none =>
        simp only [Option.map_none]
        cases RawHtml.readTag? (fun s => some (p.lineStart s)) (t.left + 1) t.after with
        | none => rfl
        | some rest =>
          simp only [Option.map_some, hupTo]
          rfl

end Stop

/-! ## Closing brackets -/

/-- A closing bracket, where more text follows behind the passage. -/
def Closing.extend (y : List Char) : Closing → Closing
  | .link target rest => .link target (rest ++ y)
  | .failed labelEnd => .failed (labelEnd + y.length)
  | .text => .text

/-- The label at the start of a text, and what follows it. -/
def label? (p : Passage) (bound : Nat) (s : List Char) : Option (List Char × List Char) :=
  (readLabel? (fun s => some (p.lineStart s)) bound s).map fun q =>
    (if p.isCell then Passage.withoutEscapes q.1 else q.1, q.2)

/-- A closing bracket behind a text that is its own label. -/
def closingBare (definitions : List LinkDefinition) (p : Passage) (spent : Bool) (b : Bracket)
    (t : Token) (rest : List Char) : Closing :=
  if spent ∨ !t.tail.isEmpty then .text
  else
    match label? p b.left b.after with
    | some (label, behindLabel) =>
      if behindLabel.length = t.left then
        match target? definitions label with
        | some target => .link target rest
        | none => .text
      else .text
    | none => .text

/-- A closing bracket, where a label may follow. -/
def closingReference (definitions : List LinkDefinition) (p : Passage) (spent : Bool) (b : Bracket)
    (t : Token) (s : List Char) : Closing :=
  match s with
  | '[' :: ']' :: rest => closingBare definitions p spent b t rest
  | '[' :: s =>
    match label? p t.left s with
    | some (label, rest) =>
      match target? definitions label with
      | some target => .link target rest
      | none => .failed rest.length
    | none => closingBare definitions p spent b t t.after
  | _ => closingBare definitions p spent b t t.after

theorem closingReference_bracket (definitions : List LinkDefinition) (p : Passage) (spent : Bool)
    (b : Bracket) (t : Token) {s : List Char} (hs : s.head? ≠ some ']') :
    closingReference definitions p spent b t ('[' :: s) =
      match label? p t.left s with
      | some (label, rest) =>
        match target? definitions label with
        | some target => .link target rest
        | none => .failed rest.length
      | none => closingBare definitions p spent b t t.after := by
  unfold closingReference
  split
  next heq =>
    obtain rfl := (List.cons.inj heq).2
    exact absurd rfl hs
  next heq => rw [(List.cons.inj heq).2]
  next hno => exact absurd rfl (hno s)

theorem closing_eq (definitions : List LinkDefinition) (p : Passage) (spent : Bool) (b : Bracket)
    (t : Token) :
    closing definitions p spent b t =
      match t.after with
      | '(' :: s =>
        match LinkTarget.read? p.lineStart p.plain t.left s with
        | some (target, rest) => .link target rest
        | none => closingBare definitions p spent b t t.after
      | '\\' :: s => closingReference definitions p spent b t s
      | s => closingReference definitions p spent b t s := rfl

section Stop

variable {y : List Char} (hy : LineStop y) {p' p : Passage} (hp : p'.Alike p)
include hy hp

theorem label?_extend {bound bound' : Nat} {x : List Char} (hx : EndsInLine x)
    (hb : x.length ≤ bound) (hb' : x.length ≤ bound') :
    label? p' bound' (x ++ y) = (label? p bound x).map (behindBy y) := by
  have hread := readLabel?_tail hy.valid (hy.local_lineStart p) hx hb hb'
  rw [Tail.text, List.append_nil] at hread
  rw [label?, label?, hp.lineStart, hp.isCell, hread, Option.map_map, Option.map_map]
  rfl

variable (definitions : List LinkDefinition) (spent : Bool) {b : Bracket}
  (hb : b.left = b.after.length) (hbx : EndsInLine b.after) {t : Token}
  (ht : t.left = t.after.length) (htx : EndsInLine t.after)
include hb hbx

theorem closingBare_extend (rest : List Char) :
    closingBare definitions p' spent (b.extend y) (t.extend y) (rest ++ y) =
      (closingBare definitions p spent b t rest).extend y := by
  have hlabel := label?_extend hy hp hbx (show _ ≤ b.left by omega)
    (show _ ≤ b.left + y.length by omega)
  have hlen (r : List Char) : (r ++ y).length = t.left + y.length ↔ r.length = t.left := by
    rw [List.length_append, Nat.add_right_cancel_iff]
  simp only [closingBare, Bracket.extend, Token.extend, hlabel]
  split
  · rfl
  · cases label? p b.left b.after with
    | none => rfl
    | some q =>
      simp only [Option.map_some, behindBy, hlen]
      split
      · cases target? definitions q.1 <;> rfl
      · rfl

theorem closingReference_extend {s : List Char} (hs : EndsInLine s) (hle : s.length ≤ t.left) :
    closingReference definitions p' spent (b.extend y) (t.extend y) (s ++ y) =
      (closingReference definitions p spent b t s).extend y := by
  have hbare : closingBare definitions p' spent (b.extend y) (t.extend y) (t.extend y).after =
      (closingBare definitions p spent b t t.after).extend y :=
    closingBare_extend hy hp definitions spent hb hbx t.after
  cases s with
  | nil => rcases hy.eq with rfl | rfl | rfl <;> exact hbare
  | cons c s =>
    by_cases hc : c = '['
    · subst hc
      by_cases hclose : s.head? = some ']'
      · -- the text is the label
        obtain ⟨rest, rfl⟩ := List.head?_eq_some_iff.1 hclose
        exact closingBare_extend hy hp definitions spent hb hbx rest
      · have hclose' : (s ++ y).head? ≠ some ']' := mt (head?_append hy.atLineEnd rfl s).1 hclose
        rw [List.length_cons] at hle
        have hlabel : label? p' (t.extend y).left (s ++ y) = (label? p t.left s).map (behindBy y) :=
          label?_extend hy hp hs.tail (by omega) (show _ ≤ t.left + y.length by omega)
        rw [List.cons_append, closingReference_bracket _ _ _ _ _ hclose,
          closingReference_bracket _ _ _ _ _ hclose', hlabel, hbare]
        cases label? p t.left s with
        | none => rfl
        | some q =>
          simp only [Option.map_some, behindBy]
          cases target? definitions q.1 with
          | some target => rfl
          | none => exact congrArg Closing.failed List.length_append
    · simpa [closingReference, hc] using hbare

include ht htx in
theorem closing_extend :
    closing definitions p' spent (b.extend y) (t.extend y) =
      (closing definitions p spent b t).extend y := by
  have hbare : closingBare definitions p' spent (b.extend y) (t.extend y) (t.extend y).after =
      (closingBare definitions p spent b t t.after).extend y :=
    closingBare_extend hy hp definitions spent hb hbx t.after
  have hreference {s : List Char} (hs : s <:+ t.after) :=
    closingReference_extend hy hp definitions spent hb hbx (t := t) (htx.of_suffix hs)
      (by have := hs.length_le; omega)
  rw [closing_eq, closing_eq]
  have hafter : (t.extend y).after = t.after ++ y := rfl
  cases hs : t.after with
  | nil =>
    -- a line end opens neither a target nor a label
    have hnil := hreference List.nil_suffix
    rw [hafter, hs]
    rcases hy.eq with rfl | rfl | rfl <;> exact hnil
  | cons c s =>
    rw [hs] at htx hreference
    have hlen : s.length + 1 = t.left := by rw [ht, hs, List.length_cons]
    have hs' : s <:+ c :: s := List.suffix_cons c s
    by_cases hround : c = '('
    · subst hround
      have hread : LinkTarget.read? p.lineStart p.plain (t.extend y).left (s ++ y) =
          (LinkTarget.read? p.lineStart p.plain t.left s).map (behindBy y) :=
        LinkTarget.read?_append hy (p.localStart_lineStart hy.atLineEnd) p.plain htx.tail (by omega)
          (show _ ≤ t.left + y.length by omega)
      rw [hafter, hs] at hbare ⊢
      simp only [List.cons_append, hp.lineStart, hp.plain, hread]
      cases LinkTarget.read? p.lineStart p.plain t.left s with
      | none => exact hbare
      | some q => rfl
    · by_cases hslash : c = '\\'
      · subst hslash
        rw [hafter, hs]
        exact hreference hs'
      · rw [hafter, hs]
        simpa [hround, hslash] using hreference (List.suffix_refl (c :: s))

end Stop

/-! ## One token -/

theorem takeClosing_cons (definitions : List LinkDefinition) (p : Passage) (around : Running)
    (b : Bracket) (t : Token) (ts : List Token) :
    takeClosing definitions p { around with brackets := b :: around.brackets } t ts =
      let asText := (around.append (Bracket.asText b)).add (.text t.literal)
      if !b.active then (asText, ts)
      else
        match closing definitions p (around.spent.contains t.left) b t with
        | .text => (asText, ts)
        | .failed labelEnd => ({ asText with spent := labelEnd :: around.spent }, ts)
        | .link target rest =>
          let content := resolveItems (b.items.any Item.isRun) b.items
          if b.image then (around.add (.image target content), behind rest.length ts)
          else ((around.add (.link target content)).deactivate, behind rest.length ts) := rfl

theorem takeClosing_suffix (definitions : List LinkDefinition) (p : Passage) (r : Running) (t : Token)
    (ts : List Token) : (r.takeClosing definitions p t ts).2 <:+ ts := by
  rw [takeClosing]
  cases r.brackets with
  | nil => exact List.suffix_refl ts
  | cons b brackets =>
    dsimp only
    split
    · exact List.suffix_refl ts
    · split
      · exact List.suffix_refl ts
      · exact List.suffix_refl ts
      · split <;> exact behind_suffix _ ts

theorem code?_suffix {p : Passage} {count : Nat} {t : Token} {ts : List Token}
    {q : List Char × List Token} (h : code? p count t ts = some q) : q.2 <:+ ts := by
  rw [code?] at h
  split at h
  · cases h
  next heq =>
    obtain rfl := Option.some.inj h
    exact (List.suffix_cons _ _).trans (heq ▸ List.dropWhile_suffix _)

theorem nextDollar?_suffix {group : Nat} {ts : List Token} {q : Token × Bool × List Token}
    (h : nextDollar? group ts = some q) : q.2.2 <:+ ts := by
  induction ts with
  | nil => cases h
  | cons t ts ih =>
    rw [nextDollar?] at h
    split at h
    · split at h
      · obtain rfl := Option.some.inj h
        exact List.suffix_cons t ts
      · exact (ih h).trans (List.suffix_cons t ts)
    · exact (ih h).trans (List.suffix_cons t ts)

theorem math?_suffix {p : Passage} {group : Nat} {t : Token} {ts : List Token}
    {q : Inline × List Token} (h : math? p group t ts = some q) : q.2 <:+ ts := by
  cases ts with
  | nil => cases h
  | cons u us =>
    rw [math?] at h
    split at h
    · split at h
      next heq =>
        split at h
        · obtain rfl := Option.some.inj h
          exact (List.suffix_cons _ _).trans ((nextDollar?_suffix heq).trans (List.suffix_cons u us))
        · cases h
      · cases h
    · split at h
      next heq =>
        obtain rfl := Option.some.inj h
        exact nextDollar?_suffix heq
      · cases h

theorem take_suffix (definitions : List LinkDefinition) (p : Passage) (r : Running) (t : Token)
    (ts : List Token) : (r.take definitions p t ts).2 <:+ ts := by
  rw [take]
  cases t.piece with
  | closeBracket => exact takeClosing_suffix definitions p r t ts
  | angle =>
    dsimp only
    split
    · exact behind_suffix _ ts
    · exact List.suffix_refl ts
  | dollar canOpen canClose group =>
    dsimp only
    split
    next heq =>
      split at heq
      · exact math?_suffix heq
      · cases heq
    · exact List.suffix_refl ts
  | ticks count escaped =>
    dsimp only
    generalize (if escaped = true then 1 else 0) = literal
    split
    next heq =>
      split at heq
      · exact code?_suffix heq
      · cases heq
    · exact List.suffix_refl ts
  | _ => exact List.suffix_refl ts

/-- A token opens a bracket or closes one, or leaves the open ones as they are. -/
theorem places_take (definitions : List LinkDefinition) (p : Passage) (r : Running) (t : Token)
    (ts : List Token) :
    (r.take definitions p t ts).1.places <:+ (t.after, t.left) :: r.places := by
  have hsame {r' : Running} (h : r'.places = r.places) :
      r'.places <:+ (t.after, t.left) :: r.places := h ▸ List.suffix_cons _ _
  rw [take]
  cases t.piece with
  | openBracket => exact List.suffix_refl _
  | closeBracket =>
    dsimp only
    rw [takeClosing]
    cases hr : r.brackets with
    | nil => exact hsame (places_add ..)
    | cons b brackets =>
      have hless {r' : Running} (h : r'.places = Running.places { r with brackets }) :
          r'.places <:+ (t.after, t.left) :: r.places := by
        rw [h, places, places, hr]
        exact (List.suffix_cons _ _).trans (List.suffix_cons _ _)
      dsimp only
      split
      · exact hless ((places_add ..).trans (places_append ..))
      · split
        · exact hless ((places_add ..).trans (places_append ..))
        · exact hless ((places_add ..).trans (places_append ..))
        · split
          · exact hless (places_add ..)
          · exact hless ((places_deactivate _).trans (places_add ..))
  | angle =>
    dsimp only
    split <;> exact hsame (places_add ..)
  | dollar =>
    dsimp only
    split <;> exact hsame (places_add ..)
  | ticks =>
    dsimp only
    split
    · refine hsame ((places_add ..).trans ?_)
      split
      · exact places_add ..
      · rfl
    · exact hsame (places_add ..)
  | _ => exact hsame (places_append ..)

section Stop

variable {y : List Char} (hy : LineStop y) {p' p : Passage} (hp : p'.Alike p) {x : List Char}
  (hx : EndsInLine x) (definitions : List LinkDefinition) {r : Running} (hr : r.StandsIn x)
  {t : Token} (ht : t.StandsIn x)
include hy hp hx hr ht

theorem takeClosing_extend (ts : List Token) :
    (r.extend y).takeClosing definitions p' (t.extend y) (ts.map (·.extend y)) =
      ((r.takeClosing definitions p t ts).1.extend y,
        (r.takeClosing definitions p t ts).2.map (·.extend y)) := by
  cases hbrackets : r.brackets with
  | nil =>
    have hnil : (r.extend y).brackets = [] := by rw [extend, hbrackets]; rfl
    simp only [takeClosing, hbrackets, hnil, add_extend]
    rfl
  | cons b brackets =>
    -- the innermost open bracket is the one that may be closed
    obtain ⟨around, rfl⟩ : ∃ around : Running, r = { around with brackets := b :: around.brackets } :=
      ⟨{ r with brackets }, by rw [← hbrackets]⟩
    obtain ⟨hb, hbx⟩ := hr (b.after, b.left) (.head _)
    have hspent : (around.extend y).spent.contains (t.extend y).left =
        around.spent.contains t.left := by
      simp [extend, Token.extend, List.contains_eq_mem]
    have hclosing := closing_extend hy hp definitions (around.spent.contains t.left) hb
      (hx.of_suffix hbx) ht.left (hx.of_suffix ht.after)
    have htext : ((around.extend y).append (Bracket.asText b)).add (.text t.literal) =
        ((around.append (Bracket.asText b)).add (.text t.literal)).extend y := by
      rw [append_extend, add_extend]
    have hitems : Bracket.asText (b.extend y) = Bracket.asText b := rfl
    have hliteral : (t.extend y).literal = t.literal := rfl
    have hactive : (b.extend y).active = b.active := rfl
    refine (takeClosing_cons definitions p' (around.extend y) (b.extend y) (t.extend y) _).trans ?_
    rw [takeClosing_cons, hspent, hclosing, hitems, hliteral, hactive, htext]
    cases b.active with
    | false => rfl
    | true =>
      cases closing definitions p (around.spent.contains t.left) b t with
      | text => rfl
      | failed labelEnd => rfl
      | link target rest =>
        simp only [Closing.extend, List.length_append, behind_map, add_extend, deactivate_extend]
        by_cases himage : b.image = true <;> simp [himage, Bracket.extend]

theorem take_extend {ts : List Token} (hts : ∀ u ∈ ts, u.StandsIn x) :
    (r.extend y).take definitions p' (t.extend y) (ts.map (·.extend y)) =
      ((r.take definitions p t ts).1.extend y, (r.take definitions p t ts).2.map (·.extend y)) := by
  have hcode (count : Nat) := code?_extend (y := y) hp count ht.left ts
  have hmath (group : Nat) := math?_extend (y := y) hp group ht.left fun u hu => (hts u hu).left
  have hangle := angle?_extend hy hp ht.left (hx.of_suffix ht.after)
  have hadd (i : Inline) := add_extend y r i
  have hliteral : (t.extend y).literal = t.literal := rfl
  have hpiece : (t.extend y).piece = t.piece := rfl
  -- only brackets, angles, dollars and backticks look at the text behind them
  rw [take, take, hpiece]
  cases t.piece with
  | text s => exact congrArg (·, ts.map (·.extend y)) (hadd _)
  | reference s => exact congrArg (·, ts.map (·.extend y)) (hadd _)
  | softBreak => exact congrArg (·, ts.map (·.extend y)) (hadd _)
  | hardBreak backslash => exact congrArg (·, ts.map (·.extend y)) (append_extend y r _)
  | run => exact congrArg (·, ts.map (·.extend y)) (append_extend y r _)
  | openBracket => rfl
  | closeBracket => exact takeClosing_extend hy hp hx definitions hr ht ts
  | angle =>
    dsimp only
    rw [hangle, hliteral, hadd]
    cases angle? p t with
    | none => rfl
    | some q =>
      simp only [Option.map_some, behindBy, hadd, List.length_append, behind_map]
  | dollar canOpen canClose group =>
    dsimp only
    rw [hmath, hliteral, hadd]
    cases canOpen with
    | false => rfl
    | true =>
      simp only [if_true]
      cases math? p group t ts with
      | none => rfl
      | some q => simp only [Option.map_some, hadd]
  | ticks count escaped =>
    dsimp only
    generalize (if escaped = true then 1 else 0) = literal
    rw [hcode, hliteral]
    by_cases hcount : literal < count
    · simp only [if_pos hcount]
      cases code? p (count - literal) t ts with
      | none => exact congrArg (·, ts.map (·.extend y)) (hadd _)
      | some q =>
        cases escaped <;> simp only [Option.map_some, add_extend, if_true, Bool.false_eq_true,
          if_false]
    · simp only [if_neg hcount, hadd]

omit hr ht in
theorem takeAll_extend (bound : Nat) {r : Running} (hr : r.StandsIn x) {ts : List Token}
    (hts : ∀ u ∈ ts, u.StandsIn x) :
    (r.extend y).takeAll definitions p' bound (ts.map (·.extend y)) =
      (r.takeAll definitions p bound ts).extend y := by
  induction bound generalizing r ts with
  | zero => rfl
  | succ bound ih =>
    cases ts with
    | nil => rfl
    | cons t ts =>
      obtain ⟨ht, hts⟩ := List.forall_mem_cons.1 hts
      have hstep := take_extend hy hp hx definitions hr ht hts
      have hr' : (r.take definitions p t ts).1.StandsIn x := by
        intro q hq
        rcases List.mem_cons.1 ((places_take definitions p r t ts).subset hq) with rfl | hq
        · exact ⟨ht.left, ht.after⟩
        · exact hr q hq
      rw [List.map_cons, takeAll, hstep, takeAll]
      exact ih hr' fun u hu => hts u ((take_suffix definitions p r t ts).subset hu)

end Stop

theorem finish_extend (y : List Char) (marked : Bool) (r : Running) :
    (r.extend y).finish marked = r.finish marked := by
  rw [finish, finish, extend, List.flatMap_map]
  rfl

end Running

/-! ## Passages -/

theorem readInlines_append (definitions : List LinkDefinition) (ks : List Container) {x y : List Char}
    (hx : EndsInLine x) (hy : LineStop y) :
    readInlines definitions ⟨ks, x ++ y, 0, false⟩ = readInlines definitions ⟨ks, x, 0, false⟩ := by
  have hp : Passage.Alike ⟨ks, x ++ y, 0, false⟩ ⟨ks, x, 0, false⟩ := ⟨rfl, rfl⟩
  have hempty : Running.StandsIn x .empty := fun _ hq => by cases hq
  have hstands : ∀ t ∈ tokens ⟨ks, x, 0, false⟩, t.StandsIn x := fun _ ht =>
    standsIn_of_mem_tokens ht
  have hall := Running.takeAll_extend hy hp hx definitions
    (tokens ⟨ks, x, 0, false⟩).length hempty hstands
  rw [readInlines, tokens_append hy ks hx, readInlines, List.length_map, List.any_map]
  exact (congrArg (Running.finish _) hall).trans (Running.finish_extend y _ _)

theorem exists_chompLine_append (s : List Char) :
    ∃ y, LineStop y ∧ s = Text.chompLine s ++ y := by
  have hs : s.reverse.reverse = s := List.reverse_reverse s
  rw [Text.chompLine]
  split
  next r heq =>
    rw [heq] at hs
    exact ⟨['\r', '\n'], ⟨.inr (.inr rfl)⟩, by simpa using hs.symm⟩
  next r _ heq =>
    rw [heq] at hs
    exact ⟨['\n'], ⟨.inr (.inl rfl)⟩, by simpa using hs.symm⟩
  next => exact ⟨[], ⟨.inl rfl⟩, (List.append_nil s).symm⟩

/-- What a passage says does not depend on the end of its last line. -/
theorem readInlines_chomp (definitions : List LinkDefinition) (p : Passage) :
    readInlines definitions p.chomp = readInlines definitions p := by
  rw [Passage.chomp]
  split
  next h =>
    obtain ⟨ks, s, tail, isCell⟩ := p
    obtain ⟨rfl, rfl, hs⟩ := h
    obtain ⟨y, hy, heq⟩ := exists_chompLine_append s
    have := readInlines_append definitions ks hs hy
    rw [← heq] at this
    exact this.symm
  next => rfl

/-! ## Blocks -/

mutual

theorem blockEvents_chomp (definitions : List LinkDefinition) (tight : Bool) (b : Block) :
    blockEvents definitions tight b.chomp = blockEvents definitions tight b := by
  cases b with
  | paragraph p =>
    simp only [Block.chomp, blockEvents, passageEvents, readInlines_chomp]
  | heading level p =>
    simp only [Block.chomp, blockEvents, passageEvents, readInlines_chomp]
  | quote content => rw [Block.chomp, blockEvents, blocksEvents_chomp, blockEvents]
  | list tight number items => rw [Block.chomp, blockEvents, itemsEvents_chomp, blockEvents]
  | code language s => rfl
  | html s => rfl
  | rule => rfl
  | table head rows => rfl

theorem blocksEvents_chomp (definitions : List LinkDefinition) (tight : Bool) (bs : List Block) :
    blocksEvents definitions tight (chompBlocks bs) = blocksEvents definitions tight bs := by
  cases bs with
  | nil => rfl
  | cons b bs =>
    rw [chompBlocks, blocksEvents, blockEvents_chomp, blocksEvents_chomp, blocksEvents]

theorem itemsEvents_chomp (definitions : List LinkDefinition) (tight : Bool)
    (items : List (List Block)) :
    itemsEvents definitions tight (chompItems items) = itemsEvents definitions tight items := by
  cases items with
  | nil => rfl
  | cons item items =>
    rw [chompItems, itemsEvents, blocksEvents_chomp, itemsEvents_chomp, itemsEvents]

end

end Treatise.Markdown
