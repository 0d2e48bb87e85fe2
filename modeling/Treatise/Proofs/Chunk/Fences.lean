import Treatise.Proofs.Chunk.Places
import Treatise.Proofs.Markdown.Recognisers

/-!
# Fences for chunks

A blank line stays in a chunk where a fence of code is open. What the chunks take for a fence is not
quite what Markdown does: they look at the marks only, and not at what follows these on the line.

* `Chunk.Fence.IsOpen` — a fence is open behind lines, by a rule for what may follow the marks: by
  `Rule.markdown`, or by `Rule.marks`, where anything may.
* **`Chunk.Fence.Exact`** — on none of the lines do the marks alone make a fence, or close one;
  up to there the two rules agree (`isOpen_marks_iff`), and right behind the first line where they do
  they disagree (`exists_isOpen_marks_iff_of_isLoose`).
* **`Chunk.keeps_blank_line_iff`** — which blank lines chunks keep.
-/

namespace Treatise

namespace Chunk

namespace Fence

/-- The line is indented by at most three spaces and goes on with the marks of the fence, three or
more backticks or tildes; the information behind them does not begin with one more. -/
structure Begins (f : Fence) (line info : List Char) : Prop where
  mark : f.mark = '\x60' ∨ f.mark = '~'
  size : 3 ≤ f.size
  line : ∃ indent ≤ 3,
    line = List.replicate indent ' ' ++ (List.replicate f.size f.mark ++ info)
  whole : info.head? ≠ some f.mark

/-- What may follow the marks of a fence on the line that opens it, and on the line that closes it. -/
structure Rule where
  opens : Fence → List Char → Bool
  closes : List Char → Bool

/-- No backtick follows backticks that open a fence, and nothing but spaces and tabs follows marks
that close one. -/
def Rule.markdown : Rule where
  opens f info := f.mark != '\x60' || !info.contains '\x60'
  closes info := info.all fun c => c == ' ' || c == '\t'

/-- Anything follows the marks. -/
def Rule.marks : Rule where
  opens _ _ := true
  closes _ := true

/-- The line opens the fence, if it is not inside one. -/
def Opens (r : Rule) (f : Fence) (line : List Char) : Prop :=
  ∃ info, f.Begins line info ∧ r.opens f info = true

/-- The line closes the fence: it has the same marks, and as many at least. -/
def Closes (r : Rule) (f : Fence) (line : List Char) : Prop :=
  ∃ g info, Begins g line info ∧ g.mark = f.mark ∧ f.size ≤ g.size ∧ r.closes info = true

/-- The fence is open behind the lines: one of them opens it, behind which no fence was open, and none
of the lines from there on closes it. -/
def IsOpen (r : Rule) (f : Fence) (lines : List (List Char)) : Prop :=
  ∃ front opener inner, ∃ _ : lines = front ++ opener :: inner,
    (∀ g, ¬IsOpen r g front) ∧ Opens r f opener ∧ ∀ line ∈ inner, ¬Closes r f line
termination_by lines.length
decreasing_by subst lines; simp

variable {r : Rule} {f g : Fence} {line info info' : List Char} {lines : List (List Char)}

/-! ## Marks on a line -/

theorem takeWhile_replicate_append {c : Char} {s : List Char} (h : s.head? ≠ some c) (n : Nat) :
    (List.replicate n c ++ s).takeWhile (· == c) = List.replicate n c ∧
      (List.replicate n c ++ s).dropWhile (· == c) = s := by
  induction n with
  | zero =>
    cases s with
    | nil => exact ⟨rfl, rfl⟩
    | cons d s =>
      have hd : (d == c) = false := by simpa using h
      simp [hd]
  | succ n ih => simpa [List.replicate_succ] using ih

theorem eq_replicate_takeWhile (c : Char) (s : List Char) :
    s.takeWhile (· == c) = List.replicate (s.takeWhile (· == c)).length c :=
  List.eq_replicate_iff.2 ⟨rfl, fun _ hd => by
    simpa using List.mem_takeWhile_imp (p := (· == c)) hd⟩

/-- The marks on a line, and what is behind them, are behind its spaces. -/
theorem Begins.dropWhile_eq (h : f.Begins line info) :
    (line.takeWhile (· == ' ')).length ≤ 3 ∧
      line.dropWhile (· == ' ') = List.replicate f.size f.mark ++ info := by
  obtain ⟨indent, hindent, hline⟩ := h.line
  have hhead : (List.replicate f.size f.mark ++ info).head? ≠ some ' ' := by
    obtain ⟨n, hn⟩ := Nat.exists_eq_add_of_le' h.size
    rcases h.mark with hmark | hmark <;> simp [hn, hmark, List.replicate_succ]
  obtain ⟨htake, hdrop⟩ := takeWhile_replicate_append hhead indent
  rw [hline, htake, hdrop, List.length_replicate]
  exact ⟨hindent, rfl⟩

/-- The chunks find the marks of a fence. -/
theorem ofLine?_eq_some_iff : ofLine? line = some f ↔ ∃ info, f.Begins line info := by
  constructor
  · intro h
    -- a line that is read falls into its spaces, its marks and what is behind them
    have hdrop := Markdown.drop_length_takeWhile (· == ' ') line
    simp only [ofLine?, hdrop] at h
    split at h
    · cases h
    next hindent =>
      split at h
      · cases h
      next c rest hrest =>
        split at h
        next hmark =>
          split at h
          next hsize =>
            obtain rfl := Option.some.inj h
            refine ⟨(c :: rest).dropWhile (· == c), hmark, hsize,
              ⟨(line.takeWhile (· == ' ')).length, by omega, ?_⟩, ?_⟩
            · rw [← eq_replicate_takeWhile, ← eq_replicate_takeWhile,
                List.takeWhile_append_dropWhile, ← hrest, List.takeWhile_append_dropWhile]
            · intro hhead
              have hnot := List.head?_dropWhile_not (· == c) (c :: rest)
              rw [hhead] at hnot
              simp at hnot
          · cases h
        · cases h
  · rintro ⟨info, h⟩
    obtain ⟨hindent, hdrop⟩ := h.dropWhile_eq
    have hsize := h.size
    obtain ⟨n, hn⟩ := Nat.exists_eq_add_of_le' h.size
    -- there are at least three marks, so the reader finds the first one behind the spaces
    have hcons : List.replicate f.size f.mark ++ info =
        f.mark :: (List.replicate (n + 2) f.mark ++ info) := by
      rw [hn]
      rfl
    have htake := (takeWhile_replicate_append h.whole f.size).1
    simp only [ofLine?, Markdown.drop_length_takeWhile, hdrop, hcons]
    rw [if_neg (by omega), if_pos h.mark, ← hcons, htake, List.length_replicate, if_pos hsize]

/-- What is behind the marks on a line, and the marks, are determined by the line. -/
theorem Begins.unique (h : f.Begins line info) (h' : g.Begins line info') :
    f = g ∧ info = info' := by
  have hfg : f = g :=
    Option.some.inj ((ofLine?_eq_some_iff.2 ⟨info, h⟩).symm.trans (ofLine?_eq_some_iff.2 ⟨info', h'⟩))
  subst hfg
  exact ⟨rfl, List.append_cancel_left (h.dropWhile_eq.2.symm.trans h'.dropWhile_eq.2)⟩

theorem Opens.unique (h : Opens r f line) (h' : Opens r g line) : f = g :=
  (h.choose_spec.1.unique h'.choose_spec.1).1

/-- A line opens no fence if the rule forbids what follows its marks. -/
theorem Begins.not_opens (h : f.Begins line info) (hloose : r.opens f info = false) :
    ¬Opens r g line := by
  rintro ⟨info', h', hopens⟩
  obtain ⟨rfl, rfl⟩ := h.unique h'
  exact Bool.false_ne_true (hloose.symm.trans hopens)

theorem Begins.not_closes (h : g.Begins line info) (hloose : r.closes info = false) :
    ¬Closes r f line := by
  rintro ⟨g', info', h', -, -, hcloses⟩
  obtain ⟨-, rfl⟩ := h.unique h'
  exact Bool.false_ne_true (hloose.symm.trans hcloses)

/-! ## Open fences, line by line -/

theorem isOpen_iff : IsOpen r f lines ↔ ∃ front opener inner, lines = front ++ opener :: inner ∧
    (∀ g, ¬IsOpen r g front) ∧ Opens r f opener ∧ ∀ line ∈ inner, ¬Closes r f line := by
  rw [IsOpen]
  simp only [exists_prop]

theorem not_isOpen_nil : ¬IsOpen r f [] := by
  rw [isOpen_iff]
  rintro ⟨front, opener, inner, h, -⟩
  cases front <;> cases h

/-- Where no fence is open, a fence is open behind the next line if that line opens it. -/
theorem isOpen_concat_of_closed (h : ∀ g, ¬IsOpen r g lines) :
    IsOpen r f (lines ++ [line]) ↔ Opens r f line := by
  rw [isOpen_iff]
  constructor
  · rintro ⟨front, opener, inner, heq, hclosed, hopens, hinner⟩
    rcases List.eq_nil_or_concat inner with rfl | ⟨inner, last, rfl⟩
    · obtain ⟨-, heq⟩ := List.append_inj' heq rfl
      obtain rfl := List.head_eq_of_cons_eq heq
      exact hopens
    · -- the fence would have been open before
      rw [List.concat_eq_append, ← List.cons_append, ← List.append_assoc] at heq
      obtain ⟨rfl, -⟩ := List.append_inj' heq rfl
      refine absurd (isOpen_iff.2 ⟨front, opener, inner, rfl, hclosed, hopens, ?_⟩) (h f)
      exact fun l hl => hinner l (by simp [hl])
  · exact fun hopens => ⟨lines, line, [], rfl, h, hopens, nofun⟩

/-- Where a fence is open, it is open behind the next line unless that line closes it. -/
theorem isOpen_concat_of_isOpen (hunique : ∀ g, IsOpen r g lines → g = f) (h : IsOpen r f lines) :
    IsOpen r g (lines ++ [line]) ↔ g = f ∧ ¬Closes r f line := by
  constructor
  · rw [isOpen_iff]
    rintro ⟨front, opener, inner, heq, hclosed, hopens, hinner⟩
    rcases List.eq_nil_or_concat inner with rfl | ⟨inner, last, rfl⟩
    · obtain ⟨rfl, -⟩ := List.append_inj' heq rfl
      exact absurd h (hclosed f)
    · rw [List.concat_eq_append, ← List.cons_append, ← List.append_assoc] at heq
      obtain ⟨rfl, hlast⟩ := List.append_inj' heq rfl
      obtain rfl := List.head_eq_of_cons_eq hlast
      obtain rfl := hunique g (isOpen_iff.2 ⟨front, opener, inner, rfl, hclosed, hopens,
        fun l hl => hinner l (by simp [hl])⟩)
      exact ⟨rfl, hinner line (by simp)⟩
  · rintro ⟨rfl, hline⟩
    obtain ⟨front, opener, inner, rfl, hclosed, hopens, hinner⟩ := isOpen_iff.1 h
    refine isOpen_iff.2 ⟨front, opener, inner ++ [line], by simp, hclosed, hopens, fun l hl => ?_⟩
    rcases List.mem_append.1 hl with hl | hl
    · exact hinner l hl
    · rwa [List.mem_singleton.1 hl]

/-- No two fences are open. -/
theorem IsOpen.unique (h : IsOpen r f lines) (h' : IsOpen r g lines) : f = g := by
  induction lines using List.reverseRecOn generalizing f g with
  | nil => exact absurd h not_isOpen_nil
  | append_singleton lines line ih =>
    by_cases hopen : ∃ k, IsOpen r k lines
    · obtain ⟨k, hk⟩ := hopen
      have hunique : ∀ g, IsOpen r g lines → g = k := fun g hg => ih hg hk
      rw [isOpen_concat_of_isOpen hunique hk] at h h'
      rw [h.1, h'.1]
    · rw [not_exists] at hopen
      rw [isOpen_concat_of_closed hopen] at h h'
      exact h.unique h'

/-! ## Open fences, computed -/

/-- What is behind the marks of a fence on a line. -/
def behind (f : Fence) (line : List Char) : List Char := (line.dropWhile (· == ' ')).drop f.size

theorem Begins.behind_eq (h : f.Begins line info) : f.behind line = info := by
  have hdrop : (List.replicate f.size f.mark ++ info).drop f.size = info := by simp
  rw [behind, h.dropWhile_eq.2, hdrop]

theorem begins_behind (h : ofLine? line = some f) : f.Begins line (f.behind line) := by
  obtain ⟨info, hinfo⟩ := ofLine?_eq_some_iff.1 h
  rwa [hinfo.behind_eq]

theorem opens_iff : Opens r f line ↔ ofLine? line = some f ∧ r.opens f (f.behind line) = true := by
  constructor
  · rintro ⟨info, hinfo, hopens⟩
    exact ⟨ofLine?_eq_some_iff.2 ⟨info, hinfo⟩, by rwa [hinfo.behind_eq]⟩
  · rintro ⟨hline, hopens⟩
    exact ⟨f.behind line, begins_behind hline, hopens⟩

theorem closes_iff : Closes r f line ↔ ∃ g, ofLine? line = some g ∧
    g.mark = f.mark ∧ f.size ≤ g.size ∧ r.closes (g.behind line) = true := by
  constructor
  · rintro ⟨g, info, hinfo, hmark, hsize, hcloses⟩
    exact ⟨g, ofLine?_eq_some_iff.2 ⟨info, hinfo⟩, hmark, hsize, by rwa [hinfo.behind_eq]⟩
  · rintro ⟨g, hline, h⟩
    exact ⟨g, g.behind line, begins_behind hline, h⟩

/-- The fence that is open behind a line. -/
def step (r : Rule) (isOpen : Option Fence) (line : List Char) : Option Fence :=
  match isOpen with
  | none => (ofLine? line).filter fun f => r.opens f (f.behind line)
  | some f =>
    if (ofLine? line).any fun g =>
        g.mark == f.mark && decide (f.size ≤ g.size) && r.closes (g.behind line) then none
    else some f

theorem step_none_eq_some_iff : step r none line = some f ↔ Opens r f line := by
  rw [opens_iff]
  exact Option.filter_eq_some_iff

theorem step_some_eq_some_iff : step r (some f) line = some g ↔ g = f ∧ ¬Closes r f line := by
  have hcloses : ((ofLine? line).any fun g =>
      g.mark == f.mark && decide (f.size ≤ g.size) && r.closes (g.behind line)) = true ↔
        Closes r f line := by
    rw [closes_iff, Option.any_eq_true]
    simp only [Bool.and_eq_true, beq_iff_eq, decide_eq_true_eq, and_assoc]
  rw [← hcloses, step]
  split
  next h => exact iff_of_false nofun fun h' => h'.2 h
  next h => exact ⟨fun heq => ⟨(Option.some.inj heq).symm, h⟩, fun heq => congrArg some heq.1.symm⟩

/-- The fence that is open behind lines is found line by line. -/
theorem foldl_step_eq_some_iff : lines.foldl (step r) none = some f ↔ IsOpen r f lines := by
  induction lines using List.reverseRecOn generalizing f with
  | nil => exact ⟨nofun, fun h => absurd h not_isOpen_nil⟩
  | append_singleton lines line ih =>
    rw [List.foldl_append, List.foldl_cons, List.foldl_nil]
    cases hopen : lines.foldl (step r) none with
    | none =>
      have hclosed : ∀ g, ¬IsOpen r g lines := fun g hg => by
        rw [← ih, hopen] at hg
        cases hg
      rw [isOpen_concat_of_closed hclosed, step_none_eq_some_iff]
    | some g =>
      have hg := ih.1 hopen
      rw [isOpen_concat_of_isOpen (fun k hk => hk.unique hg) hg, step_some_eq_some_iff]

instance : Decidable (IsOpen r f lines) := decidable_of_iff _ foldl_step_eq_some_iff

theorem exists_isOpen_iff : (∃ f, IsOpen r f lines) ↔ (lines.foldl (step r) none).isSome := by
  rw [Option.isSome_iff_exists]
  exact exists_congr fun f => foldl_step_eq_some_iff.symm

/-- Chunks go by the marks. -/
theorem step_marks : step .marks = next := by
  funext isOpen line
  cases isOpen with
  | none => cases h : ofLine? line <;> simp [step, next, h, Rule.marks]
  | some f =>
    cases h : ofLine? line with
    | none => simp [step, next, h]
    | some g =>
      simp only [step, next, h, Rule.marks, Option.any_some, Bool.and_true, Bool.and_eq_true,
        beq_iff_eq, decide_eq_true_eq, @eq_comm _ g.mark]

/-! ## Where the marks are not enough -/

/-- By its marks the line would open or close a fence, but it does not. -/
inductive IsLoose (front : List (List Char)) (line : List Char) : Prop
  | opening (f : Fence) (info : List Char) (closed : ∀ g, ¬IsOpen .markdown g front)
      (begins : f.Begins line info) (loose : Rule.markdown.opens f info = false)
  | closing (f g : Fence) (info : List Char) (isOpen : IsOpen .markdown f front)
      (begins : g.Begins line info) (mark : g.mark = f.mark) (size : f.size ≤ g.size)
      (loose : Rule.markdown.closes info = false)

/-- On each of the lines, the marks are enough. -/
def Exact (lines : List (List Char)) : Prop :=
  ∀ front line rest, lines = front ++ line :: rest → ¬IsLoose front line

theorem opens_marks_iff (hclosed : ∀ g, ¬IsOpen .markdown g lines) (h : ¬IsLoose lines line) :
    Opens .marks f line ↔ Opens .markdown f line := by
  constructor
  · rintro ⟨info, hinfo, -⟩
    refine ⟨info, hinfo, ?_⟩
    by_contra hloose
    exact h (.opening f info hclosed hinfo (Bool.eq_false_iff.2 hloose))
  · rintro ⟨info, hinfo, -⟩
    exact ⟨info, hinfo, rfl⟩

theorem closes_marks_iff (hf : IsOpen .markdown f lines) (h : ¬IsLoose lines line) :
    Closes .marks f line ↔ Closes .markdown f line := by
  constructor
  · rintro ⟨g, info, hinfo, hmark, hsize, -⟩
    refine ⟨g, info, hinfo, hmark, hsize, ?_⟩
    by_contra hloose
    exact h (.closing f g info hf hinfo hmark hsize (Bool.eq_false_iff.2 hloose))
  · rintro ⟨g, info, hinfo, hmark, hsize, -⟩
    exact ⟨g, info, hinfo, hmark, hsize, rfl⟩

/-- The line is loose if the marks alone lead elsewhere. -/
theorem isLoose_iff :
    IsLoose lines line ↔ step .marks (lines.foldl (step .markdown) none) line ≠
      step .markdown (lines.foldl (step .markdown) none) line := by
  constructor
  · intro h
    cases h with
    | opening f info closed begins loose =>
      have hnone : lines.foldl (step .markdown) none = none :=
        Option.eq_none_iff_forall_ne_some.2 fun g hg => closed g (foldl_step_eq_some_iff.1 hg)
      have hmarks : step .marks none line = some f := step_none_eq_some_iff.2 ⟨info, begins, rfl⟩
      rw [hnone, hmarks]
      exact fun heq => begins.not_opens loose (step_none_eq_some_iff.1 heq.symm)
    | closing f g info isOpen begins mark size loose =>
      rw [foldl_step_eq_some_iff.2 isOpen]
      intro heq
      have hmarkdown : step .markdown (some f) line = some f :=
        step_some_eq_some_iff.2 ⟨rfl, begins.not_closes loose⟩
      exact (step_some_eq_some_iff.1 (heq.trans hmarkdown)).2 ⟨g, info, begins, mark, size, rfl⟩
  · refine fun hne => by_contra fun h => hne (Option.ext fun f => ?_)
    -- on a line that is not loose, both readers do the same, whether a fence is open or not
    cases hopen : lines.foldl (step .markdown) none with
    | none =>
      have hclosed : ∀ g, ¬IsOpen .markdown g lines := fun g hg => by
        rw [← foldl_step_eq_some_iff, hopen] at hg
        cases hg
      rw [step_none_eq_some_iff, step_none_eq_some_iff,
        opens_marks_iff hclosed h]
    | some g =>
      rw [step_some_eq_some_iff, step_some_eq_some_iff,
        closes_marks_iff (foldl_step_eq_some_iff.1 hopen) h]

instance (front : List (List Char)) (line : List Char) : Decidable (IsLoose front line) :=
  decidable_of_iff _ isLoose_iff.symm

theorem exact_iff : Exact lines ↔ ∀ i : Fin lines.length, ¬IsLoose (lines.take i) (lines.get i) := by
  constructor
  · exact fun h i => h _ _ (lines.drop (i + 1)) (by simp)
  · rintro h front line rest rfl
    simpa using h ⟨front.length, by simp⟩

instance (lines : List (List Char)) : Decidable (Exact lines) := decidable_of_iff _ exact_iff.symm

/-- As long as the marks are enough, they make the same fences. -/
theorem isOpen_marks_iff (h : Exact lines) : IsOpen .marks f lines ↔ IsOpen .markdown f lines := by
  induction lines using List.reverseRecOn generalizing f with
  | nil => exact iff_of_false not_isOpen_nil not_isOpen_nil
  | append_singleton lines line ih =>
    have hfront : Exact lines := fun front l rest heq => h front l (rest ++ [line]) (by simp [heq])
    have hline : ¬IsLoose lines line := h lines line [] rfl
    have hagree : ∀ g, IsOpen .marks g lines ↔ IsOpen .markdown g lines := fun g => ih hfront
    by_cases hopen : ∃ g, IsOpen .markdown g lines
    · obtain ⟨g, hg⟩ := hopen
      have hg' := (hagree g).2 hg
      rw [isOpen_concat_of_isOpen (fun k hk => hk.unique hg) hg,
        isOpen_concat_of_isOpen (fun k hk => hk.unique hg') hg', closes_marks_iff hg hline]
    · rw [not_exists] at hopen
      rw [isOpen_concat_of_closed hopen, isOpen_concat_of_closed fun g => (hagree g).not.2 (hopen g),
        opens_marks_iff hopen hline]

/-- Behind the first line where the marks are not enough, they have it the wrong way round. -/
theorem exists_isOpen_marks_iff_of_isLoose (h : Exact lines) (hline : IsLoose lines line) :
    (∃ f, IsOpen .marks f (lines ++ [line])) ↔ ¬∃ f, IsOpen .markdown f (lines ++ [line]) := by
  cases hline with
  | opening f info closed begins loose =>
    have closed' : ∀ g, ¬IsOpen .marks g lines := fun g => (isOpen_marks_iff h).not.2 (closed g)
    refine iff_of_true ⟨f, (isOpen_concat_of_closed closed').2 ⟨info, begins, rfl⟩⟩ ?_
    rintro ⟨g, hg⟩
    exact begins.not_opens loose ((isOpen_concat_of_closed closed).1 hg)
  | closing f g info isOpen begins mark size loose =>
    have isOpen' := (isOpen_marks_iff h).2 isOpen
    refine iff_of_false ?_ (not_not_intro ⟨f, ?_⟩)
    · rintro ⟨k, hk⟩
      refine ((isOpen_concat_of_isOpen (fun k hk => hk.unique isOpen') isOpen').1 hk).2 ?_
      exact ⟨g, info, begins, mark, size, rfl⟩
    · exact (isOpen_concat_of_isOpen (fun k hk => hk.unique isOpen) isOpen).2
        ⟨rfl, begins.not_closes loose⟩

/-- Lines without marks open and close nothing. -/
theorem isOpen_append_iff {rest : List (List Char)} (h : ∀ l ∈ rest, ∀ g info, ¬Begins g l info) :
    IsOpen r f (lines ++ rest) ↔ IsOpen r f lines := by
  induction rest generalizing lines with
  | nil => rw [List.append_nil]
  | cons l rest ih =>
    obtain ⟨hl, hrest⟩ := List.forall_mem_cons.1 h
    rw [List.append_cons, ih hrest]
    by_cases hopen : ∃ g, IsOpen r g lines
    · obtain ⟨g, hg⟩ := hopen
      rw [isOpen_concat_of_isOpen (fun k hk => hk.unique hg) hg]
      refine ⟨fun hf => hf.1 ▸ hg, fun hf => ⟨hf.unique hg, ?_⟩⟩
      rintro ⟨k, info, hk, -⟩
      exact hl k info hk
    · rw [not_exists] at hopen
      rw [isOpen_concat_of_closed hopen]
      exact iff_of_false (fun ⟨info, hf, _⟩ => hl f info hf) (hopen f)

end Fence

/-! ## Blank lines -/

/-- The line, which starts at byte `start`, stands in the chunk. -/
def Holds (c : Chunk) (start : Nat) (line : List Char) : Prop :=
  c.start ≤ start ∧ start + Text.byteLength line ≤ c.stop

instance (c : Chunk) (start : Nat) (line : List Char) : Decidable (c.Holds start line) :=
  inferInstanceAs (Decidable (_ ∧ _))

/-- A blank line begins no fence. -/
theorem Fence.ofLine?_of_blank {line : List Char} (h : Text.isAllBlank line = true) :
    ofLine? line = none := by
  rw [Option.eq_none_iff_forall_ne_some]
  intro f hf
  obtain ⟨info, hinfo⟩ := ofLine?_eq_some_iff.1 hf
  obtain ⟨n, hn⟩ := Nat.exists_eq_add_of_le' hinfo.size
  obtain ⟨indent, -, hline⟩ := hinfo.line
  have hmark : Text.isBlank f.mark = true :=
    List.all_eq_true.1 h f.mark (by simp [hline, hn, List.replicate_succ])
  rcases hinfo.mark with hf | hf <;> rw [hf] at hmark <;> revert hmark <;> decide

/-- A line that a chunk gets is held by the chunk. -/
theorem exists_holds_of_extend (base : Nat) {offset : Nat} {current : Option Partial}
    (hcurrent : ∀ p ∈ current, p.Before offset) (line : List Char) {lines : List (List Char)}
    (hne : ∀ l ∈ lines, l ≠ []) (fence : Option Fence) :
    ∃ c ∈ cut base (offset + Text.byteLength line) fence (some (Partial.extend current offset line))
      lines, c.Holds (base + offset) (content line) := by
  have hstart := Partial.start_extend hcurrent line
  have hlast := (Partial.last_extend current offset line).1
  have hbefore := Partial.before_extend hcurrent line
  rw [cut_eq_place base hne _ fence _ fun p hp => Option.some.inj hp ▸ hbefore]
  dsimp only
  generalize Partial.extend current offset line = p at *
  obtain ⟨more, gap, slices, heq⟩ :=
    exists_attach_eq_cons (p.lines ++ p.last) p.lastEnd (slicesOf fence lines)
  rw [heq, place]
  refine ⟨_, List.mem_cons_self, Nat.add_le_add_left (hstart ▸ Nat.le_add_right _ _) _, ?_⟩
  show _ ≤ base + p.start + Text.byteLength (p.lines ++ p.last ++ more)
  rw [Text.byteLength_append, Text.byteLength_append, hlast]
  omega

/-- Chunks behind a place do not hold what stands at the place. -/
theorem not_holds_of_cut (base : Nat) {lines : List (List Char)} (hne : ∀ l ∈ lines, l ≠ [])
    {start offset : Nat} (hstart : start < base + offset) (line : List Char) :
    ∀ c ∈ cut base offset none none lines, ¬c.Holds start line := by
  rw [cut_eq_place base hne offset none none nofun]
  intro c hc hholds
  have hle := start_le_of_mem_place hc
  have := hholds.1
  omega

/-- A chunk that is ended does not hold what stands behind the end of its last line. -/
theorem Partial.not_holds (base : Nat) {p : Partial} {offset : Nat} (hbefore : p.Before offset)
    (hend : p.lastEnd ≠ []) {start : Nat} (hstart : base + offset ≤ start) (line : List Char) :
    ¬(p.toChunk base).Holds start line := by
  rintro ⟨-, hstop⟩
  have hpos := byteLength_pos hend
  rw [Partial.Before, Text.byteLength_append] at hbefore
  have hstop : start + Text.byteLength line ≤
      base + p.start + Text.byteLength (p.lines ++ p.last) := hstop
  omega

/-- The next line, if it is blank, is held by a chunk if a fence is open. -/
theorem exists_holds_cut_cons_iff (base : Nat) {line : List Char} {lines : List (List Char)}
    (hne : ∀ l ∈ line :: lines, l ≠ []) (hblank : Text.isAllBlank (content line) = true)
    (offset : Nat) (fence : Option Fence) (current : Option Partial)
    (hcurrent : ∀ p ∈ current, p.Before offset ∧ p.lastEnd ≠ []) :
    (∃ c ∈ cut base offset fence current (line :: lines), c.Holds (base + offset) (content line)) ↔
      fence.isSome := by
  obtain ⟨hline, hlines⟩ := List.forall_mem_cons.1 hne
  have hpos := byteLength_pos hline
  cases fence with
  | none =>
    -- neither the chunk before the line reaches so far nor do those behind it
    refine iff_of_false ?_ (by simp)
    rintro ⟨c, hc, hholds⟩
    rw [cut_of_blank ⟨rfl, hblank⟩, List.mem_append] at hc
    rcases hc with hc | hc
    · obtain ⟨p, hp, rfl⟩ := Option.map_eq_some_iff.1 (Option.mem_toList.1 hc)
      obtain ⟨hbefore, hend⟩ := hcurrent p hp
      exact p.not_holds base hbefore hend (Nat.le_refl _) _ hholds
    · exact not_holds_of_cut base hlines (by omega) _ c hc hholds
  | some f =>
    rw [cut_of_not_blank (by simp)]
    refine iff_of_true ?_ rfl
    exact exists_holds_of_extend base (fun p hp => (hcurrent p hp).1) line hlines _

/-- A blank line is held by a chunk if a fence is open behind the lines before it. -/
theorem exists_holds_cut_iff (base : Nat) {before after : List (List Char)} {line : List Char}
    (hne : ∀ l ∈ before ++ line :: after, l ≠ [])
    (hended : ∀ l ∈ before, l.getLast? = some '\n')
    (hblank : Text.isAllBlank (content line) = true) (offset : Nat) (fence : Option Fence)
    (current : Option Partial) (hcurrent : ∀ p ∈ current, p.Before offset ∧ p.lastEnd ≠ []) :
    (∃ c ∈ cut base offset fence current (before ++ line :: after),
        c.Holds (base + offset + Text.byteLength before.flatten) (content line)) ↔
      ((before.map content).foldl Fence.next fence).isSome := by
  induction before generalizing offset fence current with
  | nil => exact exists_holds_cut_cons_iff base hne hblank offset fence current hcurrent
  | cons l before ih =>
    obtain ⟨hl, hlines⟩ := List.forall_mem_cons.1 hne
    obtain ⟨hlend, hended⟩ := List.forall_mem_cons.1 hended
    have hstart : base + offset + Text.byteLength (l :: before).flatten =
        base + (offset + Text.byteLength l) + Text.byteLength before.flatten := by
      rw [List.flatten_cons, Text.byteLength_append]
      omega
    rw [hstart, List.cons_append, List.map_cons, List.foldl_cons]
    by_cases hlblank : fence.isNone ∧ Text.isAllBlank (content l)
    · -- the line is dropped, and the chunk before it does not reach so far
      have hnext : Fence.next fence (content l) = none := by
        rw [Option.isNone_iff_eq_none.1 hlblank.1]
        exact Fence.ofLine?_of_blank hlblank.2
      rw [cut_of_blank hlblank, hnext, ← ih hlines hended _ none none nofun]
      simp only [List.mem_append, or_and_right, exists_or]
      refine or_iff_right ?_
      rintro ⟨c, hc, hholds⟩
      obtain ⟨p, hp, rfl⟩ := Option.map_eq_some_iff.1 (Option.mem_toList.1 hc)
      obtain ⟨hbefore, hend⟩ := hcurrent p hp
      exact p.not_holds base hbefore hend (by omega) _ hholds
    · rw [cut_of_not_blank hlblank, ← ih hlines hended _ _ _ ?_]
      intro p hp
      obtain rfl := Option.some.inj hp
      refine ⟨Partial.before_extend (fun p hp => (hcurrent p hp).1) l, ?_⟩
      rw [(Partial.last_extend current offset l).2]
      intro hnil
      have := getLast?_lineStop hlend
      rw [hnil] at this
      cases this

variable {source line : List Char} {before after : List (List Char)}

/-- Blank lines stay in a chunk where the marks on the lines before leave a fence open. -/
theorem exists_holds_split_iff (base : Nat)
    (hlines : Text.splitLines source = before ++ line :: after)
    (hblank : Text.isAllBlank (content line) = true) :
    (∃ c ∈ split source base,
        c.Holds (base + Text.byteLength before.flatten) (content line)) ↔
      ∃ f, Fence.IsOpen .marks f (before.map content) := by
  have hne : ∀ l ∈ before ++ line :: after, l ≠ [] := fun l hl =>
    Text.ne_nil_of_mem_splitLines (hlines ▸ hl)
  have hchain := isChain_splitLines source
  rw [hlines] at hchain
  rw [split, hlines, Fence.exists_isOpen_iff, Fence.step_marks]
  exact exists_holds_cut_iff base hne (ended_of_isChain hchain) hblank 0 none none nofun

/-- A blank line stays in a chunk if, and only if, the marks on the lines before it leave a fence open.
That is where a fence is open in Markdown, as long as the marks are enough; right behind the first line
where they are not, it is where no fence is open. -/
theorem keeps_blank_line_iff (base : Nat)
    (hlines : Text.splitLines source = before ++ line :: after)
    (hblank : Text.isAllBlank (content line) = true) :
    let kept := ∃ c ∈ split source base,
      c.Holds (base + Text.byteLength before.flatten) (content line)
    let lines := before.map content
    (kept ↔ ∃ f, Fence.IsOpen .marks f lines) ∧
      (Fence.Exact lines → (kept ↔ ∃ f, Fence.IsOpen .markdown f lines)) ∧
      ∀ front loose rest, lines = front ++ loose :: rest → Fence.Exact front →
        Fence.IsLoose front loose → (∀ l ∈ rest, ∀ f info, ¬Fence.Begins f l info) →
          (kept ↔ ¬∃ f, Fence.IsOpen .markdown f lines) := by
  intro kept lines
  have hkept : kept ↔ ∃ f, Fence.IsOpen .marks f lines :=
    exists_holds_split_iff base hlines hblank
  refine ⟨hkept, fun hexact => ?_, fun front loose rest heq hexact hloose hrest => ?_⟩
  · rw [hkept]
    exact exists_congr fun f => Fence.isOpen_marks_iff hexact
  · rw [hkept, heq, List.append_cons]
    simp only [Fence.isOpen_append_iff hrest]
    exact Fence.exists_isOpen_marks_iff_of_isLoose hexact hloose

/-- The third line has the marks of the fence and a word behind them, so that the fence is still open
in Markdown, but the blank line ends a chunk. -/
theorem keeps_blank_line_iff_of_word_behind_marks :
    let source := "\x60\x60\x60\na\n\x60\x60\x60 x\n\nb\n\x60\x60\x60".toList
    let front := ["\x60\x60\x60".toList, "a".toList]
    Fence.Exact front ∧ Fence.IsLoose front "\x60\x60\x60 x".toList ∧
      (∃ f, Fence.IsOpen .markdown f (front ++ ["\x60\x60\x60 x".toList])) ∧
      ¬∃ c ∈ split source 0, c.Holds 12 [] := by
  intro source front
  have hexact : Fence.Exact front := by decide
  have hloose : Fence.IsLoose front "\x60\x60\x60 x".toList := by decide
  have hopen : ∃ f, Fence.IsOpen .markdown f (front ++ ["\x60\x60\x60 x".toList]) :=
    ⟨⟨'\x60', 3⟩, by decide⟩
  refine ⟨hexact, hloose, hopen, fun hkept => ?_⟩
  have hlines : Text.splitLines source =
      ["\x60\x60\x60\n".toList, "a\n".toList, "\x60\x60\x60 x\n".toList] ++
        ['\n'] :: ["b\n".toList, "\x60\x60\x60".toList] := by decide
  obtain ⟨-, -, hwrong⟩ := keeps_blank_line_iff 0 hlines (by decide)
  exact (hwrong front _ [] (by decide) hexact hloose nofun).1 hkept hopen

end Chunk

end Treatise
