import Treatise.Proofs.Nesting

/-!
# Statements that are never closed

A statement that is still open behind the last chunk is warned about. Which statements these are
can be read off the chunks without a stack: a statement stays open if the chunks behind it close no
more statements than they open, however far one reads.

* **`Chunk.StaysOpen`**, **`Chunk.leftOpen`** — this condition, and the statements that meet it;
* `Chunk.closing` — the chunks that close a statement;
* `Assembly.marks_feed` — what one chunk does to the stack of open statements;
* `Assembly.marks_feedAll` — what chunks do: those left open stand on the stack, on top of those
  that were open before and are not closed;
* **`snd_assemble`** — the warnings are about the statements left open.
-/

namespace Treatise

namespace Chunk

/-! ## Statements left open -/

/-- What the chunk opens and does not close itself. -/
def opened? (c : Chunk) : Option Opening :=
  (Opening.read? c.text).filter fun o => (beforeTerminator? o.rest).isNone

def opens (c : Chunk) : Bool := c.opened?.isSome

/-- The chunk opens nothing and ends in the terminator. -/
def closes (c : Chunk) : Bool :=
  (Opening.read? c.text).isNone && (beforeTerminator? c.text).isSome

/-- A statement with such chunks behind it is open at their end: they never close more statements
than they have opened. -/
def StaysOpen (behind : List Chunk) : Prop :=
  ∀ front, front <+: behind → front.countP closes ≤ front.countP opens

/-- How many chunks close a statement that was open before all of them. -/
def unmatched : List Chunk → Nat
  | [] => 0
  | c :: chunks =>
    if c.opens then unmatched chunks - 1
    else if c.closes then unmatched chunks + 1
    else unmatched chunks

theorem opens_of_opened? {c : Chunk} {o : Opening} (h : c.opened? = some o) : c.opens = true := by
  rw [opens, h]
  rfl

theorem not_opens_of_opened? {c : Chunk} (h : c.opened? = none) : ¬c.opens = true := by
  rw [opens, h]
  exact Bool.false_ne_true

theorem closes_eq_false_of_opens {c : Chunk} (h : c.opens = true) : c.closes = false := by
  unfold opens opened? at h
  unfold closes
  cases ho : Opening.read? c.text with
  | none => simp [ho] at h
  | some o => rfl

/-- Up to `n` statements that were open before are closed, if the chunks never close more than `n`
over what they have opened. -/
theorem unmatched_le_iff (chunks : List Chunk) (n : Nat) :
    unmatched chunks ≤ n ↔
      ∀ front, front <+: chunks → front.countP closes ≤ front.countP opens + n := by
  induction chunks generalizing n with
  | nil => simp [unmatched]
  | cons c chunks ih =>
    have hcons : (∀ front, front <+: c :: chunks → front.countP closes ≤ front.countP opens + n) ↔
        ∀ front, front <+: chunks →
          (c :: front).countP closes ≤ (c :: front).countP opens + n := by
      constructor
      · exact fun h front hfront => h _ (List.cons_prefix_cons.2 ⟨rfl, hfront⟩)
      · intro h front hfront
        rcases List.prefix_cons_iff.1 hfront with rfl | ⟨front', rfl, hfront'⟩
        · exact Nat.zero_le _
        · exact h front' hfront'
    rw [hcons, unmatched]
    by_cases hopens : c.opens = true
    · -- behind a statement that is opened, one more may be closed
      have hcloses := closes_eq_false_of_opens hopens
      rw [if_pos hopens, Nat.sub_le_iff_le_add, ih (n + 1)]
      refine forall₂_congr fun front _ => ?_
      rw [List.countP_cons_of_pos hopens, List.countP_cons_of_neg (by simp [hcloses])]
      omega
    · rw [if_neg hopens]
      by_cases hcloses : c.closes = true
      · rw [if_pos hcloses]
        cases n with
        | zero =>
          refine iff_of_false (Nat.not_succ_le_zero _) fun h => ?_
          have hfirst := h [] (List.nil_prefix ..)
          simp [hcloses, hopens] at hfirst
        | succ n =>
          rw [Nat.add_le_add_iff_right, ih n]
          refine forall₂_congr fun front _ => ?_
          rw [List.countP_cons_of_pos hcloses, List.countP_cons_of_neg hopens]
          omega
      · rw [if_neg hcloses, ih n]
        refine forall₂_congr fun front _ => ?_
        rw [List.countP_cons_of_neg hcloses, List.countP_cons_of_neg hopens]

theorem staysOpen_iff {behind : List Chunk} : StaysOpen behind ↔ unmatched behind = 0 :=
  (unmatched_le_iff behind 0).symm.trans Nat.le_zero

instance (behind : List Chunk) : Decidable (StaysOpen behind) := decidable_of_iff' _ staysOpen_iff

/-- The statements that are open behind the last chunk, each with the chunk that opens it. -/
def leftOpen : List Chunk → List (Chunk × Opening)
  | [] => []
  | c :: chunks =>
    match c.opened? with
    | some o => if StaysOpen chunks then (c, o) :: leftOpen chunks else leftOpen chunks
    | none => leftOpen chunks

theorem read?_of_mem_leftOpen {chunks : List Chunk} {c : Chunk} {o : Opening}
    (h : (c, o) ∈ leftOpen chunks) :
    c ∈ chunks ∧ Opening.read? c.text = some o := by
  induction chunks with
  | nil => cases h
  | cons d chunks ih =>
    have hmore (h : (c, o) ∈ leftOpen chunks) : c ∈ d :: chunks ∧ Opening.read? c.text = some o :=
      ⟨List.mem_cons_of_mem d (ih h).1, (ih h).2⟩
    unfold leftOpen at h
    split at h
    · rename_i p hp
      split at h
      · rcases List.mem_cons.1 h with heq | h
        · cases heq
          exact ⟨List.mem_cons_self, (Option.filter_eq_some_iff.1 hp).1⟩
        · exact hmore h
      · exact hmore h
    · exact hmore h

/-- The chunks that open nothing and end in the terminator while a statement is open, behind the
chunks `before`. Elsewhere a terminator is text. -/
def closing (before : List Chunk) : List Chunk → List Chunk
  | [] => []
  | c :: chunks =>
    if c.closes ∧ leftOpen before ≠ [] then c :: closing (before ++ [c]) chunks
    else closing (before ++ [c]) chunks

end Chunk

namespace Assembly

/-! ## The stack of open statements -/

/-- What the warnings say about the open statements, the innermost first: their kinds and where they
start. -/
def marks (a : Assembly) : List (Kind × Nat) := a.frames.map fun f => (f.statement.kind, f.start)

variable (reader : Reader) (a : Assembly)

theorem marks_mapContainer (f : Node → Node) : (a.mapContainer f).marks = a.marks := by
  obtain ⟨root, frames, run⟩ := a
  cases frames <;> rfl

theorem marks_flush : (a.flush reader).marks = a.marks := by
  unfold flush
  split
  · rfl
  · exact marks_mapContainer a _

theorem marks_pushText (text : List Char) : (a.pushText text).marks = a.marks := by
  rw [marks, frames_pushText, marks]

theorem marks_openStatement (o : Opening) (start : Nat) :
    (a.openStatement reader o start).marks = (o.kind, start) :: a.marks := by
  rw [← marks_flush reader a]
  rfl

theorem marks_closeStatement : (a.closeStatement reader).marks = a.marks.tail := by
  rw [← marks_flush reader a]
  unfold closeStatement
  cases hframes : (a.flush reader).frames with
  | nil => simp [marks, hframes]
  | cons frame frames =>
    simp only [hframes, marks_mapContainer]
    simp [marks, hframes]

theorem marks_pushBody (text : List Char) :
    (a.pushBody reader text).2.marks =
      if (Chunk.beforeTerminator? text).isSome then a.marks.tail else a.marks := by
  unfold pushBody Chunk.stripTerminator
  cases Chunk.beforeTerminator? text with
  | none => exact marks_pushText a text
  | some body => exact (marks_closeStatement reader _).trans (by rw [marks_pushText]; rfl)

/-- One chunk opens a statement, closes the innermost, or leaves the open statements alone. -/
theorem marks_feed (c : Chunk) :
    (a.feed reader c).2.marks =
      match c.opened? with
      | some o => (o.kind, c.start) :: a.marks
      | none => if c.closes then a.marks.tail else a.marks := by
  unfold feed Chunk.opened? Chunk.closes
  cases Opening.read? c.text with
  | some o =>
    simp only [marks_pushBody, marks_openStatement]
    cases hbody : Chunk.beforeTerminator? o.rest <;> simp [Option.filter, hbody]
  | none =>
    by_cases hframes : a.frames.isEmpty
    · have hmarks : a.marks = [] := by rw [marks, List.isEmpty_iff.1 hframes, List.map_nil]
      simp [hframes, marks_pushText, hmarks]
    · simp [hframes, marks_pushBody]

/-- The mark that a chunk leaves when it opens a statement. -/
def mark (p : Chunk × Opening) : Kind × Nat := (p.2.kind, p.1.start)

/-- Chunks close the innermost of the statements that were open before them, and put on top what
they leave open. Induction on the chunks, for every stack at once. -/
theorem marks_feedAll (chunks : List Chunk) :
    (a.feedAll reader chunks).marks =
      ((Chunk.leftOpen chunks).map mark).reverse ++ a.marks.drop (Chunk.unmatched chunks) := by
  induction chunks generalizing a with
  | nil => rfl
  | cons c chunks ih =>
    rw [feedAll_cons, ih, marks_feed, Chunk.leftOpen, Chunk.unmatched]
    cases hopened : c.opened? with
    | some o =>
      have hopens := Chunk.opens_of_opened? hopened
      rw [if_pos hopens]
      by_cases hstays : Chunk.StaysOpen chunks
      · simp [hstays, Chunk.staysOpen_iff.1 hstays, mark]
      · -- the first of what the chunks close is the statement just opened
        obtain ⟨n, hn⟩ := Nat.exists_eq_succ_of_ne_zero (mt Chunk.staysOpen_iff.2 hstays)
        simp [hstays, hn]
    | none =>
      have hopens := Chunk.not_opens_of_opened? hopened
      rw [if_neg hopens]
      by_cases hcloses : c.closes = true
      · simp [hcloses, Nat.add_comm]
      · simp [hcloses]

theorem marks_feedAll_empty (chunks : List Chunk) :
    (empty.feedAll reader chunks).marks = ((Chunk.leftOpen chunks).map mark).reverse := by
  rw [marks_feedAll, show marks empty = [] from rfl, List.drop_nil, List.append_nil]

/-- Every chunk that opens a statement puts one on the stack, and every chunk that closes one takes
one off. -/
theorem length_marks_feedAll (before chunks : List Chunk) :
    (empty.feedAll reader (before ++ chunks)).marks.length +
        (Chunk.closing before chunks).length =
      (empty.feedAll reader before).marks.length + chunks.countP Chunk.opens := by
  induction chunks generalizing before with
  | nil => simp [Chunk.closing]
  | cons c chunks ih =>
    have hmore := ih (before ++ [c])
    rw [List.append_assoc, List.singleton_append] at hmore
    have hfeed : (empty.feedAll reader (before ++ [c])).marks =
        ((empty.feedAll reader before).feed reader c).2.marks := by
      simp only [feedAll, List.foldl_append, List.foldl_cons, List.foldl_nil]
    rw [hfeed, marks_feed] at hmore
    have hleft : Chunk.leftOpen before = [] ↔ (empty.feedAll reader before).marks = [] := by
      rw [marks_feedAll_empty, List.reverse_eq_nil_iff, List.map_eq_nil_iff]
    rw [Chunk.closing]
    cases hopened : c.opened? with
    | some o =>
      have hopens := Chunk.opens_of_opened? hopened
      have hcloses := Chunk.closes_eq_false_of_opens hopens
      rw [hopened, List.length_cons] at hmore
      rw [if_neg (by simp [hcloses]), List.countP_cons_of_pos hopens]
      omega
    | none =>
      have hopens := Chunk.not_opens_of_opened? hopened
      rw [hopened] at hmore
      rw [List.countP_cons_of_neg hopens]
      by_cases hcloses : c.closes = true ∧ Chunk.leftOpen before ≠ []
      · -- the stack is not empty, so that the chunk takes a statement off
        have hpos := List.length_pos_iff.2 (mt hleft.2 hcloses.2)
        simp only [hcloses.1, if_true, List.length_tail] at hmore
        rw [if_pos hcloses, List.length_cons]
        omega
      · rw [if_neg hcloses]
        refine hmore.trans ?_
        by_cases hc : c.closes = true
        · have hnil := hleft.1 (by simpa [hc] using hcloses)
          simp [hnil]
        · simp [hc]

end Assembly

/-- The statements left open are those that are opened, less those that are closed. -/
theorem Chunk.length_leftOpen_add_length_closing (chunks : List Chunk) :
    (leftOpen chunks).length + (closing [] chunks).length = chunks.countP opens := by
  -- whatever reader fills the containers
  have hlength := Assembly.length_marks_feedAll (fun _ container => container) [] chunks
  rw [List.nil_append, Assembly.marks_feedAll_empty, Assembly.marks_feedAll_empty] at hlength
  simpa [leftOpen] using hlength

/-! ## Warnings -/

/-- The warning about a statement of this kind, which starts at byte `start`. -/
def Assembly.warning (fileId stop : Nat) (m : Kind × Nat) : Issue where
  kind := .unterminatedBlock m.1.name
  span := some ⟨m.2, stop⟩
  fileId
  notes := ["end the block with `\x7b\x7d`"]

/-- The warnings of assembly are about the statements left open, the innermost first. -/
theorem snd_assemble (reader : Reader) (chunks : List Chunk) (fileId : Nat) :
    (assemble reader chunks fileId).2 =
      (Chunk.leftOpen chunks).reverse.map fun p =>
        Assembly.warning fileId (Chunk.stopOfAll chunks) (p.2.kind, p.1.start) := by
  calc (assemble reader chunks fileId).2
      = (((Assembly.empty.feedAll reader chunks).flush reader).marks).map
          (Assembly.warning fileId (Chunk.stopOfAll chunks)) := by
        rw [Assembly.marks, List.map_map]
        rfl
    _ = (((Chunk.leftOpen chunks).map Assembly.mark).reverse).map
          (Assembly.warning fileId (Chunk.stopOfAll chunks)) := by
        rw [Assembly.marks_flush, Assembly.marks_feedAll_empty]
    _ = _ := by
        rw [← List.map_reverse, List.map_map]
        rfl

/-- The terminator closes the proof, and the theorem around it stays open. -/
example :
    let chunks : List Chunk :=
      [⟨"Theorem: one".toList, 0⟩, ⟨"Proof: two".toList, 14⟩, ⟨"three \x7b\x7d".toList, 26⟩]
    (Chunk.leftOpen chunks).map Assembly.mark = [(.thm, 0)] := by
  decide +kernel

end Treatise
