import Treatise.Assembly

/-!
# Nesting of statements

Assembly takes chunks one after the other and keeps the open statements on a stack. The same
document has a recursive reading, in which a container is read to its end before the container
around it goes on, and which knows neither a stack nor a text that waits.

* **`Part`** — what a container holds: runs of text and statements, each with its own parts.
* **`Part.read`** — the recursive reading. It returns the parts of one container and the chunks
  behind it.
* **`Part.allInto`** — the tree of parts: every run is read by one call of the reader, every
  statement becomes a child.
* **`Assembly.complete`** — the state once the innermost container has got its remaining parts. This
  is what ties the two together: `tree_feedAll` says that feeding chunks is the same as completing
  the innermost container with the parts that `Part.read` finds, and feeding the chunks behind it.
* **`assemble_eq_allInto`** — assembly gives the tree of the recursive reading, and the runs of that
  reading are as long as they can be.
-/

namespace Treatise

/-- A part of a container. -/
inductive Part where
  /-- Texts that follow each other. -/
  | run (texts : List (List Char))
  /-- A statement with the parts of its content. -/
  | statement (opening : Opening) (content : List Part)

namespace Part

/-! ## The recursive reading -/

/-- A text in front of parts, joined to a run that they begin with. A blank text is no part. -/
def consText (text : List Char) (parts : List Part) : List Part :=
  if Text.isAllBlank text then parts
  else
    match parts with
    | run texts :: parts => run (text :: texts) :: parts
    | parts => run [text] :: parts

/-- Reads the parts of a container, and gives the chunks behind it. The document ends where the
chunks end; a statement (`inside`) ends behind the first chunk that opens nothing, is part of no
statement inside and ends in the terminator. -/
def read (inside : Bool) (chunks : List Chunk) :
    { p : List Part × List Chunk // p.2.length ≤ chunks.length } :=
  match chunks with
  | [] => ⟨([], []), Nat.le_refl _⟩
  | c :: chunks =>
    match Opening.read? c.text with
    | some o =>
      match Chunk.beforeTerminator? o.rest with
      | some body =>
        let ⟨(parts, rest), h⟩ := read inside chunks
        ⟨(statement o (consText body []) :: parts, rest), Nat.le_succ_of_le h⟩
      | none =>
        let ⟨(content, behind), h⟩ := read true chunks
        let ⟨(parts, rest), h'⟩ := read inside behind
        ⟨(statement o (consText o.rest content) :: parts, rest),
          Nat.le_succ_of_le (Nat.le_trans h' h)⟩
    | none =>
      match if inside then Chunk.beforeTerminator? c.text else none with
      | some body => ⟨(consText body [], chunks), Nat.le_succ _⟩
      | none =>
        let ⟨(parts, rest), h⟩ := read inside chunks
        ⟨(consText c.text parts, rest), Nat.le_succ_of_le h⟩
termination_by chunks.length
decreasing_by
  all_goals simp only [List.length_cons] at *
  all_goals omega

mutual

/-- Puts a part at the end of a container that so many proofs enclose, itself among them. -/
def into (reader : Reader) (proofs : Nat) : Part → Node → Node
  | run texts, container => reader (['\n', '\n'].intercalate texts) container
  | statement o content, container =>
    let s := Statement.ofOpening o proofs
    let inside := if s.kind.isProof then proofs + 1 else proofs
    container.push (s.closed (allInto reader inside content s.opened))

/-- Puts parts at the end of a container. -/
def allInto (reader : Reader) (proofs : Nat) : List Part → Node → Node
  | [], container => container
  | p :: parts, container => allInto reader proofs parts (into reader proofs p container)

end

/-- The runs are as long as they can be: no run follows a run. None is empty, and no text in them is
blank. -/
inductive Grouped : List Part → Prop where
  | nil : Grouped []
  | statement {o : Opening} {content parts : List Part} (hcontent : Grouped content)
      (hparts : Grouped parts) : Grouped (statement o content :: parts)
  | run {texts : List (List Char)} {parts : List Part} (hne : texts ≠ [])
      (hblank : ∀ t ∈ texts, Text.isAllBlank t = false)
      (hnext : ∀ more, parts.head? ≠ some (run more)) (hparts : Grouped parts) :
      Grouped (run texts :: parts)

theorem Grouped.consText {parts : List Part} (h : Grouped parts) (text : List Char) :
    Grouped (Part.consText text parts) := by
  unfold Part.consText
  split
  · exact h
  · next hb =>
    have hb : Text.isAllBlank text = false := by simpa using hb
    -- text goes in front of a run that is there, and is a run of its own otherwise
    cases h with
    | nil => exact .run (by simp) (by simpa using hb) (by simp) .nil
    | statement hcontent hparts =>
      exact .run (by simp) (by simpa using hb) (by simp) (.statement hcontent hparts)
    | run hne hblank hnext hparts =>
      refine .run (by simp) ?_ hnext hparts
      intro t ht
      rcases List.mem_cons.1 ht with rfl | ht
      · exact hb
      · exact hblank t ht

/-- Every reading has runs that are as long as they can be. -/
theorem grouped_read (inside : Bool) (chunks : List Chunk) :
    Grouped (read inside chunks).1.1 := by
  fun_induction read inside chunks with
  | case1 => exact .nil
  | case2 inside c chunks o ho body hbody parts rest h hread ih =>
    rw [hread] at ih
    exact .statement (Grouped.nil.consText body) ih
  | case3 inside c chunks o ho hbody content behind h hin parts rest h' hread ihIn ih =>
    rw [hin] at ihIn
    rw [hread] at ih
    exact .statement (ihIn.consText o.rest) ih
  | case4 => exact Grouped.nil.consText _
  | case5 inside c chunks ho hbody parts rest h hread ih =>
    rw [hread] at ih
    exact ih.consText _

/-! ## Text that waits

Assembly keeps the run of the innermost container that may still grow. `joinRun` puts such a run in
front of the parts that are still to come. -/

/-- A run that waits, in front of parts. -/
def joinRun (run : List (List Char)) (parts : List Part) : List Part :=
  match run with
  | [] => parts
  | t :: run =>
    match parts with
    | .run texts :: parts => .run (t :: run ++ texts) :: parts
    | parts => .run (t :: run) :: parts

/-- A run that waits is complete when a statement follows. -/
theorem joinRun_statement (run : List (List Char)) (o : Opening) (content parts : List Part) :
    joinRun run (statement o content :: parts) = joinRun run [] ++ statement o content :: parts := by
  cases run <;> rfl

theorem allInto_append (reader : Reader) (proofs : Nat) (ps qs : List Part) (container : Node) :
    allInto reader proofs (ps ++ qs) container =
      allInto reader proofs qs (allInto reader proofs ps container) := by
  induction ps generalizing container with
  | nil => rfl
  | cons p ps ih => exact ih (into reader proofs p container)

end Part

namespace Assembly

/-- The tree, if there are no more chunks. -/
def tree (reader : Reader) (a : Assembly) : Node :=
  closeAll (a.flush reader).root (a.flush reader).frames

/-- The state once the innermost container has got its remaining parts. A statement is then a child
of the container around it. -/
def complete (reader : Reader) (a : Assembly) (parts : List Part) : Assembly :=
  let fill := Part.allInto reader a.proofDepth (Part.joinRun a.run parts)
  match a.frames with
  | [] => ⟨fill a.root, [], []⟩
  | frame :: frames =>
    Assembly.mapContainer ⟨a.root, frames, []⟩ (·.push (frame.statement.closed (fill frame.node)))

/-- Reading a run that waits is putting it into the container as a part. -/
theorem flush_eq (reader : Reader) (a : Assembly) :
    a.flush reader =
      { a.mapContainer (Part.allInto reader a.proofDepth (Part.joinRun a.run [])) with
        run := [] } := by
  obtain ⟨root, frames, run⟩ := a
  cases run with
  | nil => cases frames <;> rfl
  | cons t run => cases frames <;> rfl

/-! ## What one step does to the parts still to come -/

theorem joinRun_pushText (a : Assembly) (text : List Char) (parts : List Part) :
    Part.joinRun (a.pushText text).run parts =
      Part.joinRun a.run (Part.consText text parts) := by
  unfold pushText Part.consText
  split
  · rfl
  · obtain ⟨root, frames, run⟩ := a
    -- a run in `parts` takes the new text in front, and the waiting run takes it at its end
    cases run with
    | nil => cases parts with
      | nil => rfl
      | cons p parts => cases p <;> rfl
    | cons t run => cases parts with
      | nil => rfl
      | cons p parts => cases p <;> simp [Part.joinRun]

theorem frames_pushText (a : Assembly) (text : List Char) :
    (a.pushText text).frames = a.frames := by
  unfold pushText
  split <;> rfl

theorem root_pushText (a : Assembly) (text : List Char) : (a.pushText text).root = a.root := by
  unfold pushText
  split <;> rfl

/-- Text that is added is the first of the parts still to come. -/
theorem complete_pushText (reader : Reader) (a : Assembly) (text : List Char)
    (parts : List Part) :
    (a.pushText text).complete reader parts = a.complete reader (Part.consText text parts) := by
  unfold complete proofDepth
  rw [joinRun_pushText, frames_pushText, root_pushText]

/-- Closing a statement completes it with no more parts. -/
theorem closeStatement_eq (reader : Reader) {a : Assembly} (h : a.frames ≠ []) :
    a.closeStatement reader = a.complete reader [] := by
  obtain ⟨root, frames, run⟩ := a
  cases frames with
  | nil => exact absurd rfl h
  | cons frame frames =>
    unfold closeStatement
    rw [flush_eq]
    rfl

/-- Of an open statement only the kind counts for the number of open proofs. -/
theorem proofDepth_cons (root : Node) (frame : OpenStatement) (frames : List OpenStatement)
    (run : List (List Char)) :
    proofDepth ⟨root, frame :: frames, run⟩ =
      if frame.statement.kind.isProof then proofDepth ⟨root, frames, run⟩ + 1
      else proofDepth ⟨root, frames, run⟩ := by
  simp only [proofDepth, List.countP_cons]
  split <;> rfl

/-- A statement that is opened and completed is the first of the parts still to come. -/
theorem complete_openStatement (reader : Reader) (a : Assembly) (o : Opening) (start : Nat)
    (content parts : List Part) :
    ((a.openStatement reader o start).complete reader content).complete reader parts =
      a.complete reader (.statement o content :: parts) := by
  obtain ⟨root, frames, run⟩ := a
  unfold openStatement
  rw [flush_eq]
  -- the run that waits is read before the statement becomes a child
  cases frames with
  | nil =>
    simp only [complete, Part.joinRun_statement, Part.allInto_append]
    simp only [mapContainer, Part.joinRun, Part.allInto, Part.into, proofDepth_cons]
    rfl
  | cons frame frames =>
    simp only [complete, Part.joinRun_statement, Part.allInto_append]
    simp only [mapContainer, Part.joinRun, Part.allInto, Part.into, proofDepth_cons]
    rfl

theorem frames_complete_openStatement (reader : Reader) (a : Assembly) (o : Opening) (start : Nat)
    (content : List Part) :
    ((a.openStatement reader o start).complete reader content).frames.isEmpty =
      a.frames.isEmpty := by
  obtain ⟨root, frames, run⟩ := a
  unfold openStatement
  rw [flush_eq]
  cases frames <;> rfl

/-! ## One chunk

What a chunk does, in the four cases of the recursive reading. -/

theorem feedAll_cons (reader : Reader) (a : Assembly) (c : Chunk) (chunks : List Chunk) :
    a.feedAll reader (c :: chunks) = (a.feed reader c).2.feedAll reader chunks := rfl

theorem pushBody_closed (reader : Reader) {a : Assembly} {text body : List Char}
    (hframes : a.frames ≠ []) (hbody : Chunk.beforeTerminator? text = some body) :
    (a.pushBody reader text).2 = a.complete reader (Part.consText body []) := by
  have hpush : (a.pushText body).frames ≠ [] := by rwa [frames_pushText]
  rw [← complete_pushText, ← closeStatement_eq reader hpush]
  simp only [pushBody, Chunk.stripTerminator, hbody]

theorem pushBody_continued (reader : Reader) {a : Assembly} {text : List Char}
    (hbody : Chunk.beforeTerminator? text = none) :
    (a.pushBody reader text).2 = a.pushText text := by
  simp only [pushBody, Chunk.stripTerminator, hbody]

theorem feed_opening (reader : Reader) {a : Assembly} {c : Chunk} {o : Opening}
    (ho : Opening.read? c.text = some o) :
    a.feed reader c = (a.openStatement reader o c.start).pushBody reader o.rest := by
  simp only [feed, ho]

theorem frames_openStatement_ne_nil (reader : Reader) (a : Assembly) (o : Opening) (start : Nat) :
    (a.openStatement reader o start).frames ≠ [] := by
  simp [openStatement]

theorem feed_closed (reader : Reader) {a : Assembly} {c : Chunk} {body : List Char}
    (ho : Opening.read? c.text = none) (hframes : a.frames ≠ [])
    (hbody : Chunk.beforeTerminator? c.text = some body) :
    (a.feed reader c).2 = a.complete reader (Part.consText body []) := by
  rw [← pushBody_closed reader hframes hbody]
  simp [feed, ho, hframes]

theorem feed_text (reader : Reader) {a : Assembly} {c : Chunk}
    (ho : Opening.read? c.text = none)
    (hbody : a.frames ≠ [] → Chunk.beforeTerminator? c.text = none) :
    (a.feed reader c).2 = a.pushText c.text := by
  by_cases hframes : a.frames = []
  · simp [feed, ho, hframes]
  · rw [← pushBody_continued reader (hbody hframes)]
    simp [feed, ho, hframes]

/-! ## The whole run -/

/-- At the end, the innermost container has no more parts. -/
theorem tree_complete_nil (reader : Reader) (a : Assembly) :
    (a.complete reader []).tree reader = a.tree reader := by
  obtain ⟨root, frames, run⟩ := a
  unfold tree
  rw [flush_eq reader ⟨root, frames, run⟩]
  cases frames with
  | nil => rfl
  | cons frame frames =>
    -- `closeAll` closes the innermost statement into the container that `complete` put it into
    cases frames with
    | nil => simp [complete, mapContainer, flush, closeAll]
    | cons outer frames => simp [complete, mapContainer, flush, closeAll]

/-- Feeding chunks completes the innermost container with the parts that the recursive reading
finds, and goes on behind them. Induction on the recursive reading, for every state at once: a
statement inside starts from another state than the container around it. -/
theorem tree_feedAll (reader : Reader) (inside : Bool) (chunks : List Chunk) (a : Assembly)
    (h : inside = !a.frames.isEmpty) :
    (a.feedAll reader chunks).tree reader =
      ((a.complete reader (Part.read inside chunks).1.1).feedAll reader
        (Part.read inside chunks).1.2).tree reader := by
  fun_induction Part.read inside chunks generalizing a with
  | case1 => exact (tree_complete_nil reader a).symm
  | case2 inside c chunks o ho body hbody parts rest hle hread ih =>
    rw [hread] at ih
    rw [feedAll_cons, feed_opening reader ho,
      pushBody_closed reader (frames_openStatement_ne_nil reader a o c.start) hbody,
      ih _ (by rw [frames_complete_openStatement, h]), complete_openStatement]
  | case3 inside c chunks o ho hbody content behind hle hin parts rest hle' hread ihIn ih =>
    rw [hin] at ihIn
    rw [hread] at ih
    -- the statement stays open behind its first chunk, so the parts inside are read from there
    have hinner : true = !((a.openStatement reader o c.start).pushText o.rest).frames.isEmpty := by
      rw [frames_pushText]
      simp [openStatement]
    rw [feedAll_cons, feed_opening reader ho, pushBody_continued reader hbody, ihIn _ hinner,
      complete_pushText, ih _ (by rw [frames_complete_openStatement, h]), complete_openStatement]
  | case4 inside c chunks ho body hbody =>
    cases inside with
    | false => simp at hbody
    | true =>
      -- a terminator ends the reading of this container, whatever chunks follow
      have hframes : a.frames ≠ [] := by
        intro hnil
        simp [hnil] at h
      rw [feedAll_cons, feed_closed reader ho hframes (by simpa using hbody)]
  | case5 inside c chunks ho hbody parts rest hle hread ih =>
    rw [hread] at ih
    -- outside statements the text may end in a terminator, which is read as text
    have htext : a.frames ≠ [] → Chunk.beforeTerminator? c.text = none := by
      intro hframes
      simpa [h, hframes] using hbody
    rw [feedAll_cons, feed_text reader ho htext, ih _ (by rw [frames_pushText, h]),
      complete_pushText]

end Assembly

/-- A document is read to the end of its chunks. -/
theorem Part.rest_read_false (inside : Bool) (chunks : List Chunk) (h : inside = false) :
    (Part.read inside chunks).1.2 = [] := by
  fun_induction Part.read inside chunks with
  | case1 => rfl
  | case2 inside c chunks o ho body hbody parts rest hle hread ih =>
    rw [hread] at ih
    exact ih h
  | case3 inside c chunks o ho hbody content behind hle hin parts rest hle' hread ihIn ih =>
    rw [hread] at ih
    exact ih h
  | case4 inside c chunks ho body hbody => simp [h] at hbody
  | case5 inside c chunks ho hbody parts rest hle hread ih =>
    rw [hread] at ih
    exact ih h

theorem fst_assemble (reader : Reader) (chunks : List Chunk) (fileId : Nat) :
    (assemble reader chunks fileId).1 =
      Part.allInto reader 0 (Part.read false chunks).1.1 (Node.ofTag .root) := by
  -- nothing is left behind the parts, so that completing the root is all that happens
  have htree := Assembly.tree_feedAll reader false chunks .empty rfl
  rw [Part.rest_read_false false chunks rfl] at htree
  have hdone : (Assembly.complete reader .empty (Part.read false chunks).1.1).tree reader =
      Part.allInto reader 0 (Part.read false chunks).1.1 (Node.ofTag .root) := by
    simp only [Assembly.tree, Assembly.complete, Assembly.empty, Assembly.flush,
      List.isEmpty_nil, if_true, Assembly.closeAll]
    rfl
  exact htree.trans hdone

end Treatise
