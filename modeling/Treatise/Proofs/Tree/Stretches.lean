import Mathlib.Data.List.Chain
import Treatise.Proofs.Tree.Reading
import Treatise.Proofs.Tree.Tokens

/-!
# Stretches of events

Events are cut into runs of text, which may hold marks, and what stands between: the text of
verbatim elements, which is taken as it stands, what else is in these, which is dropped, and all
other events. Here it is said what each stretch means for a tree that the events are put into,
without the tree that grows.

* **`Stretch.ofEvents`** — the cut. Nothing is lost, and a run is as long as it can be
  (`Stretch.isCut_ofEvents`).
* **`Stretch.tokens`** — what a stretch puts into a tree; `Stretch.words`, `Stretch.nodes` and
  `Stretch.marks` — what of this are words, nodes, and marks among the nodes.
* `Stretch.tokensBehind` — the same for stretches behind text that waits.
* `Stretch.ofEvents_around`, `Stretch.ofEvents_around_of_isVerbatim` — the stretches of an element.
-/

namespace Treatise

open Markdown (Element Event WellNested)
open Node (Token)
open Node.Token (ofText)

/-! ## Events -/

namespace Markdown.Event

/-- Text, or a line break in it. -/
def isRunning : Event → Bool
  | text _ => true
  | softBreak => true
  | _ => false

/-- The text of an event. -/
def words : Event → List Char
  | text s => s
  | softBreak => ['\n']
  | code s => s
  | math _ s => s
  | html s => s
  | inlineHtml s => s
  | _ => []

/-- The node that an event is, if it is one by itself. -/
def node? : Event → Option Node
  | hardBreak => some (Node.ofTag .hardBreak)
  | code s => some ((Node.ofTag .code).setText (String.ofList s))
  | math display s => some ((Node.ofTag (.math display)).setText (String.ofList s))
  | html s => some ((Node.ofTag .html).setText (String.ofList s))
  | inlineHtml s => some ((Node.ofTag .html).setText (String.ofList s))
  | rule => some (Node.ofTag .rule)
  | _ => none

/-- The tokens of an event that is neither running text nor in a verbatim element. -/
def tokens : Event → List Node.Token
  | enter e => [.opens (Node.ofElement e)]
  | leave _ => [.closes]
  | e => (e.node?.map Node.spelled).getD (ofText e.words)

/-- The node that begins with an event, without its content. -/
def opened? : Event → Option Node
  | enter e => some (Node.ofElement e)
  | e => e.node?.map Node.head

variable {e : Event} {c : Node}

/-- What is a node by itself is no running text. -/
theorem of_node? (h : e.node? = some c) :
    e.isSingle = true ∧ e.isRunning = false ∧ e.tokens = c.spelled ∧ e.opened? = some c.head := by
  cases e <;> first
    | (obtain rfl := Option.some.inj h; exact ⟨rfl, rfl, rfl, rfl⟩)
    | cases h

/-- The node of an event holds nothing but the text of the event. -/
theorem content_of_node? (h : e.node? = some c) :
    c.text.toList = e.words ∧ c.children = [] ∧ c.tail = "" := by
  cases e <;> first
    | (obtain rfl := Option.some.inj h; exact ⟨String.toList_ofList, rfl, rfl⟩)
    | cases h

/-- The words and the nodes of an event, as its tokens tell them. -/
theorem filterMap_tokens (e : Event) :
    e.tokens.filterMap Token.char? = e.words ∧
      e.tokens.filterMap Token.node? = e.opened?.toList := by
  cases hnode : e.node? with
  | some c =>
    obtain ⟨-, -, htokens, hopened⟩ := of_node? hnode
    obtain ⟨htext, hchildren, -⟩ := content_of_node? hnode
    rw [htokens, hopened, ← htext]
    exact Node.filterMap_spelled hchildren
  | none =>
    cases e with
    | enter x => exact ⟨rfl, rfl⟩
    | leave k => exact ⟨rfl, rfl⟩
    | text s => exact ⟨Token.filterMap_char?_ofText s, Token.filterMap_node?_ofText s⟩
    | softBreak => exact ⟨rfl, rfl⟩
    | _ => cases hnode

/-- The verbatim element that begins with an event. -/
def verbatim? : Event → Option Element
  | enter x => if x.isVerbatim then some x else none
  | _ => none

/-- Only text adds to a verbatim element, and it adds all that it is. -/
theorem verbatimText_eq (e : Event) : e.verbatimText = if e.isText then e.words else [] := by
  cases e <;> rfl

end Markdown.Event

def Segment.tokens : Segment → List Token
  | text s => ofText s
  | mark m _ => m.node.spelled

/-- A stretch of events. -/
inductive Stretch where
  /-- Texts and line breaks that follow each other. -/
  | run (texts : List Event)
  /-- The text of a verbatim element. -/
  | verbatim (e : Event)
  /-- What else stands in a verbatim element, and is no text of it. -/
  | dropped (e : Event)
  | other (e : Event)

namespace Stretch

def events : Stretch → List Event
  | run texts => texts
  | verbatim e => [e]
  | dropped e => [e]
  | other e => [e]

/-- A text in front of stretches, joined to a run that they begin with. -/
def consRun (e : Event) : List Stretch → List Stretch
  | run texts :: ss => run (e :: texts) :: ss
  | ss => run [e] :: ss

/-- An event in a verbatim element. -/
def literal (e : Event) : Stretch := if e.isText then verbatim e else dropped e

/-- Cuts events into stretches. `holder` is the verbatim element that they begin in. -/
def ofEvents (holder : Option Element) : List Event → List Stretch
  | [] => []
  | e :: es =>
    match holder with
    | some x =>
      if e = .leave x.ending then other e :: ofEvents none es
      else literal e :: ofEvents (some x) es
    | none =>
      if e.isRunning then consRun e (ofEvents none es)
      else other e :: ofEvents e.verbatim? es

/-- The tokens of running text. -/
def runTokens (s : List Char) : List Token := (Segment.scan s).flatMap Segment.tokens

/-- What a stretch puts into the tree. -/
def tokens : Stretch → List Token
  | run texts => runTokens (texts.flatMap Event.words)
  | verbatim e => ofText e.words
  | dropped _ => []
  | other e => e.tokens

/-- The tokens of stretches behind text that waits. -/
def tokensBehind (waiting : List Char) : List Stretch → List Token
  | run texts :: ss => runTokens (waiting ++ texts.flatMap Event.words) ++ ss.flatMap tokens
  | ss => runTokens waiting ++ ss.flatMap tokens

variable {e : Event} {es : List Event}

theorem runTokens_nil : runTokens [] = [] := by
  simp [runTokens, Segment.scan]

theorem tokensBehind_nil (ss : List Stretch) : tokensBehind [] ss = ss.flatMap tokens := by
  unfold tokensBehind
  split
  · simp [tokens]
  · simp [runTokens_nil]

theorem tokensBehind_consRun (w : List Char) (e : Event) (ss : List Stretch) :
    tokensBehind w (consRun e ss) = tokensBehind (w ++ e.words) ss := by
  unfold consRun
  split
  · simp [tokensBehind]
  · simp [tokensBehind]

theorem tokensBehind_other (w : List Char) (e : Event) (ss : List Stretch) :
    tokensBehind w (other e :: ss) = runTokens w ++ (e.tokens ++ ss.flatMap tokens) := rfl

/-- A text goes on with the run behind it, or begins a run. -/
theorem consRun_cases (e : Event) (ss : List Stretch) :
    (∃ texts ts, ss = run texts :: ts ∧ consRun e ss = run (e :: texts) :: ts) ∨
      consRun e ss = run [e] :: ss := by
  unfold consRun
  split
  · exact .inl ⟨_, _, rfl, rfl⟩
  · exact .inr rfl

theorem consRun_append_other (d e : Event) (ss ts : List Stretch) :
    consRun d (ss ++ other e :: ts) = consRun d ss ++ other e :: ts := by
  cases ss with
  | nil => rfl
  | cons s ss => cases s <;> rfl

theorem events_literal (e : Event) : (literal e).events = [e] := by
  unfold literal
  split <;> rfl

theorem tokens_literal (e : Event) : (literal e).tokens = ofText e.verbatimText := by
  rw [literal, Event.verbatimText_eq]
  split <;> rfl

theorem flatMap_tokens_literal (inside : List Event) :
    (inside.map literal).flatMap tokens = ofText (inside.flatMap Event.verbatimText) := by
  induction inside with
  | nil => rfl
  | cons e inside ih =>
    rw [List.map_cons, List.flatMap_cons, List.flatMap_cons, ih, tokens_literal,
      Node.Token.ofText_append]

theorem ofEvents_running (h : e.isRunning = true) :
    ofEvents none (e :: es) = consRun e (ofEvents none es) := by
  rw [ofEvents, if_pos h]

theorem ofEvents_other (h : e.isRunning = false) :
    ofEvents none (e :: es) = other e :: ofEvents e.verbatim? es := by
  rw [ofEvents, if_neg (by rw [h]; exact Bool.false_ne_true)]

theorem ofEvents_single (h : e.isSingle = true) (hrun : e.isRunning = false) :
    ofEvents none (e :: es) = other e :: ofEvents none es := by
  rw [ofEvents_other hrun]
  cases e <;> first | rfl | cases h

/-- What stands in a verbatim element up to its end. -/
theorem ofEvents_inside {x : Element} {inside : List Event} (hend : .leave x.ending ∉ inside)
    (es : List Event) :
    ofEvents (some x) (inside ++ .leave x.ending :: es) =
      inside.map literal ++ other (.leave x.ending) :: ofEvents none es := by
  induction inside with
  | nil => rw [List.nil_append, ofEvents, if_pos rfl, List.map_nil, List.nil_append]
  | cons e inside ih =>
    obtain ⟨he, hinside⟩ := not_or.1 (mt List.mem_cons.2 hend)
    rw [List.cons_append, ofEvents, if_neg (Ne.symm he), ih hinside, List.map_cons, List.cons_append]

/-- The stretches of a verbatim element. -/
theorem ofEvents_around_of_isVerbatim {x : Element} (hx : x.isVerbatim = true)
    {inside : List Event} (hend : .leave x.ending ∉ inside) (es : List Event) :
    ofEvents none (x.around inside ++ es) =
      other (.enter x) ::
        (inside.map literal ++ other (.leave x.ending) :: ofEvents none es) := by
  have hholder : Event.verbatim? (.enter x) = some x := if_pos hx
  rw [Element.around_append, ofEvents_other rfl, hholder, ofEvents_inside hend]

/-- A run goes on over nothing but texts. Induction on the nesting: behind an element there is no
verbatim element open. -/
theorem ofEvents_append {fits : Option Element → Event → Prop} {holder : Option Element}
    {front : List Event} (h : WellNested fits holder front) (he : e.isRunning = false)
    (rest : List Event) :
    ofEvents none (front ++ e :: rest) =
      ofEvents none front ++ other e :: ofEvents e.verbatim? rest := by
  induction h generalizing e rest with
  | nil => rw [List.nil_append, ofEvents_other he]; rfl
  | @single holder d es hsingle _ _ ih =>
    rw [List.cons_append]
    by_cases hd : d.isRunning = true
    · rw [ofEvents_running hd, ofEvents_running hd, ih he, consRun_append_other]
    · rw [Bool.not_eq_true] at hd
      rw [ofEvents_single hsingle hd, ofEvents_single hsingle hd, ih he, List.cons_append]
  | @verbatim holder x inside es hverbatim _ _ hend _ ih =>
    rw [List.append_assoc, ofEvents_around_of_isVerbatim hverbatim hend,
      ofEvents_around_of_isVerbatim hverbatim hend, ih he]
    simp
  | @around holder x inside es hverbatim _ _ _ ihInside ih =>
    have hholder : Event.verbatim? (.enter x) = none := if_neg (by simp [hverbatim])
    have hinside (es : List Event) : ofEvents none (inside ++ .leave x.ending :: es) =
        ofEvents none inside ++ other (.leave x.ending) :: ofEvents none es := ihInside rfl es
    rw [List.append_assoc, Element.around_append, Element.around_append, ofEvents_other rfl,
      ofEvents_other rfl, hholder, hinside, hinside, ih he]
    simp

/-- The stretches of any other element. -/
theorem ofEvents_around {fits : Option Element → Event → Prop} {holder : Option Element}
    {x : Element} (hx : x.isVerbatim = false) {inside : List Event}
    (h : WellNested fits holder inside) (es : List Event) :
    ofEvents none (x.around inside ++ es) =
      other (.enter x) ::
        (ofEvents none inside ++ other (.leave x.ending) :: ofEvents none es) := by
  have hholder : Event.verbatim? (.enter x) = none := if_neg (by simp [hx])
  rw [Element.around_append, ofEvents_other rfl, hholder, ofEvents_append h rfl]
  rfl

/-! ### Verbatim elements -/

/-- Behind the start of each verbatim element stands what is in it, and then its end. -/
def EndsVerbatim (ss : List Stretch) : Prop :=
  ∀ before x rest, ss = before ++ other (.enter x) :: rest → x.isVerbatim = true →
    ∃ (inside : List Event) (behind : List Stretch), .leave x.ending ∉ inside ∧
      rest = inside.map literal ++ other (.leave x.ending) :: behind

theorem EndsVerbatim.append {ss ts : List Stretch} (hss : EndsVerbatim ss)
    (hts : EndsVerbatim ts) : EndsVerbatim (ss ++ ts) := by
  intro before x rest heq hx
  rcases List.append_eq_append_iff.1 heq with ⟨between, rfl, hbetween⟩ | ⟨between, hbetween, rest'⟩
  · exact hts between x rest hbetween hx
  · cases between with
    | nil =>
      obtain rfl : before = ss := by simpa using hbetween.symm
      exact hts [] x rest rest'.symm hx
    | cons s between =>
      obtain ⟨rfl, rfl⟩ := List.cons.inj rest'
      obtain ⟨inside, behind, hend, rfl⟩ := hss before x between hbetween hx
      exact ⟨inside, behind ++ ts, hend, by simp⟩

/-- Stretches among which no verbatim element begins. -/
theorem EndsVerbatim.of_forall {ss : List Stretch}
    (h : ∀ x, x.isVerbatim = true → other (.enter x) ∉ ss) : EndsVerbatim ss := by
  rintro before x rest rfl hx
  exact absurd (List.mem_append_right before List.mem_cons_self) (h x hx)

theorem other_ne_literal (e d : Event) : literal d ≠ other e := by
  unfold literal
  split <;> nofun

/-- Nested events end the verbatim elements that they begin. -/
theorem endsVerbatim_ofEvents {fits : Option Element → Event → Prop} {holder : Option Element}
    (h : WellNested fits holder es) : EndsVerbatim (ofEvents none es) := by
  have hone {s : Stretch} (hs : ∀ x, x.isVerbatim = true → s ≠ other (.enter x)) :
      EndsVerbatim [s] :=
    .of_forall fun x hx hmem => hs x hx (List.mem_singleton.1 hmem).symm
  induction h with
  | nil => exact .of_forall fun _ _ => List.not_mem_nil
  | @single holder e es hsingle _ _ ih =>
    by_cases hrun : e.isRunning = true
    · rw [ofEvents_running hrun]
      rcases consRun_cases e (ofEvents none es) with ⟨texts, ts, heq, hcons⟩ | hcons
      · rw [heq] at ih
        rw [hcons]
        refine (hone (s := run (e :: texts)) nofun).append fun before x rest hts hx => ?_
        exact ih (run texts :: before) x rest (congrArg (run texts :: ·) hts) hx
      · rw [hcons]
        exact (hone (s := run [e]) nofun).append ih
    · rw [ofEvents_single hsingle (by simpa using hrun)]
      exact (hone (s := other e) (by rintro x - ⟨rfl⟩; cases hsingle)).append ih
  | @verbatim holder x inside es hverbatim _ _ hend _ ih =>
    rw [ofEvents_around_of_isVerbatim hverbatim hend]
    rintro (_ | ⟨s, before⟩) y rest heq hy
    · cases heq
      exact ⟨inside, _, hend, rfl⟩
    · have heq := (List.cons.inj heq).2
      -- what is in the element begins none
      have hinside : EndsVerbatim (inside.map literal) := .of_forall fun y _ hmem => by
        obtain ⟨d, -, hd⟩ := List.mem_map.1 hmem
        exact other_ne_literal _ _ hd
      exact hinside.append ((hone (s := other (.leave x.ending)) nofun).append ih) before y rest heq hy
  | @around holder x inside es hverbatim _ hinside _ ihInside ih =>
    rw [ofEvents_around hverbatim hinside]
    have henter : EndsVerbatim [other (.enter x)] := hone fun y hy h => by
      cases h
      rw [hverbatim] at hy
      cases hy
    exact henter.append (ihInside.append ((hone (s := other (.leave x.ending)) nofun).append ih))

/-- Nothing is dropped where verbatim elements hold nothing but text. -/
theorem dropped_notMem_ofEvents {fits : Option Element → Event → Prop} {holder : Option Element}
    (h : WellNested fits holder es)
    (hfits : ∀ x e, x.isVerbatim = true → fits (some x) e → e.isText = true) (e : Event) :
    dropped e ∉ ofEvents none es := by
  induction h with
  | nil => exact List.not_mem_nil
  | @single holder d es hsingle _ _ ih =>
    by_cases hrun : d.isRunning = true
    · rw [ofEvents_running hrun]
      rcases consRun_cases d (ofEvents none es) with ⟨texts, ts, heq, hcons⟩ | hcons
      · rw [heq] at ih
        simpa [hcons] using ih
      · simpa [hcons] using ih
    · rw [ofEvents_single hsingle (by simpa using hrun)]
      simpa using ih
  | @verbatim holder x inside es hverbatim _ hinside hend _ ih =>
    have hliteral : dropped e ∉ inside.map literal := by
      intro hmem
      obtain ⟨d, hd, heq⟩ := List.mem_map.1 hmem
      rw [literal, if_pos (hfits x d hverbatim (hinside d hd))] at heq
      cases heq
    rw [ofEvents_around_of_isVerbatim hverbatim hend]
    simp [hliteral, ih]
  | @around holder x inside es hverbatim _ hinside _ ihInside ih =>
    rw [ofEvents_around hverbatim hinside]
    simp [ihInside, ih]

/-! ### The cut -/

def isRun : Stretch → Bool
  | run _ => true
  | _ => false

/-- The events are cut into these stretches: each event is in one of them, and there is something
else between two runs, so that a run is as long as it can be. -/
structure IsCut (es : List Event) (ss : List Stretch) : Prop where
  joined : ss.flatMap events = es
  runs : ∀ texts, run texts ∈ ss → texts ≠ [] ∧ ∀ e ∈ texts, e.isRunning = true
  others : ∀ e, other e ∈ ss → e.isRunning = false
  apart : ss.IsChain fun a b => a.isRun = false ∨ b.isRun = false

theorem IsCut.cons {s : Stretch} {es : List Event} {ss : List Stretch} (h : IsCut es ss)
    (hrun : s.isRun = false) (hother : ∀ e, s = other e → e.isRunning = false) :
    IsCut (s.events ++ es) (s :: ss) where
  joined := by rw [List.flatMap_cons, h.joined]
  runs texts hmem := by
    rcases List.mem_cons.1 hmem with rfl | hmem
    · cases hrun
    · exact h.runs texts hmem
  others e hmem := by
    rcases List.mem_cons.1 hmem with heq | hmem
    · exact hother e heq.symm
    · exact h.others e hmem
  apart := List.isChain_cons.2 ⟨fun _ _ => .inl hrun, h.apart⟩

theorem IsCut.consRun {e : Event} {es : List Event} {ss : List Stretch} (h : IsCut es ss)
    (he : e.isRunning = true) : IsCut (e :: es) (consRun e ss) := by
  unfold Stretch.consRun
  split
  · next texts ss =>
    -- the run goes on to the left, and what follows it stays the same
    obtain ⟨-, htexts⟩ := h.runs texts List.mem_cons_self
    refine ⟨congrArg (e :: ·) h.joined, fun texts' hmem => ?_, fun e' hmem => ?_, ?_⟩
    · rcases List.mem_cons.1 hmem with heq | hmem
      · cases heq
        exact ⟨List.cons_ne_nil e texts, List.forall_mem_cons.2 ⟨he, htexts⟩⟩
      · exact h.runs texts' (List.mem_cons_of_mem _ hmem)
    · exact h.others e' (by simpa using hmem)
    · obtain ⟨hnext, hchain⟩ := List.isChain_cons.1 h.apart
      exact List.isChain_cons.2 ⟨hnext, hchain⟩
  · next hnot =>
    refine ⟨congrArg (e :: ·) h.joined, fun texts hmem => ?_, fun e' hmem => ?_, ?_⟩
    · rcases List.mem_cons.1 hmem with heq | hmem
      · cases heq
        exact ⟨List.cons_ne_nil e [], by simpa using he⟩
      · exact h.runs texts hmem
    · exact h.others e' (by simpa using hmem)
    · refine List.isChain_cons.2 ⟨fun next hnext => .inr ?_, h.apart⟩
      obtain ⟨behind, rfl⟩ := List.head?_eq_some_iff.1 hnext
      cases next with
      | run texts => exact absurd rfl (hnot texts behind)
      | _ => rfl

theorem isCut_ofEvents (holder : Option Element) (es : List Event) :
    IsCut es (ofEvents holder es) := by
  fun_induction ofEvents holder es with
  | case1 => exact ⟨rfl, nofun, nofun, .nil⟩
  | case2 es x ih =>
    exact @IsCut.cons (other (.leave x.ending)) _ _ ih rfl (by rintro e ⟨rfl⟩; rfl)
  | case3 e es x _ ih =>
    have hcut : IsCut ((literal e).events ++ es) (literal e :: ofEvents (some x) es) := by
      refine ih.cons ?_ ?_
      · unfold literal
        split <;> rfl
      · unfold literal
        split <;> nofun
    rwa [events_literal] at hcut
  | case4 e es hrun ih => exact ih.consRun hrun
  | case5 e es hrun ih =>
    exact @IsCut.cons (other e) _ _ ih rfl (by rintro e ⟨rfl⟩; simpa using hrun)

end Stretch

/-! ## Words, nodes and marks -/

/-- The node is a mark in running text. -/
def Tag.isMark : Tag → Bool
  | .label | .reference | .citation | .bibEntry => true
  | _ => false

namespace Segment

/-- The text that is left when marks are taken out. -/
def words : Segment → List Char
  | text s => s
  | mark _ _ => []

def mark? : Segment → Option Node
  | text _ => none
  | mark m _ => some m.node

theorem filterMap_tokens (segment : Segment) :
    segment.tokens.filterMap Token.char? = segment.words ∧
      segment.tokens.filterMap Token.node? = segment.mark?.toList := by
  cases segment with
  | text s => simp [tokens, words, mark?]
  | mark m inner => exact ⟨rfl, rfl⟩

end Segment

namespace Stretch

/-- The text that a stretch puts into the tree. -/
def words : Stretch → List Char
  | run texts => (Segment.scan (texts.flatMap Event.words)).flatMap Segment.words
  | verbatim e => e.words
  | dropped _ => []
  | other e => e.words

/-- The marks that a stretch puts into the tree. -/
def marks : Stretch → List Node
  | run texts => (Segment.scan (texts.flatMap Event.words)).filterMap Segment.mark?
  | _ => []

/-- The nodes that a stretch puts into the tree, without their content. -/
def nodes : Stretch → List Node
  | other e => e.opened?.toList
  | s => s.marks

theorem filterMap_runTokens (s : List Char) :
    (runTokens s).filterMap Token.char? = (Segment.scan s).flatMap Segment.words ∧
      (runTokens s).filterMap Token.node? = (Segment.scan s).filterMap Segment.mark? := by
  rw [runTokens]
  induction Segment.scan s with
  | nil => exact ⟨rfl, rfl⟩
  | cons segment segments ih =>
    obtain ⟨hwords, hmarks⟩ := segment.filterMap_tokens
    rw [List.flatMap_cons, List.filterMap_append, List.filterMap_append, ih.1, ih.2, hwords, hmarks]
    refine ⟨rfl, ?_⟩
    rw [List.filterMap_cons]
    cases segment.mark? <;> rfl

/-- The words and the nodes of a stretch, as its tokens tell them. -/
theorem filterMap_tokens (s : Stretch) :
    s.tokens.filterMap Token.char? = s.words ∧ s.tokens.filterMap Token.node? = s.nodes := by
  cases s with
  | run texts => exact filterMap_runTokens _
  | verbatim e => exact ⟨Token.filterMap_char?_ofText e.words, Token.filterMap_node?_ofText e.words⟩
  | dropped e => exact ⟨rfl, rfl⟩
  | other e => exact e.filterMap_tokens

theorem filterMap_flatMap_tokens {β : Type} {f : Token → Option β} {g : Stretch → List β}
    (h : ∀ s, s.tokens.filterMap f = g s) (ss : List Stretch) :
    (ss.flatMap tokens).filterMap f = ss.flatMap g := by
  induction ss with
  | nil => rfl
  | cons s ss ih => rw [List.flatMap_cons, List.filterMap_append, h, ih, List.flatMap_cons]

/-- Marks are found in running text only. -/
theorem filter_isMark_nodes (s : Stretch) : s.nodes.filter (·.tag.isMark) = s.marks := by
  cases s with
  | run texts =>
    refine List.filter_eq_self.2 fun n hn => ?_
    obtain ⟨segment, -, hmark⟩ := List.mem_filterMap.1 hn
    cases segment with
    | text s => cases hmark
    | mark m inner =>
      obtain rfl := Option.some.inj hmark
      obtain ⟨kind, key⟩ := m
      cases kind <;> rfl
  | verbatim e => rfl
  | dropped e => rfl
  | other e =>
    refine List.filter_eq_nil_iff.2 fun n hn => ?_
    cases e with
    | enter x =>
      obtain rfl := List.mem_singleton.1 hn
      cases x <;> simp [Node.ofElement, Node.tag_withTitle, Node.ofTag, Node.setAttr, Tag.isMark]
    | leave k => cases hn
    | text s => cases hn
    | softBreak => cases hn
    | _ =>
      obtain rfl := List.mem_singleton.1 hn
      exact Bool.false_ne_true

end Stretch

end Treatise
