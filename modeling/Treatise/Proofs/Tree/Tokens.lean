import Treatise.Proofs.Tree.Forest

/-!
# Trees as tokens

A tree that is read from its start to its end: nodes begin and end, and characters stand between. In
this form it does not matter whether a character is in the text of a node or in the tail of one, and
putting something at the end of a node is putting tokens at the end of a list.

* **`Node.tokens`** — the content of a node as tokens, and `Node.spelled` — the node as one.
* **`Node.tokens_appendText`**, **`Node.tokens_push`** — what is put at the end.
* **`Node.eq_of_tokens_eq`** — a node with given tokens is determined, but for what it is itself.
* `Node.textContent_eq_tokens`, `Node.descendants_eq_tokens` — the words and the nodes of a tree.
-/

namespace Treatise.Node

/-- What a reader of a tree comes to. -/
inductive Token where
  /-- A node begins, which is given without its content and its tail. -/
  | opens (n : Node)
  | char (c : Char)
  | closes

namespace Token

/-- The characters of a text. -/
def ofText (s : List Char) : List Token := s.map char

@[simp] def char? : Token → Option Char
  | opens _ => none
  | char c => some c
  | closes => none

@[simp] def node? : Token → Option Node
  | opens n => some n
  | char _ => none
  | closes => none

variable {s t : List Char} {ts us : List Token}

@[simp] theorem ofText_nil : ofText [] = [] := rfl

@[simp] theorem ofText_append (s t : List Char) : ofText (s ++ t) = ofText s ++ ofText t :=
  List.map_append

@[simp] theorem filterMap_char?_ofText (s : List Char) : (ofText s).filterMap char? = s := by
  induction s with
  | nil => rfl
  | cons c s ih => exact congrArg (c :: ·) ih

@[simp] theorem filterMap_node?_ofText (s : List Char) : (ofText s).filterMap node? = [] := by
  induction s with
  | nil => rfl
  | cons c s ih => exact ih

/-- No character stands at the start. -/
def NoText (ts : List Token) : Prop := ∀ t ∈ ts.head?, t.char? = none

/-- No more content stands at the start: the node around it ends, or everything does. -/
def Stops (ts : List Token) : Prop := ∀ t ∈ ts.head?, t = closes

theorem Stops.noText (h : Stops ts) : NoText ts := fun t ht => by rw [h t ht]; rfl

theorem stops_nil : Stops [] := nofun

theorem stops_closes (ts : List Token) : Stops (closes :: ts) := by
  rintro t ⟨rfl⟩
  rfl

/-- A text ends where something else begins. -/
theorem ofText_append_inj (h : ofText s ++ ts = ofText t ++ us) (hts : NoText ts)
    (hus : NoText us) : s = t ∧ ts = us := by
  induction s generalizing t with
  | nil =>
    cases t with
    | nil => exact ⟨rfl, h⟩
    | cons c t =>
      obtain rfl : ts = char c :: (ofText t ++ us) := h
      cases hts _ rfl
  | cons c s ih =>
    cases t with
    | nil =>
      obtain rfl : char c :: (ofText s ++ ts) = us := h
      cases hus _ rfl
    | cons d t =>
      obtain ⟨hchar, hrest⟩ := List.cons.inj h
      obtain ⟨rfl, rfl⟩ := ih hrest
      exact ⟨by rw [Token.char.inj hchar], rfl⟩

end Token

open Token (ofText NoText Stops)

/-- The node without its content. -/
def frame (n : Node) : Node := { n with text := "", children := [] }

/-- The node without its content and without what is behind it. -/
def head (n : Node) : Node := { n.frame with tail := "" }

mutual

/-- The content of a node. -/
def tokens : Node → List Token
  | ⟨_, _, _, text, _, children⟩ => ofText text.toList ++ tokensOf children

/-- Nodes that follow each other, with their tails. -/
def tokensOf : List Node → List Token
  | [] => []
  | n :: ns =>
    .opens n.head :: (n.tokens ++ .closes :: (ofText n.tail.toList ++ tokensOf ns))

end

/-- The node as a whole, without its tail. -/
def spelled (n : Node) : List Token := .opens n.head :: (n.tokens ++ [.closes])

variable {n m : Node} {ns ms : List Node} {s : String}

theorem tokens_eq (n : Node) : n.tokens = ofText n.text.toList ++ tokensOf n.children := by
  cases n
  rfl

@[simp] theorem tokensOf_nil : tokensOf [] = [] := rfl

theorem tokensOf_cons (n : Node) (ns : List Node) :
    tokensOf (n :: ns) = n.spelled ++ ofText n.tail.toList ++ tokensOf ns := by
  simp [tokensOf, spelled]

theorem tokensOf_append (ns ms : List Node) : tokensOf (ns ++ ms) = tokensOf ns ++ tokensOf ms := by
  induction ns with
  | nil => rfl
  | cons n ns ih =>
    rw [List.cons_append, tokensOf_cons, tokensOf_cons, ih, ← List.append_assoc]

/-! ## What is put at the end -/

theorem tokens_push (n : Node) {c : Node} (hc : c.tail = "") :
    (n.push c).tokens = n.tokens ++ c.spelled := by
  rw [tokens_eq, tokens_eq n, push, tokensOf_append, tokensOf_cons, hc]
  simp

theorem tokensOf_extendLastTail (hne : ns ≠ []) :
    tokensOf (extendLastTail s ns) = tokensOf ns ++ ofText s.toList := by
  fun_induction extendLastTail s ns with
  | case1 => exact absurd rfl hne
  | case2 n =>
    rw [tokensOf_cons, tokensOf_cons, show ({ n with tail := n.tail ++ s } : Node).spelled =
      n.spelled by cases n; rfl]
    simp
  | case3 n m ns ih =>
    rw [tokensOf_cons, ih (List.cons_ne_nil m ns), tokensOf_cons n,
      List.append_assoc _ _ (ofText _)]

theorem tokens_appendText (n : Node) (s : String) :
    (n.appendText s).tokens = n.tokens ++ ofText s.toList := by
  unfold appendText
  split
  · next hnil => simp [tokens_eq, hnil]
  · next hcons =>
    have hne : n.children ≠ [] := by rw [hcons]; exact List.cons_ne_nil _ _
    rw [tokens_eq, tokens_eq n, tokensOf_extendLastTail hne, List.append_assoc]

theorem frame_appendText (n : Node) (s : String) : (n.appendText s).frame = n.frame := by
  unfold appendText
  split <;> rfl

/-! ## Reading a tree back -/

theorem noText_tokensOf_append {ts : List Token} (h : Stops ts) : NoText (tokensOf ns ++ ts) := by
  cases ns with
  | nil => exact h.noText
  | cons n ns => rintro t ⟨rfl⟩; rfl

theorem eq_of_head_eq (h : n.head = m.head) (htext : n.text.toList = m.text.toList)
    (htail : n.tail.toList = m.tail.toList) (hchildren : n.children = m.children) : n = m := by
  cases n
  cases m
  simp_all [head, frame, String.toList_inj]

/-- Nodes are determined by their tokens, up to where the content around them ends. Induction on the
forest: the tokens of a first node tell where its text, its children and its tail end. -/
theorem tokensOf_append_inj {ts us : List Token} (h : tokensOf ns ++ ts = tokensOf ms ++ us)
    (hts : Stops ts) (hus : Stops us) : ns = ms ∧ ts = us := by
  induction ns using Node.forest_induction generalizing ms ts us with
  | nil =>
    cases ms with
    | nil => exact ⟨rfl, h⟩
    | cons m ms =>
      obtain rfl : ts = _ := h
      cases hts _ rfl
  | cons n ns below behind =>
    cases ms with
    | nil =>
      obtain rfl : _ = us := h
      cases hus _ rfl
    | cons m ms =>
      simp only [tokensOf, tokens_eq, List.cons_append, List.append_assoc, List.cons.injEq,
        Token.opens.injEq] at h
      obtain ⟨hhead, h⟩ := h
      obtain ⟨htext, h⟩ := Token.ofText_append_inj h
        (noText_tokensOf_append (Token.stops_closes _))
        (noText_tokensOf_append (Token.stops_closes _))
      obtain ⟨hchildren, h⟩ := below h (Token.stops_closes _) (Token.stops_closes _)
      obtain ⟨htail, h⟩ := Token.ofText_append_inj (List.cons.inj h).2
        (noText_tokensOf_append hts) (noText_tokensOf_append hus)
      obtain ⟨rfl, rfl⟩ := behind h hts hus
      exact ⟨by rw [eq_of_head_eq hhead htext htail hchildren], rfl⟩

/-- A node is determined by its tokens and by what it is without its content. -/
theorem eq_of_tokens_eq (hframe : n.frame = m.frame) (h : n.tokens = m.tokens) : n = m := by
  have htail : n.tail = m.tail := congrArg (·.tail) hframe
  have hstop (ns : List Node) : NoText (tokensOf ns ++ []) := noText_tokensOf_append Token.stops_nil
  simp only [List.append_nil] at hstop
  rw [tokens_eq, tokens_eq] at h
  obtain ⟨htext, hrest⟩ := Token.ofText_append_inj h (hstop _) (hstop _)
  rw [← List.append_nil (tokensOf _), ← List.append_nil (tokensOf m.children)] at hrest
  have hchildren := (tokensOf_append_inj hrest Token.stops_nil Token.stops_nil).1
  exact eq_of_head_eq (by rw [head, head, hframe]) htext (by rw [htail]) hchildren

/-! ## Words and nodes -/

theorem textContentOf_eq_tokens (ns : List Node) :
    textContentOf ns = String.ofList ((tokensOf ns).filterMap Token.char?) := by
  induction ns using Node.forest_induction with
  | nil => rfl
  | cons n ns below behind =>
    rw [textContentOf, textContent_eq, below, behind]
    simp [tokensOf, tokens_eq, List.filterMap_cons, String.ofList_append, String.append_assoc]

theorem textContent_eq_tokens (n : Node) :
    n.textContent = String.ofList (n.tokens.filterMap Token.char?) := by
  rw [textContent_eq, textContentOf_eq_tokens, tokens_eq]
  simp [String.ofList_append]

theorem descendantsOf_eq_tokens (ns : List Node) :
    (descendantsOf ns).map head = (tokensOf ns).filterMap Token.node? := by
  induction ns using Node.forest_induction with
  | nil => rfl
  | cons n ns below behind =>
    rw [descendantsOf_cons, List.map_cons, List.map_append, below, behind]
    simp [tokensOf, tokens_eq, List.filterMap_cons]

theorem descendants_eq_tokens (n : Node) :
    n.descendants.map head = n.tokens.filterMap Token.node? := by
  rw [descendants_eq, descendantsOf_eq_tokens, tokens_eq]
  simp

/-- A node that holds nothing but its text. -/
theorem filterMap_spelled (h : n.children = []) :
    n.spelled.filterMap Token.char? = n.text.toList ∧
      n.spelled.filterMap Token.node? = [n.head] := by
  simp [spelled, tokens_eq, h, List.filterMap_cons]

end Treatise.Node
