import Treatise.Markdown.Emphasis
import Treatise.Markdown.RawHtml
import Treatise.Markdown.Token

/-!
# Running text

The inline content of running text. Tokens are taken from left to right: code, mathematics, raw HTML
and links in angle brackets are read first-come, a closing bracket looks back for the opening one, and
emphasis is paired last, within each link and in the text around.

* `readInlines` — the inline content of a passage, given the link definitions of the document.
-/

namespace Treatise.Markdown

/-- A bracket that may begin the text of a link or image. -/
structure Bracket where
  image : Bool
  /-- What the bracket shows if it is text. -/
  literal : List Char
  /-- Links do not nest: what encloses a link is no link. -/
  active : Bool
  /-- The text behind the bracket and its length. -/
  after : List Char
  left : Nat
  /-- What stands behind the bracket, the last first. -/
  items : List Item

/-- Running text read in part. -/
structure Running where
  /-- What stands before the first open bracket, the last first. -/
  items : List Item
  /-- The open brackets, the last first. -/
  brackets : List Bracket
  /-- Closing brackets, by the length of the text behind them, that ended the label of a failed
  reference and name no definition by themselves. -/
  spent : List Nat

namespace Running

def empty : Running := ⟨[], [], []⟩

/-- Adds items at the end. The items come last first. -/
def append (r : Running) (items : List Item) : Running :=
  match r.brackets with
  | [] => { r with items := items ++ r.items }
  | b :: brackets => { r with brackets := { b with items := items ++ b.items } :: brackets }

def add (r : Running) (i : Inline) : Running := r.append [.content i]

/-- A bracket as text, with what stands behind it. -/
def Bracket.asText (b : Bracket) : List Item :=
  b.items ++ [.content (.text b.literal)]

/-- The tokens that begin behind a place, which is given by the length of the text behind it. -/
def behind (left : Nat) (ts : List Token) : List Token := ts.dropWhile (left ≤ ·.left)

/-! ## Code and mathematics -/

/-- A code span's text: line ends are spaces, and one space goes from each end if both have one and
there is something else. -/
def codeText (p : Passage) (s : List Char) : List Char :=
  let s := (p.plain s).map fun c => if isLineEnd c then ' ' else c
  if s.head? = some ' ' ∧ s.getLast? = some ' ' ∧ !s.all (· == ' ') then (s.drop 1).dropLast else s

/-- The code span that a run of `count` backticks begins in front of `after`: its text and the tokens
behind it. -/
def code? (p : Passage) (count : Nat) (t : Token) (ts : List Token) : Option (List Char × List Token) :=
  match ts.dropWhile (fun u => match u.piece with
      | .ticks n _ => n != count
      | _ => true) with
  | [] => none
  | u :: rest => some (codeText p (t.after.take (t.left - u.left - count)), rest)

def isDollar (t : Token) : Bool :=
  match t.piece with
  | .dollar _ _ _ => true
  | _ => false

/-- The next dollar sign in a group of braces, and the tokens behind it. -/
def nextDollar? (group : Nat) : List Token → Option (Token × Bool × List Token)
  | [] => none
  | t :: ts =>
    match t.piece with
    | .dollar _ canClose g => if g = group then some (t, canClose, ts) else nextDollar? group ts
    | _ => nextDollar? group ts

/-- The mathematics that an opening dollar sign begins, and the tokens behind it. The next dollar
sign in the same group of braces must be the closing one. -/
def math? (p : Passage) (group : Nat) (t : Token) (ts : List Token) : Option (Inline × List Token) :=
  match ts with
  | [] => none
  | u :: us =>
    if isDollar u then
      match nextDollar? group us with
      | some (v, _, w :: rest) =>
        if isDollar w then some (.math true (p.plain (u.after.take (u.left - v.left - 1))), rest)
        else none
      | _ => none
    else
      match nextDollar? group ts with
      | some (v, true, rest) => some (.math false (p.plain (t.after.take (t.left - v.left - 1))), rest)
      | _ => none

/-! ## Angle brackets -/

/-- Reads an absolute address and the closing bracket behind it. -/
def uri? (s : List Char) : Option (List Char × List Char) :=
  let isSchemeChar (c : Char) : Bool := c.isAlphanum || c == '.' || c == '-' || c == '+'
  let scheme := s.takeWhile isSchemeChar
  match scheme.head?, s.drop scheme.length with
  | some c, ':' :: rest =>
    if c.isAlpha ∧ 2 ≤ scheme.length ∧ scheme.length ≤ 32 then
      let path := rest.takeWhile fun d => 0x20 < d.toNat && d != '<' && d != '>'
      match rest.drop path.length with
      | '>' :: rest => some (scheme ++ ':' :: path, rest)
      | _ => none
    else none
  | _, _ => none

/-- The parts of a mail address behind the at sign are words of letters, digits and inner hyphens,
with points between. -/
def isMailDomain (s : List Char) : Bool :=
  (Text.splitAll '.' s).all fun word =>
    1 ≤ word.length && word.length ≤ 63 && word.all (fun c => c.isAlphanum || c == '-') &&
      word.head? != some '-' && word.getLast? != some '-'

/-- Reads a mail address and the closing bracket behind it. -/
def mail? (s : List Char) : Option (List Char × List Char) :=
  let isLocalChar (c : Char) : Bool := c.isAlphanum || ".!#$%&'*+/=?^_`\x7b|\x7d~-".toList.contains c
  let name := s.takeWhile isLocalChar
  match s.drop name.length with
  | '@' :: rest =>
    let domain := rest.takeWhile fun c => c.isAlphanum || c == '-' || c == '.'
    match rest.drop domain.length with
    | '>' :: rest =>
      if !name.isEmpty ∧ isMailDomain domain then some (name ++ '@' :: domain, rest) else none
    | _ => none
  | _ => none

/-- What the opening angle bracket of a token begins, and the text behind it. A tag shows without the
marks at the start of its lines. -/
def angle? (p : Passage) (t : Token) : Option (Inline × List Char) :=
  let s := t.after
  match uri? s <|> mail? s with
  | some (address, rest) => some (.link ⟨address, []⟩ [.text address], rest)
  | none =>
    let upTo (rest : List Char) : List Char := s.take (t.left - rest.length)
    match RawHtml.readSpecial? s with
    | some rest => some (.html ('<' :: upTo rest), rest)
    | none =>
      (RawHtml.readTag? (fun s => some (p.lineStart s)) (t.left + 1) s).map fun rest =>
        let tag := upTo rest
        (.html ('<' :: p.withoutMarks tag.length tag), rest)

/-! ## Links -/

/-- The target that a label is defined to have: the first definition counts. -/
def target? (definitions : List LinkDefinition) (label : List Char) : Option LinkTarget :=
  (definitions.find? (·.label == normalizeLabel label)).map (·.target)

/-- What a closing bracket turns out to be. -/
inductive Closing where
  /-- The end of a link or image, and the text behind the whole. -/
  | link (target : LinkTarget) (rest : List Char)
  /-- Text, where the label that follows names nothing and ends at the given place. -/
  | failed (labelEnd : Nat)
  | text

/-- What a closing bracket is. -/
def closing (definitions : List LinkDefinition) (p : Passage) (spent : Bool) (b : Bracket)
    (t : Token) : Closing :=
  let label? (bound : Nat) (s : List Char) : Option (List Char × List Char) :=
    (readLabel? (fun s => some (p.lineStart s)) bound s).map fun (label, rest) =>
      (if p.isCell then Passage.withoutEscapes label else label, rest)
  -- the text itself as the label
  let bare (rest : List Char) : Closing :=
    if spent ∨ !t.tail.isEmpty then .text
    else
      match label? b.left b.after with
      | some (label, behindLabel) =>
        if behindLabel.length = t.left then
          match target? definitions label with
          | some target => .link target rest
          | none => .text
        else .text
      | none => .text
  -- a label in brackets; where they are empty or missing, the text counts
  let reference (s : List Char) : Closing :=
    match s with
    | '[' :: ']' :: rest => bare rest
    | '[' :: s =>
      match label? t.left s with
      | some (label, rest) =>
        match target? definitions label with
        | some target => .link target rest
        | none => .failed rest.length
      | none => bare t.after
    | _ => bare t.after
  match t.after with
  | '(' :: s =>
    match LinkTarget.read? p.lineStart p.plain t.left s with
    | some (target, rest) => .link target rest
    | none => bare t.after
  -- the bracket in front of a label may be escaped
  | '\\' :: s => reference s
  | s => reference s

/-- Makes the brackets inactive that would begin a link around a link. -/
def deactivate (r : Running) : Running :=
  { r with brackets := r.brackets.map fun b => if b.image then b else { b with active := false } }

/-- Takes a closing bracket: what is read then, and the tokens behind it. -/
def takeClosing (definitions : List LinkDefinition) (p : Passage) (r : Running) (t : Token)
    (ts : List Token) : Running × List Token :=
  match r.brackets with
  | [] => (r.add (.text t.literal), ts)
  | b :: brackets =>
    let around := { r with brackets }
    let asText := (around.append (Bracket.asText b)).add (.text t.literal)
    if !b.active then (asText, ts)
    else
      match closing definitions p (r.spent.contains t.left) b t with
      | .text => (asText, ts)
      | .failed labelEnd => ({ asText with spent := labelEnd :: r.spent }, ts)
      | .link target rest =>
        let content := resolveItems (b.items.any Item.isRun) b.items
        let ts := behind rest.length ts
        if b.image then (around.add (.image target content), ts)
        else ((around.add (.link target content)).deactivate, ts)

/-! ## All tokens -/

/-- Takes a token: what is read then, and the tokens behind it. -/
def take (definitions : List LinkDefinition) (p : Passage) (r : Running) (t : Token)
    (ts : List Token) : Running × List Token :=
  let asText := (r.add (.text t.literal), ts)
  match t.piece with
  | .text _ => asText
  | .reference _ => asText
  | .softBreak => (r.add .softBreak, ts)
  | .hardBreak backslash =>
    (r.append [if backslash then .backslashBreak else .content .hardBreak], ts)
  | .run mark size canOpen canClose => (r.append [.run ⟨mark, size, canOpen, canClose, t.tail⟩], ts)
  | .openBracket image =>
    ({ r with brackets := ⟨image, t.literal, true, t.after, t.left, []⟩ :: r.brackets }, ts)
  | .closeBracket => takeClosing definitions p r t ts
  | .angle =>
    match angle? p t with
    | some (i, rest) => (r.add i, behind rest.length ts)
    | none => asText
  | .dollar canOpen _ group =>
    match if canOpen then math? p group t ts else none with
    | some (i, rest) => (r.add i, rest)
    | none => asText
  | .ticks count escaped =>
    let literal := if escaped then 1 else 0
    match if literal < count then code? p (count - literal) t ts else none with
    | some (s, rest) =>
      let r := if escaped then r.add (.text ['\x60']) else r
      (r.add (.code s), rest)
    | none => asText

/-- Takes all tokens. The first argument bounds their number. -/
def takeAll (definitions : List LinkDefinition) (p : Passage) :
    (bound : Nat) → Running → List Token → Running
  | 0, r, _ => r
  | _ + 1, r, [] => r
  | bound + 1, r, t :: ts =>
    let (r, ts) := r.take definitions p t ts
    takeAll definitions p bound r ts

/-- The content, where open brackets become text. `marked` says whether there was anything that might
have been markup. -/
def finish (marked : Bool) (r : Running) : List Inline :=
  resolveItems marked (r.brackets.flatMap Bracket.asText ++ r.items)

end Running

def readInlines (definitions : List LinkDefinition) (p : Passage) : List Inline :=
  let ts := tokens p
  (Running.empty.takeAll definitions p ts.length ts).finish (ts.any (·.piece.isMark))

end Treatise.Markdown
