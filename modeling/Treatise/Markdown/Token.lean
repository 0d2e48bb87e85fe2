import Treatise.Markdown.Container
import Treatise.Markdown.Reference
import Treatise.Text.Blank
import Treatise.Text.Punctuation

/-!
# Tokens of running text

Running text is cut into tokens before it is known which of them are markup: a backtick may turn out
to be text, a bracket may belong to a link or not. Every token knows the text behind it, because some
markup is read from the text as it stands.

* `Groups` — the groups of braces around a place, which mathematics does not leave;
* `tokens` — the tokens of a passage.
-/

namespace Treatise.Markdown

inductive Piece where
  | text (s : List Char)
  /-- What a character reference stands for. -/
  | reference (s : List Char)
  /-- A run of backticks; the first may follow a backslash. -/
  | ticks (count : Nat) (escaped : Bool)
  /-- A dollar sign, and the group of braces that it stands in. -/
  | dollar (canOpen canClose : Bool) (group : Nat)
  | run (mark : Char) (size : Nat) (canOpen canClose : Bool)
  | angle
  /-- The bracket that begins the text of a link, or of an image. -/
  | openBracket (image : Bool)
  | closeBracket
  | softBreak
  /-- A hard break, written by a backslash or by blanks. -/
  | hardBreak (backslash : Bool)
  deriving DecidableEq, Repr

namespace Piece

/-- The piece may turn out to be markup. -/
def isMark : Piece → Bool
  | text _ | reference _ | softBreak | hardBreak _ => false
  | _ => true

def isBreak : Piece → Bool
  | softBreak => true
  | hardBreak _ => true
  | _ => false

/-- What the piece shows if it is no markup. -/
def literal : Piece → List Char
  | text s => s
  | reference s => s
  | ticks count _ => List.replicate count '\x60'
  | dollar _ _ _ => ['$']
  | run mark size _ _ => List.replicate size mark
  | angle => ['<']
  | openBracket image => if image then ['!', '['] else ['[']
  | closeBracket => [']']
  | softBreak => ['\n']
  | hardBreak _ => ['\n']

end Piece

structure Token where
  piece : Piece
  /-- Text that shows behind the token if it is no markup. -/
  tail : List Char
  /-- The text behind the token, and its length. -/
  after : List Char
  left : Nat
  deriving Repr

/-- What the token shows if it is no markup. -/
def Token.literal (t : Token) : List Char := t.piece.literal ++ t.tail

/-! ## Flanks -/

/-- Whether a run may begin emphasis, from the characters around it. The ends of the text count as
blank. Only asterisks, unless punctuation follows, and pairs of tildes may begin it within a word. -/
def canOpen (mark : Char) (size : Nat) (before after : Option Char) : Bool :=
  match after with
  | none => false
  | some a =>
    !Text.isBlank a &&
      match before with
      | none => true
      | some b =>
        (mark == '*' && !Text.isPunctuation a) || (mark == '~' && 1 < size) || Text.isBlank b ||
          Text.isPunctuation b

/-- Whether a run may end emphasis. -/
def canClose (mark : Char) (size : Nat) (before after : Option Char) : Bool :=
  match before with
  | none => false
  | some b =>
    !Text.isBlank b &&
      match after with
      | none => true
      | some a =>
        ((mark == '*' || (mark == '~' && 1 < size)) && !Text.isPunctuation b) ||
          (mark == '~' && b == '~') || Text.isBlank a || Text.isPunctuation a

/-! ## Groups of braces -/

/-- The groups of braces around a place. A group is known by a number, which may come back after very
many groups. Braces count from the first dollar sign on. -/
structure Groups where
  /-- The open groups, the innermost first. -/
  groups : List Nat
  /-- A number for the next group; with very many open groups, the depth. -/
  next : Nat
  deriving DecidableEq, Repr

namespace Groups

def start : Groups := ⟨[], 0⟩

/-- The number of open groups up to which each has a number of its own. -/
def maxDepth : Nat := 25

/-- The number of different groups. -/
def numbers : Nat := 256

/-- The group outside all braces. -/
def outside : Nat := numbers - 1

/-- The group that a dollar sign stands in. -/
def current (g : Groups) : Nat :=
  if maxDepth < g.groups.length then g.next % numbers else g.groups.headD outside

/-- From a dollar sign on, braces count. -/
def withDollar (g : Groups) : Groups :=
  if g.groups.isEmpty then { g with groups := [outside] } else g

def withOpening (g : Groups) : Groups :=
  if g.groups.isEmpty then g
  else if g.groups.length < maxDepth then ⟨g.next % numbers :: g.groups, g.next + 1⟩
  else if g.groups.length = maxDepth then ⟨g.next % numbers :: g.groups, maxDepth⟩
  else { g with next := g.next + 1 }

/-- Leaves a group. A brace without an opening one begins a group that was not there before. -/
def withClosing (g : Groups) : Groups :=
  match g.groups with
  | [] => g
  | [_] => ⟨[g.next % numbers], g.next + 1⟩
  | _ :: outer =>
    if g.groups.length ≤ maxDepth ∨ g.next ≤ maxDepth then { g with groups := outer }
    else { g with next := g.next - 1 }

def step (g : Groups) (c : Char) : Groups :=
  if c = '{' then g.withOpening
  else if c = '}' then g.withClosing
  else if c = '$' then g.withDollar
  else g

end Groups

/-! ## Cutting -/

/-- The first token of a text and the number of its characters. `before` is the character in
front. -/
def firstPiece (isCell : Bool) (before : Option Char) (groups : Groups) (c : Char) (s : List Char) :
    Piece × Nat :=
  if isInlineBlank c ∧ atLineEnd (dropBlanks s) then
    let blanks := (s.takeWhile isInlineBlank).length + 1
    (if blanks < 2 then .softBreak else .hardBreak false,
      blanks + (splitLineEnd (dropBlanks s)).1.length)
  else if isLineEnd c then (.softBreak, (splitLineEnd (c :: s)).1.length)
  else if c = '\\' then
    match isCell, s with
    | true, '|' :: _ => (.text ['|'], 2)
    | true, '\\' :: '|' :: _ => (.text ['|'], 3)
    | _, [] => (.text ['\\'], 1)
    | _, d :: _ =>
      let (stop, rest) := splitLineEnd s
      if isLineEnd d then
        if rest.isEmpty then (.text ['\\'], 1) else (.hardBreak true, 1 + stop.length)
      else if d = '\x60' then
        let size := (s.takeWhile (· == '\x60')).length
        (.ticks size true, size + 1)
      else if Text.isAsciiPunctuation d then (.text [d], 2)
      else (.text ['\\'], 1)
  else if c = '\x60' then
    let size := ((c :: s).takeWhile (· == '\x60')).length
    (.ticks size false, size)
  else if c = '*' ∨ c = '_' ∨ c = '~' then
    let size := ((c :: s).takeWhile (· == c)).length
    let next := (s.drop (size - 1)).head?
    let opens := canOpen c size before next
    let closes := canClose c size before next
    if (opens ∨ closes) ∧ (c = '~' → size ≤ 2) then (.run c size opens closes, size)
    else (.text (List.replicate size c), size)
  else if c = '$' then
    let opens := (s.head?.map (!isAnyBlank ·)).getD false
    let closes := (before.map (!isAnyBlank ·)).getD false
    (.dollar opens closes groups.current, 1)
  else if c = '<' then (.angle, 1)
  else if c = '[' then (.openBracket false, 1)
  else if c = ']' then (.closeBracket, 1)
  else if c = '!' ∧ s.head? = some '[' then (.openBracket true, 2)
  else if c = '&' then
    match readReference? s with
    | some (value, size) => (.reference value, size + 1)
    | none => (.text ['&'], 1)
  else (.text [c], 1)

/-- The tokens of a text of the given length. `before` is the character in front, and `afterText` says
whether the token in front is plain text. The first argument bounds the number of tokens. Blanks at
the end of the text are no token. -/
def tokensFrom (p : Passage) : (bound : Nat) → (before : Option Char) → (afterText : Bool) → Groups →
    List Char → (length : Nat) → List Token
  | 0, _, _, _, _, _ => []
  | _ + 1, _, _, _, [], _ => []
  | bound + 1, before, afterText, groups, c :: s, length =>
    if length ≤ p.tail then if afterText then [⟨.text (c :: s), [], [], 0⟩] else []
    else
      let (piece, size) := firstPiece p.isCell before groups c s
      let after := s.drop (size - 1)
      let left := length - size
      if piece.isBreak then
        if after.isEmpty then []
        else
          let place := (p.lineStart after).skipToText after
          ⟨piece, [], after, left⟩ ::
            tokensFrom p bound (some '\n') false groups place.rest (left - place.size)
      else
        let isText : Bool := match piece with
          | .text _ => true
          | _ => false
        let tail : List Char := match piece with
          | .text _ => []
          | .reference _ => []
          | _ => if left ≤ p.tail then after else []
        ⟨piece, tail, after, left⟩ ::
          tokensFrom p bound ((c :: s).take size).getLast? isText (groups.step c) after left

def tokens (p : Passage) : List Token :=
  let length := p.text.length
  tokensFrom p (length + 1) none false Groups.start p.text length

end Treatise.Markdown
