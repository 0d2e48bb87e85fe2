import Treatise.Markdown.Inline

/-!
# Emphasis

Runs of emphasis marks are paired from left to right. A run that may close is paired with the nearest
run before it that may open, is of the same mark and fits; the runs between them are text. A pair uses
up as many marks as both sides have, two by two from the inside for strong emphasis. What is left of a
run may go on as an opening or closing one.
-/

namespace Treatise.Markdown

structure Run where
  mark : Char
  size : Nat
  canOpen : Bool
  canClose : Bool
  /-- Text that shows behind the last mark, if that shows. -/
  tail : List Char
  deriving DecidableEq, Repr

/-- Resolved content, a run that is not paired yet, or a hard break written by a backslash. -/
inductive Item where
  | content (i : Inline)
  | run (r : Run)
  | backslashBreak

/-- A run that may still open. -/
structure Opener where
  run : Run
  /-- The marks that are left of it. -/
  size : Nat
  /-- The content behind it, the last first. -/
  content : List Inline

/-- Content in which runs may be open. -/
structure Pairing where
  /-- The content before the first open run, the last first. -/
  base : List Inline
  /-- The open runs, the last first. -/
  openers : List Opener

namespace Pairing

/-- The last marks of a run as text. -/
def marks (r : Run) (size : Nat) : Inline := .text (List.replicate size r.mark ++ r.tail)

/-- Adds content at the end. The content comes last first. -/
def append (p : Pairing) (content : List Inline) : Pairing :=
  match p.openers with
  | [] => { p with base := content ++ p.base }
  | o :: openers => { p with openers := { o with content := content ++ o.content } :: openers }

/-- An open run that will not be paired, and the content behind it. -/
def Opener.asText (o : Opener) : List Inline := o.content ++ [marks o.run o.size]

/-- Whether a run may be closed by another one: the mark is the same, runs of tildes are equally
long, and where a run may both open and close, lengths that add up to a multiple of three must be
multiples of three themselves. -/
def fits (closer : Run) (o : Opener) : Bool :=
  let both (r : Run) : Bool := r.canOpen && r.canClose
  o.run.mark == closer.mark &&
    (closer.mark != '~' || closer.size == o.run.size) &&
    ((!both closer && !both o.run) || (closer.size + o.run.size) % 3 != 0 || closer.size % 3 == 0)

/-- Content within `count` pairs of marks. -/
def wrap (mark : Char) : (count : Nat) → List Inline → List Inline
  | 0, content => content
  | 1, content => if mark = '~' then [.strikethrough content] else [.emphasis content]
  | count + 2, content =>
    wrap mark count (if mark = '~' then [.strikethrough content] else [.strong content])

/-- The openers before and from the last one that fits. -/
def findOpener? (closer : Run) : List Opener → Option (List Opener × Opener × List Opener)
  | [] => none
  | o :: openers =>
    if fits closer o then some ([], o, openers)
    else (findOpener? closer openers).map fun (inner, found, outer) => (o :: inner, found, outer)

/-- Runs of tildes that can no longer be paired become text. -/
def dropTildes (p : Pairing) : Pairing :=
  p.openers.foldr
    (fun o p =>
      if o.run.mark = '~' then p.append (Opener.asText o)
      else { p with openers := o :: p.openers })
    { p with openers := [] }

/-- Pairs a closing run, of which `left` marks are left, as often as it fits: the marks that remain.
The first argument bounds the number of pairs. -/
def close : (bound : Nat) → Pairing → Run → (left : Nat) → Pairing × Nat
  | 0, p, _, left => (p, left)
  | bound + 1, p, closer, left =>
    match findOpener? closer p.openers with
    -- tildes that fit nothing end the search of later ones, too
    | none => (if closer.mark = '~' then p.dropTildes else p, left)
    | some (inner, o, outer) =>
      -- runs between the two are text, as they found no partner
      let content := (inner.flatMap Opener.asText ++ o.content).reverse
      let count := min left o.size
      let wrapped := wrap closer.mark count content
      let p : Pairing :=
        if o.size = count then { p with openers := outer }.append wrapped
        else { p with openers := ⟨o.run, o.size - count, wrapped⟩ :: outer }
      if left = count then (p, 0) else close bound p closer (left - count)

def take (p : Pairing) : Item → Pairing
  | .content i => p.append [i]
  | .backslashBreak => p.append [.hardBreak]
  | .run r =>
    let (p, left) := if r.canClose then close r.size p r r.size else (p, r.size)
    if left = 0 then p
    else if r.canOpen then { p with openers := ⟨r, left, []⟩ :: p.openers }
    else p.append [marks r left]

/-- The content, where open runs become text. -/
def finish (p : Pairing) : List Inline :=
  (p.openers.flatMap Opener.asText ++ p.base).reverse

end Pairing

/-- The content of items in which all runs are paired or text. -/
def resolveEmphasis (items : List Item) : List Inline :=
  (items.foldl Pairing.take ⟨[], []⟩).finish

/-- The content of items, the last first. Where marks are looked for, a backslash at the end breaks no
line. -/
def resolveItems (marked : Bool) (items : List Item) : List Inline :=
  match marked, items with
  | true, .backslashBreak :: inner =>
    resolveEmphasis (inner.reverse ++ [.content (.text ['\\'])])
  | _, _ => resolveEmphasis items.reverse

/-- The item is a run of emphasis marks. -/
def Item.isRun : Item → Bool
  | run _ => true
  | _ => false

end Treatise.Markdown
