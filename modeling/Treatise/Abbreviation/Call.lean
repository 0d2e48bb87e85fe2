import Treatise.Abbreviation.Definition
import Treatise.Text.Alphabetic

/-!
# Calls of abbreviations

A call is the name behind a backslash and, if the abbreviation has parameters, a parenthesised list
of arguments directly behind the name. An argument is a brace group or a bare word up to the next
comma, parenthesis or line end. Nothing between two commas omits the argument; `\{\}` is an empty one.
-/

namespace Treatise.Abbreviation

/-- The text up to the brace that closes a group, and the text behind that brace. `depth` more
groups are open inside. -/
def closeGroup? : (depth : Nat) → List Char → Option (List Char × List Char)
  | _, [] => none
  | depth, c :: s =>
    if c = '}' then
      match depth with
      | 0 => some ([], s)
      | depth + 1 => (closeGroup? depth s).map fun p => (c :: p.1, p.2)
    else
      (closeGroup? (if c = '{' then depth + 1 else depth) s).map fun p => (c :: p.1, p.2)

/-- A character that ends a bare argument. -/
def endsBareArgument (c : Char) : Bool := c == ',' || c == '(' || c == ')' || c == '\n'

/-- Reads one argument: its text, or `none` if it is omitted, and what follows. -/
def readArgument? (s : List Char) : Option (Option (List Char) × List Char) :=
  match s with
  | '{' :: rest => (closeGroup? 0 rest).map fun p => (some p.1, p.2)
  | s =>
    let word := Text.trimEnd (s.takeWhile (!endsBareArgument ·))
    some (if word.isEmpty then none else some word, s.dropWhile (!endsBareArgument ·))

def skipAsciiBlanks (s : List Char) : List Char := s.dropWhile Text.isAsciiBlank

/-- Reads arguments up to the closing parenthesis. The first argument bounds the number of
arguments; every argument but the last ends in a comma, so the length of the text is enough. -/
def readArguments? : (bound : Nat) → (args : List (Option (List Char))) → List Char →
    Option (List (Option (List Char)) × List Char)
  | 0, _, _ => none
  | bound + 1, args, s =>
    match args, skipAsciiBlanks s with
    | [], ')' :: s => some ([], s)
    | args, s =>
      match readArgument? s with
      | none => none
      | some (arg, s) =>
        match skipAsciiBlanks s with
        | ',' :: s => readArguments? bound (args ++ [arg]) s
        | ')' :: s => some (args ++ [arg], s)
        | _ => none

/-- Reads `(arg, ..)` at the start of the text: the arguments and what follows. -/
def readCall? (s : List Char) : Option (List (Option (List Char)) × List Char) :=
  match s with
  | '(' :: s => readArguments? (s.length + 1) [] s
  | _ => none

/-- The value of each parameter: the argument at its place, or else its default. There is none when
there are more arguments than parameters or a parameter is left without a value. -/
def bind? (params : List Param) (args : List (Option (List Char))) : Option (List (List Char)) :=
  if params.length < args.length then none
  else params.zipIdx.mapM fun (p, i) => (args.getD i none) <|> p.default

/-- A complete call behind the name: the text it stands for and what follows. -/
def Definition.call? (d : Definition) (s : List Char) :
    Option (List Char × List Char) :=
  if d.params.isEmpty then
    match s with
    -- a letter behind the name makes it a longer word
    | c :: _ => if Text.isAlphabetic c then none else some (d.body.instantiate [], s)
    | [] => some (d.body.instantiate [], s)
  else do
    let (args, rest) ← readCall? s
    let values ← bind? d.params args
    pure (d.body.instantiate values, rest)

/-! ## What readers leave is the end of what they read -/

theorem closeGroup?_suffix {depth : Nat} {s a r : List Char}
    (h : closeGroup? depth s = some (a, r)) : r <:+ s := by
  induction s generalizing depth a with
  | nil => simp [closeGroup?] at h
  | cons c s ih =>
    -- wherever the group goes on, the text behind it is that of the shorter text
    have hmore : ∀ depth', (closeGroup? depth' s).map (fun p => (c :: p.1, p.2)) = some (a, r) →
        r <:+ c :: s := by
      intro depth' h
      obtain ⟨⟨a', r'⟩, hread, heq⟩ := Option.map_eq_some_iff.1 h
      obtain ⟨-, rfl⟩ := Prod.mk.inj heq
      exact (ih hread).trans (List.suffix_cons c s)
    rw [closeGroup?.eq_def] at h
    simp only at h
    split at h
    · cases depth with
      | zero =>
        obtain ⟨-, rfl⟩ := Prod.mk.inj (Option.some.inj h)
        exact List.suffix_cons c _
      | succ depth => exact hmore _ h
    · exact hmore _ h

theorem readArgument?_suffix {s r : List Char} {arg : Option (List Char)}
    (h : readArgument? s = some (arg, r)) : r <:+ s := by
  unfold readArgument? at h
  split at h
  · obtain ⟨⟨a, r'⟩, hread, heq⟩ := Option.map_eq_some_iff.1 h
    obtain ⟨-, rfl⟩ := Prod.mk.inj heq
    exact (closeGroup?_suffix hread).trans (List.suffix_cons _ _)
  · obtain ⟨-, rfl⟩ := Prod.mk.inj (Option.some.inj h)
    exact List.dropWhile_suffix _

theorem skipAsciiBlanks_suffix (s : List Char) : skipAsciiBlanks s <:+ s :=
  List.dropWhile_suffix _

theorem suffix_of_skipAsciiBlanks {c : Char} {s r : List Char} (h : skipAsciiBlanks s = c :: r) :
    r <:+ s :=
  (List.suffix_cons c r).trans (h ▸ skipAsciiBlanks_suffix s)

theorem readArguments?_suffix {bound : Nat} {before args : List (Option (List Char))}
    {s r : List Char} (h : readArguments? bound before s = some (args, r)) : r <:+ s := by
  induction bound generalizing before s with
  | zero => simp [readArguments?] at h
  | succ bound ih =>
    unfold readArguments? at h
    split at h
    · next hs =>
      obtain ⟨-, rfl⟩ := Prod.mk.inj (Option.some.inj h)
      exact suffix_of_skipAsciiBlanks hs
    · split at h
      · cases h
      · next harg =>
        have hbehind := (readArgument?_suffix harg).trans (skipAsciiBlanks_suffix s)
        split at h
        · next hs => exact (ih h).trans ((suffix_of_skipAsciiBlanks hs).trans hbehind)
        · next hs =>
          obtain ⟨-, rfl⟩ := Prod.mk.inj (Option.some.inj h)
          exact (suffix_of_skipAsciiBlanks hs).trans hbehind
        · cases h

theorem readCall?_suffix {s r : List Char} {args : List (Option (List Char))}
    (h : readCall? s = some (args, r)) : r <:+ s := by
  unfold readCall? at h
  split at h
  · exact (readArguments?_suffix h).trans (List.suffix_cons _ _)
  · cases h

theorem Definition.call?_suffix {d : Definition} {s value r : List Char}
    (h : d.call? s = some (value, r)) : r <:+ s := by
  unfold Definition.call? at h
  split at h
  · split at h
    · split at h
      · cases h
      · obtain ⟨-, rfl⟩ := Prod.mk.inj (Option.some.inj h)
        exact List.suffix_refl _
    · obtain ⟨-, rfl⟩ := Prod.mk.inj (Option.some.inj h)
      exact List.suffix_refl _
  · simp only [bind, Option.bind_eq_some_iff, Prod.exists, pure, Option.some.injEq,
      Prod.mk.injEq] at h
    obtain ⟨args, rest, hcall, values, -, -, rfl⟩ := h
    exact readCall?_suffix hcall

/-- A call leaves no more text than there was. -/
theorem Definition.length_of_call? {d : Definition} {s value r : List Char}
    (h : d.call? s = some (value, r)) : r.length ≤ s.length :=
  (call?_suffix h).length_le

end Treatise.Abbreviation
