import Treatise.Options

/-!
# The command line

A command line is flags for all commands, the name of a command, and its arguments. An option is
written `--name value`, `--name=value`, `-n value`, `-nvalue` or `-n=value`, and flags of one letter may
stand together. Behind `--` nothing is an option. Only some options may be given more than once, and a
command has one argument that is no option, a path.

Words are read from left to right, and the first that cannot follow those before it decides: a flag
that asks for help counts only if all before it is well formed.

* `CommandLine.readArguments` — cuts words into options and other arguments;
* `Invocation.read` — the command of a command line, or why there is none.
-/

namespace Treatise

/-- What the value of an option may be. -/
inductive ValueForm where
  | text
  /-- A path, which is not empty. -/
  | path
  /-- The name of a format. -/
  | format
  deriving DecidableEq, Repr

def ValueForm.accepts : ValueForm → String → Bool
  | text, _ => true
  | path, s => !s.isEmpty
  | format, s => (Format.ofName? s).isSome

/-- What an option looks like. A flag takes no value. -/
structure OptionForm where
  long : String
  short : Option Char := none
  value : Option ValueForm := none
  repeatable : Bool := false
  deriving DecidableEq, Repr

inductive Argument where
  | flag (form : OptionForm)
  | valued (form : OptionForm) (value : String)
  | other (s : String)
  deriving DecidableEq, Repr

/-- Why there is no command. -/
inductive Refusal where
  /-- The arguments are not understood. -/
  | misuse
  /-- The help text is asked for. -/
  | help
  /-- The version is asked for. -/
  | version
  deriving DecidableEq, Repr

/-- The arguments so far, and an option whose value is the next word. -/
structure Progress where
  arguments : List Argument
  waiting : Option OptionForm := none

namespace CommandLine

def helpFlag : OptionForm := { long := "help", short := some 'h' }

def versionFlag : OptionForm := { long := "version", short := some 'V' }

/-- Whether the word is not an argument of its own: a dash alone is one. -/
def looksLikeOption (word : String) : Bool := word.startsWith "-" && word != "-"

def hasFlag (arguments : List Argument) (form : OptionForm) : Bool :=
  arguments.contains (.flag form)

def values (arguments : List Argument) (form : OptionForm) : List String :=
  arguments.filterMap fun
    | .valued f value => if f = form then some value else none
    | _ => none

def others (arguments : List Argument) : List String :=
  arguments.filterMap fun
    | .other s => some s
    | _ => none

/-- Whether an argument may follow others. -/
def follows (arguments : List Argument) : Argument → Bool
  | .flag form => form.repeatable || !hasFlag arguments form
  | .valued form value =>
    (form.repeatable || (values arguments form).isEmpty) && form.value.any (·.accepts value)
  | .other s => !s.isEmpty && (others arguments).isEmpty

/-- The arguments with one more. Two flags end the reading. -/
def give (arguments : List Argument) (argument : Argument) : Except Refusal (List Argument) :=
  if argument = .flag helpFlag then .error .help
  else if argument = .flag versionFlag then .error .version
  else if follows arguments argument then .ok (arguments ++ [argument])
  else .error .misuse

/-- The arguments with one more, behind which no option waits for its value. -/
def giveWhole (arguments : List Argument) (argument : Argument) : Except Refusal Progress :=
  (give arguments argument).map ({ arguments := · })

/-- Reads the letters behind one dash. -/
def readLetters (forms : List OptionForm) (arguments : List Argument) :
    List Char → Except Refusal Progress
  | [] => .ok { arguments }
  | c :: cs =>
    match forms.find? (·.short == some c) with
    | none => .error .misuse
    | some form =>
      if form.value.isSome then
        match cs with
        | [] => .ok { arguments, waiting := some form }
        | '=' :: value | value => giveWhole arguments (.valued form (String.ofList value))
      else
        match give arguments (.flag form) with
        | .ok arguments => readLetters forms arguments cs
        | .error refusal => .error refusal

/-- The text before the first `=` and the text after it, if there is one. -/
def cutValue (s : List Char) : String × Option String :=
  let name := s.takeWhile (· != '=')
  (String.ofList name,
    match s.drop name.length with
    | [] => none
    | _ :: value => some (String.ofList value))

/-- Reads what follows two dashes. -/
def readLong (forms : List OptionForm) (arguments : List Argument) (s : List Char) :
    Except Refusal Progress :=
  let (name, value) := cutValue s
  match forms.find? (·.long == name), value with
  | none, _ => .error .misuse
  | some form, none =>
    if form.value.isSome then .ok { arguments, waiting := some form }
    else giveWhole arguments (.flag form)
  | some form, some value =>
    if form.value.isSome then giveWhole arguments (.valued form value)
    else .error .misuse

def readWord (forms : List OptionForm) (arguments : List Argument) (word : String) :
    Except Refusal Progress :=
  match word.toList with
  | '-' :: '-' :: s => readLong forms arguments s
  | '-' :: c :: s => readLetters forms arguments (c :: s)
  | _ => giveWhole arguments (.other word)

/-- Reads words, given the arguments so far. -/
def readArguments (forms : List OptionForm) (arguments : List Argument) :
    List String → Except Refusal (List Argument)
  | [] => .ok arguments
  | word :: words =>
    if word = "--" then words.foldlM (fun arguments word => give arguments (.other word)) arguments
    else
      match readWord forms arguments word with
      | .error refusal => .error refusal
      | .ok ⟨arguments, none⟩ => readArguments forms arguments words
      | .ok ⟨arguments, some form⟩ =>
        match words with
        | [] => .error .misuse
        | value :: words =>
          if looksLikeOption value then .error .misuse
          else
            match give arguments (.valued form value) with
            | .error refusal => .error refusal
            | .ok arguments => readArguments forms arguments words

/-! ## The commands -/

def noColor : OptionForm := { long := "no-color" }

def verbose : OptionForm := { long := "verbose", short := some 'v', repeatable := true }

def globalForms : List OptionForm := [noColor, verbose, helpFlag]

def format : OptionForm := { long := "format", short := some 'f', value := some .format }

def template : OptionForm := { long := "template", short := some 't', value := some .path }

def output : OptionForm := { long := "output", short := some 'o', value := some .path }

def renderOption : OptionForm :=
  { long := "option", short := some 'O', value := some .text, repeatable := true }

def substitution : OptionForm :=
  { long := "subst", short := some 's', value := some .text, repeatable := true }

def config : OptionForm := { long := "config", value := some .path }

def json : OptionForm := { long := "json" }

def ast : OptionForm := { long := "ast" }

def renderForms : List OptionForm :=
  [format, template, output, renderOption, substitution, config, json, ast] ++ globalForms

def category : OptionForm :=
  { long := "category", short := some 'c', value := some .text, repeatable := true }

def listCategories : OptionForm := { long := "list-categories" }

def testForms : List OptionForm := [category, listCategories] ++ globalForms

end CommandLine

/-- How the tool is used. -/
def usage : String :=
  "usage: [--no-color] [-v] [render] DOCUMENT [options]
       [--no-color] [-v] test PATH [options]

options of render:
  -f, --format html|latex   the format of the output
  -t, --template FILE       a template with places for the variables
  -o, --output FILE         write to the file
  -O, --option KEY=VALUE    an option of the format (repeatable)
  -s, --subst KEY=VALUE     a value for the template (repeatable)
      --config FILE         the configuration (default: mdt.toml, if it is there)
      --json                print the variables
      --ast                 print the tree

options of test:
  -c, --category NAME       run only this category (repeatable)
      --list-categories     list the categories
"

/-- The command that converts a document. -/
structure RenderCommand where
  document : String
  format : Option Format
  template : Option String
  output : Option String
  options : List String
  substitutions : List String
  config : Option String
  /-- Print the variables of the template. -/
  json : Bool
  /-- Print the tree of the document. -/
  ast : Bool
  deriving DecidableEq, Repr

structure TestCommand where
  path : String
  categories : List String
  listCategories : Bool
  deriving DecidableEq, Repr

inductive Command where
  | render (c : RenderCommand)
  | test (c : TestCommand)
  deriving DecidableEq, Repr

/-- A command and the flags for all commands. -/
structure Invocation where
  noColor : Bool
  command : Command
  deriving DecidableEq, Repr

open CommandLine

def RenderCommand.ofArguments? (arguments : List Argument) : Option RenderCommand := do
  let document ← (others arguments).head?
  pure {
    document
    format := (values arguments CommandLine.format).head?.bind Format.ofName?
    template := (values arguments CommandLine.template).head?
    output := (values arguments CommandLine.output).head?
    options := values arguments renderOption
    substitutions := values arguments substitution
    config := (values arguments CommandLine.config).head?
    json := hasFlag arguments CommandLine.json
    ast := hasFlag arguments CommandLine.ast }

def TestCommand.ofArguments? (arguments : List Argument) : Option TestCommand := do
  let path ← (others arguments).head?
  pure {
    path
    categories := values arguments category
    listCategories := hasFlag arguments CommandLine.listCategories }

namespace Invocation

/-- Reads the words behind the name of a command, whose options have these forms. -/
def readWith {α : Type} (forms : List OptionForm) (ofArguments? : List Argument → Option α)
    (toCommand : α → Command) (words : List String) : Except Refusal Invocation := do
  let arguments ← readArguments forms [] words
  match ofArguments? arguments with
  | some a => .ok ⟨hasFlag arguments CommandLine.noColor, toCommand a⟩
  | none => .error .misuse

def commandNames : List String := ["render", "test", "help"]

/-- Reads the words behind `help`: at most one, which names a command. -/
def readHelp : List String → Refusal
  | [] => .help
  | [name] => if commandNames.contains name then .help else .misuse
  | _ => .misuse

/-- Reads the name of a command and the words behind it. -/
def readCommand (name : String) (words : List String) : Except Refusal Invocation :=
  if name = "render" then readWith renderForms RenderCommand.ofArguments? .render words
  else if name = "test" then readWith testForms TestCommand.ofArguments? .test words
  else if name = "help" then .error (readHelp words)
  else .error .misuse

/-- Reads flags up to the name of a command, given the flags so far. -/
def readFrom (flags : List Argument) : List String → Except Refusal Invocation
  | [] => .error .misuse
  | word :: words =>
    if looksLikeOption word then
      match readWord (versionFlag :: globalForms) flags word with
      | .ok ⟨flags, none⟩ => readFrom flags words
      | .ok ⟨_, some _⟩ => .error .misuse
      | .error refusal => .error refusal
    else
      (readCommand word words).map fun i =>
        { i with noColor := i.noColor || hasFlag flags CommandLine.noColor }

/-- Reads the words of a command line. -/
def read (words : List String) : Except Refusal Invocation := readFrom [] words

/-- The words with the name of the command that is meant when none is named. -/
def withCommand (words : List String) : List String :=
  match words.find? (fun word => !word.startsWith "-") with
  | some word => if commandNames.contains word then words else "render" :: words
  | none => words

end Invocation

end Treatise
