import Treatise.Config
import Treatise.Conversion
import Treatise.Template
import Treatise.Text.Quoted
import Treatise.Tool.CommandLine
import Treatise.Tool.Files
import Treatise.Tree.Dump

/-!
# Converting a file

The command reads the configuration, the document and, where it is needed, the template, and prints
the result or writes it to a file. A file that cannot be read ends the command; everything that is wrong
with the document is a warning.
-/

namespace Treatise

/-- What ends a command. -/
inductive Failure where
  | read (path : String) (e : FileError)
  | write (path : String) (e : FileError)
  /-- The configuration file is not well formed. -/
  | config (path : String)
  | template (path : String) (e : FileError)
  deriving DecidableEq, Repr

def Failure.message : Failure → String
  | read path e => "cannot read '" ++ path ++ "': " ++ e.message
  | write path e => "cannot write '" ++ path ++ "': " ++ e.message
  | config path => "invalid config file '" ++ path ++ "'"
  | template path e => "cannot read template '" ++ path ++ "': " ++ e.message

/-- What a command leaves behind, apart from files. -/
structure Outcome where
  code : Nat := 0
  failure : Option Failure := none
  stdout : String := ""
  /-- The lines that the command itself writes. The lines of its log, which carry the time, and the
  display of the warnings about the document are left out. -/
  stderr : String := ""
  /-- The warnings about the document, as values. -/
  issues : List Issue := []

def Outcome.failed (f : Failure) (stderr : String) (issues : List Issue) : Outcome :=
  { code := 1, failure := some f, stderr, issues }

def unlines (lines : List String) : String := String.join (lines.map (· ++ "\n"))

/-- The variables of a template as JSON, in the order of their names. -/
def variablesJson (values : Dict String) : String :=
  if values.isEmpty then "\x7b\x7d"
  else
    "\x7b\n" ++
      ",\n".intercalate
        (values.entries.map fun e =>
          "  " ++ Text.quoteJson e.1 ++ ": " ++ Text.quoteJson e.2) ++ "\n\x7d"

/-- The warning about a substitution that could not be read. -/
def substitutionWarning (e : OptionError) : String :=
  "warning: ignoring substitution '" ++ e.option ++ "': " ++ e.message

section

variable {m : Type → Type} [Monad m]

/-- Reads a configuration file: the named one, or else the one with the default name, if it is
there. -/
def Config.load (files : Files m) (path : Option String) : m (Except Failure Config) := do
  if path.isNone && !(← files.isFile Config.defaultName) then return .ok {}
  let path := path.getD Config.defaultName
  match ← files.readText path with
  | .error e => return .error (.read path e)
  | .ok text =>
    match Config.parse? text.toList with
    | some config => return .ok config
    | none => return .error (.config path)

/-- Converts a document that lies in a directory, which may hold better forms of its images. -/
def convertIn (files : Files m) (directory : List Char) (o : Options) (source : String) :
    m Output := do
  let document := Document.parse source.toList 0
  let pathOf (asset : String) : String := String.ofList (Path.join directory asset.toList)
  let candidates := if o.format = .latex then document.root.printCandidates else []
  let found ← files.existing (candidates.map pathOf)
  return convertDocument o (fun asset => found.contains (pathOf asset)) document

/-- The text of the template: of the named file, or else the standard one. -/
def loadTemplate (files : Files m) (path : Option String) : m (Except Failure String) := do
  match path with
  | none => return .ok Template.standard
  | some path =>
    match ← files.readText path with
    | .ok text => return .ok text
    | .error e => return .error (.template path e)

/-- What the command makes of the variables of the template. -/
def RenderCommand.result (c : RenderCommand) (files : Files m) (config : Config)
    (values : Dict String) : m (Except Failure String) := do
  if c.json then return .ok (variablesJson values)
  match ← loadTemplate files (c.template <|> config.template) with
  | .ok template => return .ok (Template.substitute template values)
  | .error f => return .error f

/-- Prints the result, or writes it to the file that is named. -/
def RenderCommand.deliver (c : RenderCommand) (files : Files m) (result stderr : String)
    (issues : List Issue) : m Outcome := do
  match c.output with
  | none => return { stdout := result ++ "\n", stderr, issues }
  | some path =>
    match ← files.write path result with
    | .ok () => return { stderr, issues }
    | .error e => return .failed (.write path e) stderr issues

def RenderCommand.run (c : RenderCommand) (files : Files m) : m Outcome := do
  match ← Config.load files c.config with
  | .error f => return .failed f "" []
  | .ok config =>
    match ← files.readText c.document with
    | .error e => return .failed (.read c.document e) "" []
    | .ok source =>
      let (options, optionErrors) := config.optionsWith c.format c.options
      let output ← convertIn files (Path.parent c.document.toList) options source
      let issues := optionErrors.map (·.toIssue 0) ++ output.issues
      if c.ast then return { stdout := output.root.dumpText ++ "\n", issues }
      let (values, errors) := config.variablesWith output.variables c.substitutions
      let stderr := unlines (errors.map substitutionWarning)
      match ← c.result files config values with
      | .error f => return .failed f stderr issues
      | .ok result => c.deliver files result stderr issues

end

end Treatise
