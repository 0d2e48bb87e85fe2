import Treatise.OptionsData
import Treatise.RenderOptions
import Treatise.Toml.Document

/-!
# Configuration

A configuration file is a TOML document: the options of the conversion at the top level, beside them
the file of a template and values for it. What is given with a command wins over the file.
-/

namespace Treatise

structure Config where
  options : Options := {}
  /-- The file of the template. -/
  template : Option String := none
  /-- Values for the template. -/
  substitutions : Dict String := ∅

namespace Config

/-- The name of the file that is read when no other is named. -/
def defaultName : String := "mdt.toml"

/-- The options stand beside other entries, and are taken from copies of these. -/
def leniency : Leniency := { emptyMap := true }

/-- A configuration from the fields of a record. -/
def ofFields? (fields : List (String × Data)) : Option Config := do
  let options ← Options.ofFields? leniency fields
  let template ← Data.field? fields "template" (fun d => d.text?.map some) none
  let substitutions ← Data.field? fields "substitutions" Data.textMap? ∅
  pure { options, template, substitutions }

def parse? (text : List Char) : Option Config := do
  ofFields? (entriesToData (← Toml.table? text))

/-- The options with a format and assignments that win, and what is wrong with the assignments. -/
def optionsWith (c : Config) (format : Option Format) (assignments : List String) :
    Options × List OptionError :=
  let (render, errors) := readAssignments assignments
  ({ c.options with
      format := format.getD c.options.format
      render := c.options.render.union render }, errors)

/-- The values for a template: those of the document, over them those of the file, over these the
assignments; and what is wrong with the assignments. -/
def variablesWith (c : Config) (base : Dict String) (assignments : List String) :
    Dict String × List OptionError :=
  let (extra, errors) := readAssignments assignments
  ((base.union c.substitutions).union extra, errors)

end Config

end Treatise
