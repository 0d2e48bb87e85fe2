import Treatise.Dict
import Treatise.Toml.Value

/-!
# Structured data

The form in which options come: plain values, lists and maps. The readers give nothing when a value
has the wrong form; they never guess.

* `Toml.Value.toData` — a TOML value as data;
* `Data.fields?` — the fields of a record, which may also be a list in the order of the fields;
* `Data.word?` — one of a few words.
-/

namespace Treatise

inductive Data where
  | null
  | boolean (b : Bool)
  | integer (n : Int)
  /-- A number that is not an integer. -/
  | decimal
  | text (s : String)
  | list (items : List Data)
  | map (entries : List (String × Data))
  deriving Inhabited

/-- What a source of data lets pass. -/
structure Leniency where
  /-- A record that is a list may have items behind its last field. -/
  extraItems : Bool := false
  /-- A word may be the key of an empty map. -/
  emptyMap : Bool := false
  /-- A word may be the key of an empty list. -/
  emptyList : Bool := false
  deriving DecidableEq, Repr

/-- The key under which a moment is the text of a map. -/
def momentKey : String := "$__toml_private_datetime"

mutual

/-- A TOML value as data. A moment is a map with one entry, its text. -/
def Toml.Value.toData : Toml.Value → Data
  | .string s => .text s
  | .integer n => .integer n
  | .float _ => .decimal
  | .boolean b => .boolean b
  | .moment m => .map [(momentKey, .text m.render)]
  | .array items => .list (itemsToData items)
  | .table entries => .map (entriesToData entries)

def itemsToData : List Toml.Value → List Data
  | [] => []
  | v :: vs => v.toData :: itemsToData vs

def entriesToData : List (String × Toml.Value) → List (String × Data)
  | [] => []
  | (key, v) :: entries => (key, v.toData) :: entriesToData entries

end

namespace Data

/-! ## Plain values -/

def boolean? : Data → Option Bool
  | boolean b => some b
  | _ => none

/-- A number from 0 up to the largest of 64 bits. -/
def count? : Data → Option Nat
  | integer n => if 0 ≤ n ∧ n.toNat < UInt64.size then some n.toNat else none
  | _ => none

def text? : Data → Option String
  | text s => some s
  | _ => none

/-- All items of a list. -/
def list? {α : Type} (item? : Data → Option α) : Data → Option (List α)
  | list items => items.mapM item?
  | _ => none

/-- A map whose values are texts. -/
def textMap? : Data → Option (Dict String)
  | map entries =>
    (entries.mapM fun (e : String × Data) => e.2.text?.map fun s => (e.1, s)).map Dict.ofList
  | _ => none

/-! ## Words -/

/-- The value that may stand under a word. -/
def isEmpty (l : Leniency) : Data → Bool
  | null => true
  | map [] => l.emptyMap
  | list [] => l.emptyList
  | _ => false

/-- One of a few words, as a text or as the only key of a map. -/
def word? {α : Type} (l : Leniency) (words : List (String × α)) : Data → Option α
  | text s => words.lookup s
  | map [(key, value)] => if value.isEmpty l then words.lookup key else none
  | _ => none

/-! ## Records -/

/-- The fields of a record by name. A list has them in the order of the names and may end early. -/
def fields? (l : Leniency) (names : List String) : Data → Option (List (String × Data))
  | map entries => some entries
  | list items =>
    if items.length ≤ names.length ∨ l.extraItems then some (names.zip items) else none
  | _ => none

/-- A field that may be missing. -/
def field? {α : Type} (fields : List (String × Data)) (name : String) (value? : Data → Option α)
    (fallback : α) : Option α :=
  match fields.lookup name with
  | some d => value? d
  | none => some fallback

/-- A field that must be there. -/
def requiredField? {α : Type} (fields : List (String × Data)) (name : String)
    (value? : Data → Option α) : Option α :=
  (fields.lookup name).bind value?

end Data

end Treatise
