/-!
# Kinds of statements

The fixed vocabulary of numbered statements and proofs. A kind is written with one capital letter
and no other spelling names it: `theorem` and `THEOREM` are ordinary words
(`Kind.ofName?_eq_some_iff`).
-/

namespace Treatise

/-- A kind of statement, in the order in which kinds are listed. -/
inductive Kind where
  | thm | prop | lem | fact | obs | defn | exam | rem | proof
  deriving DecidableEq, Repr

namespace Kind

/-- All kinds, in their order. -/
def all : List Kind := [thm, prop, lem, fact, obs, defn, exam, rem, proof]

/-- The word that names the kind in a document. -/
def name : Kind → String
  | thm => "Theorem"
  | prop => "Proposition"
  | lem => "Lemma"
  | fact => "Fact"
  | obs => "Observation"
  | defn => "Definition"
  | exam => "Example"
  | rem => "Remark"
  | proof => "Proof"

/-- The name of the typesetting environment. -/
def environment : Kind → String
  | thm => "theorem"
  | prop => "proposition"
  | lem => "lemma"
  | fact => "fact"
  | obs => "observation"
  | defn => "definition"
  | exam => "example"
  | rem => "remark"
  | proof => "proof"

def isProof : Kind → Bool
  | proof => true
  | _ => false

def ofName? (s : String) : Option Kind := all.find? (·.name == s)

theorem mem_all (k : Kind) : k ∈ all := by cases k <;> decide

theorem ofName?_eq_some_iff {s : String} {k : Kind} : ofName? s = some k ↔ s = k.name := by
  constructor
  · intro h
    have h : (k.name == s) = true := List.find?_some (p := fun k : Kind => k.name == s) h
    exact (beq_iff_eq.1 h).symm
  · rintro rfl
    cases k <;> decide

end Kind

end Treatise
