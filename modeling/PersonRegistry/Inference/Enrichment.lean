import PersonRegistry.Inference.Trait
import PersonRegistry.Person.Coding

/-! The traits inferred for one name, some of which may still be missing. -/

namespace PersonRegistry.Inference

open Json (Layout)
open Text (Octets)

structure Enrichment where
  age : Option Int32 := none
  gender : Option String := none
  nationality : Option String := none
  deriving DecidableEq, Repr

namespace Enrichment

def has (e : Enrichment) : Trait → Bool
  | .age => e.age.isSome
  | .gender => e.gender.isSome
  | .nationality => e.nationality.isSome

/-- The traits that have not been inferred, in the order of looking them up. -/
def missing (e : Enrichment) : List Trait := Trait.all.filter fun t => !e.has t

def isComplete (e : Enrichment) : Bool := e.missing.isEmpty

def only (e : Enrichment) : Trait → Enrichment
  | .age => { age := e.age }
  | .gender => { gender := e.gender }
  | .nationality => { nationality := e.nationality }

def merge (e other : Enrichment) : Enrichment where
  age := e.age <|> other.age
  gender := e.gender <|> other.gender
  nationality := e.nationality <|> other.nationality

def apply (e : Enrichment) (p : Person) : Person :=
  { p with age := e.age, gender := e.gender, nationality := e.nationality }

def layout : Layout Enrichment where
  title := "Enrichment"
  blank := {}
  members :=
    [.of "age" .defaulted (Json.orNull Json.signed32) fun age e => { e with age },
      .of "gender" .defaulted (Json.orNull Json.text) fun gender e => { e with gender },
      .of "nationality" .defaulted (Json.orNull Json.text) fun nationality e =>
        { e with nationality }]

def decode (octets : Octets) : Except Json.DecodeError Enrichment :=
  Json.decode (Json.record layout) octets

def printedMembers (e : Enrichment) : List (String × List Char) :=
  [("age", Json.printOption printInt32 e.age),
    ("gender", Json.printOption Json.printText e.gender),
    ("nationality", Json.printOption Json.printText e.nationality)]

def print (e : Enrichment) : List Char := Json.printMembers e.printedMembers

end Enrichment

/-- Why a payload is of no use for a trait. -/
inductive PayloadFlaw
  | malformed (error : Json.DecodeError)
  | absent
  deriving DecidableEq, Repr

def PayloadFlaw.message (t : Trait) : PayloadFlaw → String
  | .malformed error => error.message
  | .absent => s!"no {t.text} in payload"

/-- The trait that a payload carries. Whatever else it carries is left alone. -/
def traitOf (t : Trait) (payload : Octets) : Except PayloadFlaw Enrichment :=
  match Enrichment.decode payload with
  | .error error => .error (.malformed error)
  | .ok e => if (e.only t).has t then .ok (e.only t) else .error .absent

end PersonRegistry.Inference
