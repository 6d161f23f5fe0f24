import PersonRegistry.Inference.Failure

/-! The answers of the services, and the common form they are brought into: an object with the trait, the
name and the number of records behind it.
-/

namespace PersonRegistry.Inference

open Json (Layout Value)
open Text (Octets)

structure AgeAnswer where
  count : Option Nat := none
  name : Option String := none
  age : Option Int32 := none
  deriving Repr

def AgeAnswer.layout : Layout AgeAnswer where
  title := "AgifyBody"
  blank := {}
  members :=
    [.of "count" .defaulted (Json.orNull Json.unsigned64) fun count a => { a with count },
      .of "name" .defaulted (Json.orNull Json.text) fun name a => { a with name },
      .of "age" .optional (Json.orNull Json.signed32) fun age a => { a with age }]

structure GenderAnswer where
  count : Option Nat := none
  name : Option String := none
  gender : Option String := none
  probability : Option Binary64 := none
  deriving Repr

def GenderAnswer.layout : Layout GenderAnswer where
  title := "GenderizeBody"
  blank := {}
  members :=
    [.of "count" .defaulted (Json.orNull Json.unsigned64) fun count a => { a with count },
      .of "name" .defaulted (Json.orNull Json.text) fun name a => { a with name },
      .of "gender" .optional (Json.orNull Json.text) fun gender a => { a with gender },
      .of "probability" .defaulted (Json.orNull Json.float) fun probability a =>
        { a with probability }]

structure Country where
  code : String := ""
  probability : Binary64 := .zero
  deriving DecidableEq, Repr

def Country.layout : Layout Country where
  title := "Country"
  blank := {}
  members :=
    [.of "country_id" .required Json.text fun code c => { c with code },
      .of "probability" .required Json.float fun probability c => { c with probability }]

structure NationalityAnswer where
  count : Option Nat := none
  name : Option String := none
  countries : List Country := []
  deriving DecidableEq, Repr

def NationalityAnswer.layout : Layout NationalityAnswer where
  title := "NationalizeBody"
  blank := {}
  members :=
    [.of "count" .defaulted (Json.orNull Json.unsigned64) fun count a => { a with count },
      .of "name" .defaulted (Json.orNull Json.text) fun name a => { a with name },
      .of "country" .defaulted (Json.list (Json.record Country.layout)) fun countries a =>
        { a with countries }]

/-- The more probable of two countries, or the later one if both are equally probable. -/
def Country.likelier (earlier later : Country) : Country :=
  if later.probability.rank < earlier.probability.rank then earlier else later

def Country.likeliest? : List Country → Option Country
  | [] => none
  | first :: rest => some (rest.foldl likelier first)

/-- What is known about a name, in the common form. -/
structure Payload where
  trait : Trait
  value : Value
  /-- How sure the service is, where it tells. -/
  probability : Option Value
  count : Option Nat
  name : String
  deriving Repr

def Payload.toValue (payload : Payload) : Value :=
  .ofMembers
    ([(payload.trait.text, payload.value)]
      ++ (payload.probability.map fun p => ("probability", p)).toList
      ++ [("count", .ofInteger? (payload.count.map Int.ofNat)), ("name", .text payload.name)])

def payload (trait : Trait) (name : String) (answer : Octets) : Except Cause Payload :=
  match trait with
  | .age =>
      match Json.decode (Json.record AgeAnswer.layout) answer with
      | .error e => .error (.malformed e)
      | .ok a =>
          match a.age with
          | none => .error (.unknownName name)
          | some age =>
              .ok ⟨trait, .integer age.toInt, none, a.count, a.name.getD name⟩
  | .gender =>
      match Json.decode (Json.record GenderAnswer.layout) answer with
      | .error e => .error (.malformed e)
      | .ok a =>
          match a.gender with
          | none => .error (.unknownName name)
          | some gender =>
              .ok ⟨trait, .text gender, some ((a.probability.map Value.float).getD .null), a.count,
                a.name.getD name⟩
  | .nationality =>
      match Json.decode (Json.record NationalityAnswer.layout) answer with
      | .error e => .error (.malformed e)
      | .ok a =>
          match Country.likeliest? a.countries with
          | none => .error (.unknownName name)
          | some best =>
              .ok ⟨trait, .text best.code, some (.float best.probability), a.count,
                a.name.getD name⟩

/-- The octets of the payload of an answer about a name. -/
def normalise (trait : Trait) (name : String) (answer : Octets) : Except Failure Octets :=
  match payload trait name answer with
  | .ok payload => .ok (Text.Utf8.encode payload.toValue.print)
  | .error cause => .error ⟨trait, cause⟩

end PersonRegistry.Inference
