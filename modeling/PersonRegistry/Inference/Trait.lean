import PersonRegistry.Person.Basic

/-! What is inferred from a name, and the services that infer it. -/

namespace PersonRegistry.Inference

/-- A trait that a name hints at. Each has a service of its own. -/
inductive Trait
  | age
  | gender
  | nationality
  deriving DecidableEq, Repr

namespace Trait

/-- The traits, in the order in which they are looked up. -/
def all : List Trait := [.age, .gender, .nationality]

/-- The name of the field that holds the trait. -/
def text : Trait → String
  | .age => "age"
  | .gender => "gender"
  | .nationality => "nationality"

/-- The name of the service that infers the trait. -/
def service : Trait → String
  | .age => "agify"
  | .gender => "genderize"
  | .nationality => "nationalize"

def defaultUrl : Trait → String
  | .age => "https://api.agify.io"
  | .gender => "https://api.genderize.io"
  | .nationality => "https://api.nationalize.io"

end Trait
end PersonRegistry.Inference
