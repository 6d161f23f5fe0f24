import PersonRegistry.Json.Printer
import PersonRegistry.Text.Blank
import PersonRegistry.Web.Header

/-! How many lookups a service still allows, as its answers tell. -/

namespace PersonRegistry.Inference

open Web (Header)

/-- The quota of a service: names for the current window, names left in it, and seconds until the next
one.
-/
structure RateLimit where
  limit : Int
  remaining : Int
  reset : Int
  deriving DecidableEq, Repr

namespace RateLimit

/-- The number in the first header of a name. Space around it does not count. -/
def number? (headers : List Header) (name : String) : Option Int := do
  let text ← Header.firstText? name headers
  (Text.readInteger .signed64 (Text.trimmed text.toList)).toOption

/-- The quota that headers tell. All three numbers must be there. -/
def ofHeaders? (headers : List Header) : Option RateLimit := do
  pure
    { limit := ← number? headers "x-rate-limit-limit"
      remaining := ← number? headers "x-rate-limit-remaining"
      reset := ← number? headers "x-rate-limit-reset" }

def value (quota : RateLimit) : Json.Value :=
  .ofMembers
    [("limit", .integer quota.limit), ("remaining", .integer quota.remaining),
      ("reset", .integer quota.reset)]

/-- How long to wait for the next window, in seconds. -/
def retryAfter (quota : RateLimit) : Int := max quota.reset 0

end RateLimit
end PersonRegistry.Inference
