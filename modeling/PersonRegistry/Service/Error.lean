import PersonRegistry.Inference.Lookup
import PersonRegistry.Person.Validation
import PersonRegistry.Store.Row

/-! Why a call of the service fails. -/

namespace PersonRegistry.Service

/-- The cache does not answer a call of the given name. -/
structure CacheError where
  call : String
  deriving DecidableEq, Repr

def CacheError.message (e : CacheError) : String := e.call ++ " is down"

structure DeliveryError where
  sink : String
  deriving DecidableEq, Repr

def DeliveryError.message (e : DeliveryError) : String := e.sink ++ " is down"

inductive Error
  | invalid (faults : Faults)
  | notFound (id : Uuid)
  | lookup (e : Inference.LookupError)
  | store (e : Store.Error)
  | cache (e : CacheError)
  deriving DecidableEq, Repr

def Error.message : Error → String
  | .invalid faults => faults.message
  | .notFound id => "person not found: " ++ id.text
  | .lookup e => e.message
  | .store e => "store error: " ++ e.message
  | .cache e => "cache error: " ++ e.message

end PersonRegistry.Service
