import PersonRegistry.Text.Utf8
import PersonRegistry.Time.Span

/-! A cache: values by key, each for a span of its own. -/

namespace PersonRegistry

open Text (Octets)
open Time (Span)

namespace Cache

/-- A value under a key, and the time from which on it counts no more. -/
structure Entry where
  key : String
  value : Octets
  expires : Nat
  deriving DecidableEq, Repr

end Cache

/-- The values held, one at most for each key. -/
structure Cache where
  entries : List Cache.Entry := []
  deriving Repr

namespace Cache

instance : Inhabited Cache := ⟨{}⟩

def defaultCapacity : Nat := 10000

/-- The value under a key, unless its span has passed. -/
def get (cache : Cache) (now : Nat) (key : String) : Option Octets :=
  (cache.entries.find? fun e => e.key = key && now < e.expires).map (·.value)

def delete (cache : Cache) (key : String) : Cache :=
  ⟨cache.entries.filter (·.key ≠ key)⟩

/-- Puts a value under a key for a span, instead of any other. -/
def set (cache : Cache) (now : Nat) (key : String) (value : Octets) (span : Span) : Cache :=
  ⟨⟨key, value, now + span⟩ :: (cache.delete key).entries⟩

end Cache
end PersonRegistry
