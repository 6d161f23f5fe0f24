import PersonRegistry.Service.Operations

/-! Putting a service together from its parts, some of which must be there. -/

namespace PersonRegistry.Service

open Time (Span)

inductive Part
  | store
  | cache
  | enricher
  deriving DecidableEq, Repr

def Part.text : Part → String
  | .store => "store"
  | .cache => "cache"
  | .enricher => "enricher"

def Part.missingMessage (part : Part) : String :=
  s!"missing required dependency `{part.text}`"

structure Assembly (S C E : Type) where
  store : Option S := none
  cache : Option C := none
  enricher : Option E := none
  cacheSpan : Span := defaultCacheSpan

structure Assembled (S C E : Type) where
  store : S
  cache : C
  enricher : E
  cacheSpan : Span

/-- The complete service, or the first part that is missing. -/
def Assembly.build (parts : Assembly S C E) : Except Part (Assembled S C E) := do
  let store ← parts.store.elim (.error .store) .ok
  let cache ← parts.cache.elim (.error .cache) .ok
  let enricher ← parts.enricher.elim (.error .enricher) .ok
  return { store, cache, enricher, cacheSpan := parts.cacheSpan }

end PersonRegistry.Service
