import PersonRegistry.Service.Error

/-! What the service does, as programs: each is done, or makes a call of its surroundings and goes on
with the answer. A program says nothing about who else makes calls in between, or whether it is ever
taken further.
-/

namespace PersonRegistry.Service

open Inference (Enrichment LookupError)
open Text (Octets)
open Time (Span)

inductive Call
  /-- Look up all traits of a name. -/
  | lookUp (name : String)
  | create (p : Person)
  | get (id : Uuid)
  | list (filter : Filter)
  | update (p : Person)
  | delete (id : Uuid)
  | cacheGet (key : String)
  | cacheSet (key : String) (value : Octets) (span : Span)
  | cacheDelete (key : String)
  | publish (message : Octets)
  /-- Send a report about a rejected message. -/
  | report (message : Octets)

abbrev Call.Answer : Call → Type
  | .lookUp _ => Except LookupError Enrichment
  | .create _ => Except Store.Error Person
  | .get _ => Except Store.Error (Option Person)
  | .list _ => Except Store.Error (List Person)
  | .update _ => Except Store.Error (Option Person)
  | .delete _ => Except Store.Error Bool
  | .cacheGet _ => Except CacheError (Option Octets)
  | .cacheSet .. => Except CacheError Unit
  | .cacheDelete _ => Except CacheError Unit
  | .publish _ => Except DeliveryError Unit
  | .report _ => Except DeliveryError Unit

inductive Program (α : Type)
  | done (a : α)
  | ask (call : Call) (next : call.Answer → Program α)

namespace Program

def bind : Program α → (α → Program β) → Program β
  | .done a, f => f a
  | .ask call next, f => .ask call fun answer => (next answer).bind f

instance : Monad Program where
  pure := .done
  bind := Program.bind

def call (c : Call) : Program c.Answer := .ask c .done

/-- Runs a program to its end, each call performed as soon as it is made. -/
def run (perform : (c : Call) → σ → c.Answer × σ) : Program α → σ → α × σ
  | .done a, s => (a, s)
  | .ask c next, s =>
      let (answer, s) := perform c s
      (next answer).run perform s

/-- Runs a program as long as the surroundings allow. A program that is stopped leaves behind what its
calls did before; an answer that comes too late is not taken.
-/
def runWhile (perform : (c : Call) → σ → c.Answer × σ) (allows : σ → Bool) :
    Program α → σ → Option α × σ
  | .done a, s => (some a, s)
  | .ask c next, s =>
      let (answer, s) := perform c s
      if allows s then (next answer).runWhile perform allows s else (none, s)

/-- Makes at most so many calls of a program. -/
def advance (perform : (c : Call) → σ → c.Answer × σ) : Nat → Program α → σ → Program α × σ
  | 0, program, s => (program, s)
  | _, .done a, s => (.done a, s)
  | steps + 1, .ask c next, s =>
      let (answer, s) := perform c s
      (next answer).advance perform steps s

end Program
end PersonRegistry.Service
