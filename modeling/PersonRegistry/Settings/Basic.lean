import PersonRegistry.Inference.Trait
import PersonRegistry.Queue.Pipeline

/-! The settings of the program, with the values they have where no source gives another. -/

namespace PersonRegistry

open Inference (Trait)
open Time (Span)

structure LookupSettings where
  ageUrl : String := Trait.defaultUrl .age
  genderUrl : String := Trait.defaultUrl .gender
  nationalityUrl : String := Trait.defaultUrl .nationality
  /-- How long the lookup of all traits may take. -/
  deadline : Span := 2000
  /-- How long a single request may take. -/
  requestDeadline : Span := 5000
  deriving DecidableEq, Repr

def LookupSettings.url (s : LookupSettings) : Trait → String
  | .age => s.ageUrl
  | .gender => s.genderUrl
  | .nationality => s.nationalityUrl

structure CacheSettings where
  /-- How many seconds a person stays in the cache. -/
  seconds : Nat := 300
  /-- How many persons the cache may hold. -/
  capacity : Nat := 10000
  deriving DecidableEq, Repr

def CacheSettings.span (s : CacheSettings) : Span := s.seconds * 1000

structure QueueSettings where
  /-- How long a poll waits for a message. -/
  pollSpan : Span := Queue.defaultPollSpan
  /-- The file for reports about rejected messages. -/
  reportsPath : Option String := none
  eventsPath : Option String := none
  deriving DecidableEq, Repr

structure Settings where
  host : String := "127.0.0.1"
  port : Nat := 8080
  storePath : String := "census.db"
  requestDeadline : Span := 10000
  lookup : LookupSettings := {}
  cache : CacheSettings := {}
  queue : QueueSettings := {}
  deriving DecidableEq, Repr

def Settings.address (s : Settings) : String := s!"{s.host}:{s.port}"

end PersonRegistry
