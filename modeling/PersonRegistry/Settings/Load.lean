import PersonRegistry.Settings.Basic
import PersonRegistry.Settings.Environment
import PersonRegistry.Settings.Layers
import PersonRegistry.Settings.Toml.Document

/-! Reading the settings from their sources: a file, if there is one, and over it the environment. What no
source gives keeps its default, and what nobody asks for is passed over.
-/

namespace PersonRegistry

open Settings (Entries Error Setting)
open Text (IntegerRange)

/-- Reads a member of a section, which has a default. -/
def Settings.optional (held : α) (read : Setting → Except Error α) (given : Option Setting) :
    Except Error α :=
  match given with
  | none => .ok held
  | some setting => read setting

def Settings.wordMost : Nat := IntegerRange.unsigned64.above

open Settings (optional wordMost)

def LookupSettings.ofSetting (setting : Setting) : Except Error LookupSettings := do
  let given ← setting.members
  let held : LookupSettings := {}
  let ageUrl ← optional held.ageUrl Setting.asText (given 0 "age_url")
  let genderUrl ← optional held.genderUrl Setting.asText (given 1 "gender_url")
  let nationalityUrl ← optional held.nationalityUrl Setting.asText (given 2 "nationality_url")
  let deadline ← optional held.deadline (Setting.asNat wordMost) (given 3 "timeout_ms")
  let requestDeadline ←
    optional held.requestDeadline (Setting.asNat wordMost) (given 4 "http_timeout_ms")
  return { ageUrl, genderUrl, nationalityUrl, deadline, requestDeadline }

def CacheSettings.ofSetting (setting : Setting) : Except Error CacheSettings := do
  let given ← setting.members
  let held : CacheSettings := {}
  let seconds ← optional held.seconds (Setting.asNat wordMost) (given 0 "ttl_secs")
  let capacity ← optional held.capacity (Setting.asNat wordMost) (given 1 "capacity")
  return { seconds, capacity }

/-- How messages are taken from a queue, from a section. -/
def QueueSettings.ofSetting (setting : Setting) : Except Error QueueSettings := do
  let given ← setting.members
  let held : QueueSettings := {}
  let path (given : Setting) : Except Error (Option String) := given.asText.map some
  let pollSpan ← optional held.pollSpan (Setting.asNat wordMost) (given 0 "poll_timeout_ms")
  let reportsPath ← optional held.reportsPath path (given 1 "errors_path")
  let eventsPath ← optional held.eventsPath path (given 2 "events_path")
  return { pollSpan, reportsPath, eventsPath }

namespace Settings

/-- The settings that a table of all sources gives. -/
def ofEntries (entries : Entries) : Except Error Settings := do
  let given (name : String) : Option Setting := entries.lookup name
  let held : Settings := {}
  let host ← optional held.host Setting.asText (given "host")
  let port ← optional held.port (Setting.asNat IntegerRange.unsigned16.above) (given "port")
  let storePath ← optional held.storePath Setting.asText (given "store_path")
  let requestDeadline ←
    optional held.requestDeadline (Setting.asNat wordMost) (given "request_timeout_ms")
  let lookup ← optional held.lookup LookupSettings.ofSetting (given "enrichment")
  let cache ← optional held.cache CacheSettings.ofSetting (given "cache")
  let queue ← optional held.queue QueueSettings.ofSetting (given "queue")
  return { host, port, storePath, requestDeadline, lookup, cache, queue }

def ofFile (text : String) : Except Error Entries :=
  match Toml.read? text with
  | some entries => .ok entries
  | none => .error .syntaxError

def ofEnvironment (environment : List (String × String)) : Entries :=
  environment.filterMap fun (name, value) => ofVariable? name value

/-- Loads the settings from a file, if there is one, and from the environment, variables and their values.
-/
def load (file : Option String) (environment : List (String × String)) :
    Except Error Settings := do
  let given ← file.elim (.ok []) ofFile
  ofEntries (layer (layer [] given) (ofEnvironment environment))

end Settings
end PersonRegistry
