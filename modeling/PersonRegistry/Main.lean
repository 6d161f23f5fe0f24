import PersonRegistry.CommandLine
import PersonRegistry.Queue.Worker
import PersonRegistry.Settings.HomePath
import PersonRegistry.Settings.Load

/-! The program: it reads the settings and runs a worker on a file or the standard input. It reaches no
other machine, so the services that infer traits count as out of reach, and it listens on no address.
-/

namespace PersonRegistry.Main

open Text (Octets)

def variableNames : List String :=
  ["HOST", "PORT", "STORE_PATH", "REQUEST_TIMEOUT_MS", "ENRICHMENT__AGE_URL", "ENRICHMENT__GENDER_URL",
    "ENRICHMENT__NATIONALITY_URL", "ENRICHMENT__TIMEOUT_MS", "ENRICHMENT__HTTP_TIMEOUT_MS",
    "CACHE__TTL_SECS", "CACHE__CAPACITY", "QUEUE__POLL_TIMEOUT_MS", "QUEUE__ERRORS_PATH",
    "QUEUE__EVENTS_PATH"].map ("CENSUS__" ++ ·)

def environment : IO (List (String × String)) :=
  variableNames.filterMapM fun name => do
    return (← IO.getEnv name).map (name, ·)

/-- The octets of a file, unless it cannot be read. -/
def readFile? (path : String) : IO (Option Octets) := do
  try
    return some (← IO.FS.readBinFile path).toList
  catch _ => return none

/-- The octets held so far and all others of a stream. -/
partial def readAll (stream : IO.FS.Stream) (held : ByteArray) : IO ByteArray := do
  let more ← stream.read 65536
  if more.isEmpty then return held else readAll stream (held ++ more)

/-- Adds octets to the end of a file, which is made if it is missing. -/
def append (path : String) (octets : Octets) : IO Unit := do
  let handle ← IO.FS.Handle.mk path .append
  handle.write ⟨octets.toArray⟩

def fail (message : String) : IO UInt32 := do
  IO.eprintln ("Error: " ++ message)
  return 1

def runWorker (settings : Settings) (inputPath : Option String) : IO UInt32 := do
  let seed ← IO.getRandomBytes 16
  let bits := seed.toList.foldl (fun bits b => bits * 256 + b.toNat) 0
  let backend : Service.Backend :=
    { replies := fun _ t => .unreachable t
      deadline := settings.lookup.deadline
      ids := fun n => .ofRandom (bits + n) }
  let input ←
    match inputPath with
    | some path => readFile? path
    | none => some <$> ByteArray.toList <$> readAll (← IO.getStdin) .empty
  let (result, backend) := Queue.work settings input backend
  if let some path := settings.queue.eventsPath then append path backend.events.written
  if input.isSome then
    let reports := (backend.reports.getD {}).written
    match settings.queue.reportsPath with
    | some path => append path reports
    | none =>
        let output ← IO.getStdout
        output.write ⟨reports.toArray⟩
        output.flush
  match result with
  | .ok _ => return 0
  | .error e => fail e.message

def run (arguments : List String) : IO UInt32 := do
  match CommandLine.parse arguments with
  | .error e =>
      IO.eprintln ("error: " ++ e.message)
      return 2
  | .ok invocation =>
      let file ← readFile? invocation.settingsPath
      let text := file.map fun octets => String.ofList (Text.Utf8.lossy octets)
      match Settings.load text (← environment) with
      | .error e => fail ("failed to load configuration: " ++ e.message)
      | .ok settings =>
          match invocation.command with
          | .serve => fail ("failed to bind " ++ settings.address)
          | .worker input => runWorker settings input

end PersonRegistry.Main

def main (arguments : List String) : IO UInt32 := PersonRegistry.Main.run arguments
