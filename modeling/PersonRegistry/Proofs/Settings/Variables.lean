import PersonRegistry.Proofs.Json.Readings
import PersonRegistry.Proofs.Settings.Layers
import PersonRegistry.Proofs.Settings.Values
import PersonRegistry.Settings.Load

/-! Settings that are texts, given by environment variables. A variable reaches the setting of its name
whatever the file and the other variables say.
-/

namespace PersonRegistry

open Inference (Trait)
open Settings (Entries Error Setting optional wordMost)

-----------------------------------------------------------------------------------------
-- Sections
-----------------------------------------------------------------------------------------

theorem Settings.bind_eq_ok {α β : Type} {first : Except Error α} {next : α → Except Error β} {b : β}
    : (first >>= next) = .ok b ↔ ∃ a, first = .ok a ∧ next a = .ok b := by
  cases first with
  | error e => simp [bind, Except.bind]
  | ok a => simp [bind, Except.bind]

open Settings (bind_eq_ok)

/-- What a table says about lookups, member by member. -/
theorem LookupSettings.ofSetting_table {entries : Entries} {s : LookupSettings}
    : ofSetting (.table entries) = .ok s
      ↔ optional (Trait.defaultUrl .age) Setting.asText (entries.lookup "age_url") = .ok s.ageUrl
        ∧ optional (Trait.defaultUrl .gender) Setting.asText (entries.lookup "gender_url")
          = .ok s.genderUrl
        ∧ optional (Trait.defaultUrl .nationality) Setting.asText (entries.lookup "nationality_url")
          = .ok s.nationalityUrl
        ∧ optional 2000 (Setting.asNat wordMost) (entries.lookup "timeout_ms") = .ok s.deadline
        ∧ optional 5000 (Setting.asNat wordMost) (entries.lookup "http_timeout_ms")
          = .ok s.requestDeadline := by
  simp only [ofSetting, Setting.members, bind_eq_ok, pure, Except.pure, Except.ok.injEq]
  constructor
  · rintro ⟨given, rfl, age, ages, gender, genders, nationality, nationalities, deadline, deadlines, request,
      requests, rfl⟩
    exact ⟨ages, genders, nationalities, deadlines, requests⟩
  · rintro ⟨ages, genders, nationalities, deadlines, requests⟩
    exact ⟨_, rfl, _, ages, _, genders, _, nationalities, _, deadlines, _, requests, rfl⟩

/-- What a table says about the queue. -/
theorem QueueSettings.ofSetting_table {entries : Entries} {s : QueueSettings}
    : ofSetting (.table entries) = .ok s
      ↔ optional Queue.defaultPollSpan (Setting.asNat wordMost) (entries.lookup "poll_timeout_ms")
          = .ok s.pollSpan
        ∧ optional none (fun given => given.asText.map some) (entries.lookup "errors_path")
          = .ok s.reportsPath
        ∧ optional none (fun given => given.asText.map some) (entries.lookup "events_path")
          = .ok s.eventsPath := by
  simp only [ofSetting, Setting.members, bind_eq_ok, pure, Except.pure, Except.ok.injEq]
  constructor
  · rintro ⟨given, rfl, poll, polls, reports, reported, events, told, rfl⟩
    exact ⟨polls, reported, told⟩
  · rintro ⟨polls, reported, told⟩
    exact ⟨_, rfl, _, polls, _, reported, _, told, rfl⟩

namespace Settings

/-- What all sources say, by their top members. -/
theorem ofEntries_eq_ok {entries : Entries} {s : Settings}
    : ofEntries entries = .ok s
      ↔ optional "127.0.0.1" Setting.asText (entries.lookup "host") = .ok s.host
        ∧ optional 8080 (Setting.asNat Text.IntegerRange.unsigned16.above) (entries.lookup "port") = .ok s.port
        ∧ optional "census.db" Setting.asText (entries.lookup "store_path") = .ok s.storePath
        ∧ optional 10000 (Setting.asNat wordMost) (entries.lookup "request_timeout_ms") = .ok s.requestDeadline
        ∧ optional {} LookupSettings.ofSetting (entries.lookup "enrichment") = .ok s.lookup
        ∧ optional {} CacheSettings.ofSetting (entries.lookup "cache") = .ok s.cache
        ∧ optional {} QueueSettings.ofSetting (entries.lookup "queue") = .ok s.queue := by
  simp only [ofEntries, bind_eq_ok, pure, Except.pure, Except.ok.injEq]
  constructor
  · rintro ⟨host, hosts, port, ports, path, paths, span, spans, lookup, lookups, cache, caches, queue, queues,
      rfl⟩
    exact ⟨hosts, ports, paths, spans, lookups, caches, queues⟩
  · rintro ⟨hosts, ports, paths, spans, lookups, caches, queues⟩
    exact ⟨_, hosts, _, ports, _, paths, _, spans, _, lookups, _, caches, _, queues, rfl⟩

/-- A section is given as a list, whose items are taken by their places. -/
def isListed : Option Setting → Bool
  | some (.list _) => true
  | _ => false

/-- What a section says when it is taken for a table: a list of settings gives way to an empty one. -/
theorem ofSetting_entriesOf {α : Type} {held s : α} {read : Setting → Except Error α} {given : Option Setting}
    {take : (Nat → String → Option Setting) → Except Error α} (reads : optional held read given = .ok s)
    (fresh : read (.table []) = .ok held) (members : ∀ setting, read setting = setting.members >>= take)
    : read (.table (Setting.entriesOf given)) = .ok (if isListed given then held else s) := by
  cases given with
  | none =>
      obtain rfl := Except.ok.inj reads
      exact fresh
  | some setting =>
      cases setting with
      | table entries => exact reads
      | list items => exact fresh
      | boolean | integer | real | text =>
          obtain ⟨given, found, -⟩ := bind_eq_ok.mp ((members _).symm.trans reads)
          cases found

-----------------------------------------------------------------------------------------
-- Settings that are texts
-----------------------------------------------------------------------------------------

inductive TextSetting
  | host
  | storePath
  | url (t : Trait)
  | reportsPath
  | eventsPath
  deriving DecidableEq, Repr

def urlName : Trait → String
  | .age => "age_url"
  | .gender => "gender_url"
  | .nationality => "nationality_url"

def setUrl (text : String) (t : Trait) (lookup : LookupSettings) : LookupSettings :=
  match t with
  | .age => { lookup with ageUrl := text }
  | .gender => { lookup with genderUrl := text }
  | .nationality => { lookup with nationalityUrl := text }

namespace TextSetting

/-- Where a setting stands in a file: its name, behind that of its section if it is in one. -/
def path : TextSetting → List String
  | .host => ["host"]
  | .storePath => ["store_path"]
  | .url t => ["enrichment", urlName t]
  | .reportsPath => ["queue", "errors_path"]
  | .eventsPath => ["queue", "events_path"]

/-- The variable of a setting: the path in capitals, with two underscores between its parts. -/
def variableName (key : TextSetting) : String := "CENSUS__" ++ "__".intercalate (key.path.map String.toUpper)

/-- The settings with one of them replaced. -/
def set (text : String) (s : Settings) : TextSetting → Settings
  | .host => { s with host := text }
  | .storePath => { s with storePath := text }
  | .url t => { s with lookup := setUrl text t s.lookup }
  | .reportsPath => { s with queue.reportsPath := some text }
  | .eventsPath => { s with queue.eventsPath := some text }

/-- The settings without what any source says about the section of a setting. -/
def sectionCleared (s : Settings) : TextSetting → Settings
  | .host | .storePath => s
  | .url _ => { s with lookup := {} }
  | .reportsPath | .eventsPath => { s with queue := {} }

/-- The name of the section that a setting is in. -/
def section? : TextSetting → Option String
  | .host | .storePath => none
  | .url _ => some "enrichment"
  | .reportsPath | .eventsPath => some "queue"

end TextSetting

/-- The path that a variable gives a setting for, by its name. -/
def variablePath? (name : String) : Option (List String) :=
  (variableStart.toList.isPrefixOf? (Text.lowercase name).toList).map fun rest =>
    pathOf (String.ofList (pointed rest))

theorem ofVariable?_map (name value : String)
    : (ofVariable? name value).map (fun given => (pathOf given.1, given.2))
      = (variablePath? name).map (·, variableSetting value) := by
  rw [ofVariable?, variablePath?, Option.map_map, Option.map_map]
  rfl

theorem isTable_variableSetting (value : String) : (variableSetting value).isTable = false := by
  rw [variableSetting]
  split
  next => rfl
  next => rfl
  next =>
    split
    next => rfl
    next => split <;> rfl

theorem TextSetting.variablePath?_variableName (key : TextSetting)
    : variablePath? key.variableName = some key.path := by
  cases key with
  | url t => cases t <;> decide +kernel
  | _ => decide +kernel

theorem TextSetting.small_path (key : TextSetting) : ∀ name ∈ key.path, Text.lowercase name = name := by
  cases key with
  | url t => cases t <;> decide +kernel
  | _ => decide +kernel

-----------------------------------------------------------------------------------------
-- Tables that differ in one of them
-----------------------------------------------------------------------------------------

section

variable {setting : Setting} {name text : String} {plain changed inner : Entries} {s : Settings}

theorem Differ.of_name (differ : Differ setting [name] plain changed)
    : (∀ other, other ≠ name → changed.lookup other = plain.lookup other)
      ∧ changed.lookup name = some setting := by
  cases differ with
  | here others there => exact ⟨others, there⟩
  | inside _ _ differ => cases differ

theorem Differ.of_section {first : String} (differ : Differ setting [first, name] plain changed)
    : (∀ other, other ≠ first → changed.lookup other = plain.lookup other)
      ∧ ∃ inner, changed.lookup first = some (.table inner)
        ∧ Differ setting [name] (Setting.entriesOf (plain.lookup first)) inner := by
  cases differ with
  | inside others there differ => exact ⟨others, _, there, differ⟩

/-- A member that is replaced in a section is replaced in what is read from it. -/
theorem ofEntries_lookup {change : LookupSettings → LookupSettings}
    (differ : Differ setting ["enrichment", name] plain changed)
    (replaces : ∀ {entries inner : Entries} {lookup : LookupSettings}, Differ setting [name] entries inner →
      LookupSettings.ofSetting (.table entries) = .ok lookup →
      LookupSettings.ofSetting (.table inner) = .ok (change lookup))
    (loads : ofEntries plain = .ok s)
    : ofEntries changed
      = .ok { s with lookup := change (if isListed (plain.lookup "enrichment") then {} else s.lookup) } := by
  obtain ⟨others, inner, there, differ⟩ := differ.of_section
  obtain ⟨hosts, ports, paths, spans, reads, caches, queues⟩ := ofEntries_eq_ok.mp loads
  have table := ofSetting_entriesOf reads rfl fun _ => rfl
  rw [ofEntries_eq_ok, others "host" (by decide), others "port" (by decide), others "store_path" (by decide),
    others "request_timeout_ms" (by decide), there, others "cache" (by decide), others "queue" (by decide)]
  exact ⟨hosts, ports, paths, spans, replaces differ table, caches, queues⟩

theorem ofEntries_queue {change : QueueSettings → QueueSettings}
    (differ : Differ setting ["queue", name] plain changed)
    (replaces : ∀ {entries inner : Entries} {queue : QueueSettings}, Differ setting [name] entries inner →
      QueueSettings.ofSetting (.table entries) = .ok queue →
      QueueSettings.ofSetting (.table inner) = .ok (change queue))
    (loads : ofEntries plain = .ok s)
    : ofEntries changed
      = .ok { s with queue := change (if isListed (plain.lookup "queue") then {} else s.queue) } := by
  obtain ⟨others, inner, there, differ⟩ := differ.of_section
  obtain ⟨hosts, ports, paths, spans, lookups, caches, reads⟩ := ofEntries_eq_ok.mp loads
  have table := ofSetting_entriesOf reads rfl fun _ => rfl
  rw [ofEntries_eq_ok, others "host" (by decide), others "port" (by decide), others "store_path" (by decide),
    others "request_timeout_ms" (by decide), others "enrichment" (by decide), others "cache" (by decide), there]
  exact ⟨hosts, ports, paths, spans, lookups, caches, replaces differ table⟩

theorem lookup_setUrl (taken : setting.asText = .ok text) (t : Trait) {lookup : LookupSettings}
    (differ : Differ setting [urlName t] plain inner)
    (reads : LookupSettings.ofSetting (.table plain) = .ok lookup)
    : LookupSettings.ofSetting (.table inner) = .ok (setUrl text t lookup) := by
  obtain ⟨others, there⟩ := differ.of_name
  obtain ⟨ages, genders, nationalities, deadlines, requests⟩ := LookupSettings.ofSetting_table.mp reads
  rw [LookupSettings.ofSetting_table]
  cases t with
  | age =>
      have there : inner.lookup "age_url" = some setting := there
      rw [there, others "gender_url" (by decide), others "nationality_url" (by decide),
        others "timeout_ms" (by decide), others "http_timeout_ms" (by decide)]
      exact ⟨taken, genders, nationalities, deadlines, requests⟩
  | gender =>
      have there : inner.lookup "gender_url" = some setting := there
      rw [others "age_url" (by decide), there, others "nationality_url" (by decide),
        others "timeout_ms" (by decide), others "http_timeout_ms" (by decide)]
      exact ⟨ages, taken, nationalities, deadlines, requests⟩
  | nationality =>
      have there : inner.lookup "nationality_url" = some setting := there
      rw [others "age_url" (by decide), others "gender_url" (by decide), there,
        others "timeout_ms" (by decide), others "http_timeout_ms" (by decide)]
      exact ⟨ages, genders, taken, deadlines, requests⟩

theorem queue_reportsPath (taken : setting.asText = .ok text) {queue : QueueSettings}
    (differ : Differ setting ["errors_path"] plain inner)
    (reads : QueueSettings.ofSetting (.table plain) = .ok queue)
    : QueueSettings.ofSetting (.table inner) = .ok { queue with reportsPath := some text } := by
  obtain ⟨others, there⟩ := differ.of_name
  obtain ⟨polls, -, told⟩ := QueueSettings.ofSetting_table.mp reads
  have printed : setting.asText.map some = .ok (some text) := congrArg (Except.map some) taken
  rw [QueueSettings.ofSetting_table, others "poll_timeout_ms" (by decide), there,
    others "events_path" (by decide)]
  exact ⟨polls, printed, told⟩

theorem queue_eventsPath (taken : setting.asText = .ok text) {queue : QueueSettings}
    (differ : Differ setting ["events_path"] plain inner)
    (reads : QueueSettings.ofSetting (.table plain) = .ok queue)
    : QueueSettings.ofSetting (.table inner) = .ok { queue with eventsPath := some text } := by
  obtain ⟨others, there⟩ := differ.of_name
  obtain ⟨polls, reported, -⟩ := QueueSettings.ofSetting_table.mp reads
  have printed : setting.asText.map some = .ok (some text) := congrArg (Except.map some) taken
  rw [QueueSettings.ofSetting_table, others "poll_timeout_ms" (by decide), others "errors_path" (by decide),
    there]
  exact ⟨polls, reported, printed⟩

namespace TextSetting

/-- The section of a setting is given as a list. -/
def isListedIn (key : TextSetting) (entries : Entries) : Bool :=
  key.section?.any fun name => isListed (entries.lookup name)

/-- What is read from tables that differ in a text differs in that. A list in the place of the section gives
way to a table, so what it said about other settings is lost.
-/
theorem ofEntries_set (key : TextSetting) (differ : Differ setting key.path plain changed)
    (taken : setting.asText = .ok text) (loads : ofEntries plain = .ok s)
    : ofEntries changed = .ok (key.set text (if key.isListedIn plain then key.sectionCleared s else s)) := by
  cases key with
  | host =>
      obtain ⟨others, there⟩ := differ.of_name
      obtain ⟨-, ports, paths, spans, lookups, caches, queues⟩ := ofEntries_eq_ok.mp loads
      rw [ofEntries_eq_ok, there, others "port" (by decide), others "store_path" (by decide),
        others "request_timeout_ms" (by decide), others "enrichment" (by decide), others "cache" (by decide),
        others "queue" (by decide)]
      exact ⟨taken, ports, paths, spans, lookups, caches, queues⟩
  | storePath =>
      obtain ⟨others, there⟩ := differ.of_name
      obtain ⟨hosts, ports, -, spans, lookups, caches, queues⟩ := ofEntries_eq_ok.mp loads
      rw [ofEntries_eq_ok, others "host" (by decide), others "port" (by decide), there,
        others "request_timeout_ms" (by decide), others "enrichment" (by decide), others "cache" (by decide),
        others "queue" (by decide)]
      exact ⟨hosts, ports, taken, spans, lookups, caches, queues⟩
  | url t =>
      rw [ofEntries_lookup differ (lookup_setUrl taken t) loads, isListedIn, section?, Option.any_some]
      split <;> rfl
  | reportsPath =>
      rw [ofEntries_queue differ (queue_reportsPath taken) loads, isListedIn, section?, Option.any_some]
      split <;> rfl
  | eventsPath =>
      rw [ofEntries_queue differ (queue_eventsPath taken) loads, isListedIn, section?, Option.any_some]
      split <;> rfl

end TextSetting

end

-----------------------------------------------------------------------------------------
-- Sources with one variable more
-----------------------------------------------------------------------------------------

/-- The table of all sources. -/
def sources (file : Option String) (environment : List (String × String)) : Except Error Entries := do
  let given ← file.elim (.ok []) ofFile
  return layer (layer [] given) (ofEnvironment environment)

theorem sources_of_file {file : Option String} {held : Entries} (read : file.elim (.ok []) ofFile = .ok held)
    (environment : List (String × String))
    : sources file environment = .ok (layer (layer [] held) (ofEnvironment environment)) := by
  rw [sources, read]
  rfl

theorem load_eq_ok {file : Option String} {environment : List (String × String)} {s : Settings}
    : load file environment = .ok s
      ↔ ∃ entries, sources file environment = .ok entries ∧ ofEntries entries = .ok s := by
  rw [load, sources, bind_eq_ok]
  simp only [bind_eq_ok, pure, Except.pure, Except.ok.injEq]
  constructor
  · rintro ⟨given, read, loads⟩
    exact ⟨_, ⟨given, read, rfl⟩, loads⟩
  · rintro ⟨_, ⟨given, read, rfl⟩, loads⟩
    exact ⟨given, read, loads⟩

/-- A variable gives no setting at a path or on the way to it or behind it. -/
def IsApart (path : List String) (name : String) : Prop :=
  ∀ other ∈ variablePath? name, Apart other path

instance (path : List String) (name : String) : Decidable (IsApart path name) :=
  inferInstanceAs (Decidable (∀ other ∈ variablePath? name, Apart other path))

theorem layer_append (held first second : Entries)
    : layer held (first ++ second) = layer (layer held first) second :=
  List.foldl_append

theorem ofEnvironment_append (first second : List (String × String))
    : ofEnvironment (first ++ second) = ofEnvironment first ++ ofEnvironment second :=
  List.filterMap_append

/-- What an environment gives stands apart from a path if its variables do. -/
theorem apart_of_mem_ofEnvironment {path : List String} {environment : List (String × String)}
    (apart : ∀ other ∈ environment, IsApart path other.1) {entry : String × Setting}
    (member : entry ∈ ofEnvironment environment)
    : Apart (pathOf entry.1) path := by
  obtain ⟨⟨name, value⟩, other, gives⟩ := List.mem_filterMap.mp member
  have gives : ofVariable? name value = some entry := gives
  have mapped := ofVariable?_map name value
  rw [gives, Option.map_some, eq_comm, Option.map_eq_some_iff] at mapped
  obtain ⟨found, here, same⟩ := mapped
  obtain ⟨rfl, -⟩ := Prod.mk.inj same
  exact apart (name, value) other _ here

/-- One more variable makes the sources differ in the setting that it is for, if no later one is about that. -/
theorem TextSetting.differ_sources (key : TextSetting) (value : String) {file : Option String}
    {before after : List (String × String)} (apart : ∀ other ∈ after, IsApart key.path other.1)
    {plain : Entries} (given : sources file (before ++ after) = .ok plain)
    : ∃ changed, sources file (before ++ (key.variableName, value) :: after) = .ok changed
      ∧ Differ (variableSetting value) key.path plain changed := by
  rw [sources, bind_eq_ok] at given
  obtain ⟨held, read, same⟩ := given
  obtain rfl := Except.ok.inj same
  have own := ofVariable?_map key.variableName value
  rw [key.variablePath?_variableName, Option.map_some, Option.map_eq_some_iff] at own
  obtain ⟨entry, gives, parts⟩ := own
  obtain ⟨path, setting⟩ := Prod.mk.inj parts
  have entries : ofEnvironment ((key.variableName, value) :: after) = entry :: ofEnvironment after :=
    List.filterMap_cons_some gives
  have inside : key.path ≠ [] := by cases key <;> simp [TextSetting.path]
  refine ⟨layer (Setting.overlayAt key.path (variableSetting value)
    (layer (layer [] held) (ofEnvironment before))) (ofEnvironment after), ?_, ?_⟩
  · rw [sources_of_file read, ofEnvironment_append, entries, layer_append, ← path, ← setting]
    rfl
  · rw [ofEnvironment_append, layer_append]
    exact (differ_overlayAt (isTable_variableSetting value) key.small_path inside _).layer fun entry member =>
      apart_of_mem_ofEnvironment apart member

/-- What sources give for the section of a text setting is a list. -/
def TextSetting.isListedBy (key : TextSetting) (given : Except Error Entries) : Bool :=
  given.toOption.any key.isListedIn

/-- A variable for a setting that is a text gives it that text, over the file, the default and the variables
before. The text is the value as it stands, unless that looks like a truth value or a number, which is printed
anew; no value with a mark of addresses or paths in it does. All other settings are what they are without the
variable, but for a section that was given as a list: there, what the list said is lost.
-/
theorem text_given_by_variable (key : TextSetting) (value : String) {file : Option String}
    {before after : List (String × String)} (apart : ∀ other ∈ after, IsApart key.path other.1)
    {s : Settings} (loads : load file (before ++ after) = .ok s)
    : ∃ text, EndsUpAs value text
      ∧ ((∃ c ∈ marks, c ∈ value.toList) → text = value)
      ∧ load file (before ++ (key.variableName, value) :: after)
        = .ok (key.set text
            (if key.isListedBy (sources file (before ++ after)) then key.sectionCleared s else s)) := by
  obtain ⟨plain, given, loads⟩ := load_eq_ok.mp loads
  obtain ⟨changed, gives, differ⟩ := key.differ_sources value apart given
  obtain ⟨text, endsUp, taken⟩ := exists_endsUpAs value
  refine ⟨text, endsUp, fun ⟨c, mark, member⟩ => endsUp.eq_of_mark mark member, ?_⟩
  have loaded := key.ofEntries_set differ taken loads
  rw [given, TextSetting.isListedBy]
  exact load_eq_ok.mpr ⟨changed, gives, loaded⟩

/-- A path for reports takes the place of a list for the queue, and what that says about polls is lost. -/
theorem text_given_by_variable_list
    : let file := some "host = \"inner\"\nqueue = [250]"
      let port := ("CENSUS__PORT", "9000")
      IsApart TextSetting.reportsPath.path port.1
        ∧ load file [port] = .ok { host := "inner", port := 9000, queue := { pollSpan := 250 } }
        ∧ load file [("CENSUS__QUEUE__ERRORS_PATH", "/tmp/errors.jsonl"), port]
          = .ok { host := "inner", port := 9000, queue := { reportsPath := some "/tmp/errors.jsonl" } } := by
  intro file port
  have apart : IsApart TextSetting.reportsPath.path port.1 := by decide +kernel
  have plain : (load file [port]).toOption
      = some { host := "inner", port := 9000, queue := { pollSpan := 250 } } := by
    decide +kernel
  have loads := Json.ok_of_toOption plain
  have listed : TextSetting.reportsPath.isListedBy (sources file [port]) = true := by decide +kernel
  have name : TextSetting.reportsPath.variableName = "CENSUS__QUEUE__ERRORS_PATH" := by decide +kernel
  obtain ⟨text, -, verbatim, loaded⟩ := @text_given_by_variable .reportsPath "/tmp/errors.jsonl" file [] [port]
    (List.forall_mem_singleton.mpr apart) _ loads
  rw [List.nil_append, List.nil_append, listed, verbatim ⟨'/', by decide, by decide⟩, name] at loaded
  exact ⟨apart, loads, loaded⟩

/-- A host that looks like a number is printed anew, a variable for a list of settings replaces the others in it,
and a later variable for the same setting stays.
-/
theorem text_not_verbatim
    : (load none [("CENSUS__HOST", "007")]).toOption = some { host := "7" }
      ∧ (load (some "queue = [250]") []).toOption = some { queue := { pollSpan := 250 } }
      ∧ (load (some "queue = [250]") [("CENSUS__QUEUE__EVENTS_PATH", "events.jsonl")]).toOption
        = some { queue := { eventsPath := some "events.jsonl" } }
      ∧ (load none [("CENSUS__HOST", "first"), ("census__host", "second")]).toOption
        = some { host := "second" } := by
  decide +kernel

end Settings
end PersonRegistry
