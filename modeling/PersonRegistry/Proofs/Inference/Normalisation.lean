import PersonRegistry.Inference.Exchange
import PersonRegistry.Proofs.Inference.Lookup
import PersonRegistry.Proofs.Json.Skipping
import PersonRegistry.Proofs.Person.Coding

/-! The answers of the services reach the collector of traits unchanged: whatever payload an answer is
brought into can be read, and carries what the body of the answer names.
-/

namespace PersonRegistry.Inference

open Json (Entry Value)
open Text (Octets)
open Time (Span)

/-- What the body of an answer names about a trait, with nothing about the others. -/
inductive Names (body : Octets) : Trait → Enrichment → Prop
  | age {answer : AgeAnswer} {age : Int32}
      (read : Json.decode (Json.record AgeAnswer.layout) body = .ok answer)
      (given : answer.age = some age)
      : Names body .age { age := some age }
  | gender {answer : GenderAnswer} {gender : String}
      (read : Json.decode (Json.record GenderAnswer.layout) body = .ok answer)
      (given : answer.gender = some gender)
      : Names body .gender { gender := some gender }
  | nationality {answer : NationalityAnswer} {best : Country}
      (read : Json.decode (Json.record NationalityAnswer.layout) body = .ok answer)
      (chosen : Country.likeliest? answer.countries = some best)
      : Names body .nationality { nationality := some best.code }

theorem Names.own {body : Octets} {t : Trait} {e : Enrichment} (names : Names body t e)
    : e.has t = true ∧ e.only t = e := by
  cases names <;> exact ⟨rfl, rfl⟩

/-- A body names one thing at most. -/
theorem Names.unique {body : Octets} {t : Trait} {e other : Enrichment} (names : Names body t e)
    (namesToo : Names body t other)
    : e = other := by
  cases names with
  | age read given =>
      cases namesToo with
      | age readToo givenToo =>
          obtain rfl := Except.ok.inj (read.symm.trans readToo)
          rw [Option.some.inj (given.symm.trans givenToo)]
  | gender read given =>
      cases namesToo with
      | gender readToo givenToo =>
          obtain rfl := Except.ok.inj (read.symm.trans readToo)
          rw [Option.some.inj (given.symm.trans givenToo)]
  | nationality read chosen =>
      cases namesToo with
      | nationality readToo chosenToo =>
          obtain rfl := Except.ok.inj (read.symm.trans readToo)
          rw [Option.some.inj (chosen.symm.trans chosenToo)]

-----------------------------------------------------------------------------------------
-- The members of a payload
-----------------------------------------------------------------------------------------

namespace Payload

/-- A member that the collector has no use for. -/
def foreign (name : String) (value : Value) : Entry Enrichment := ⟨name, value.print, id⟩

theorem taken_foreign {name : String} {value : Value}
    (unknown : Enrichment.layout.member? name = none)
    (passed : ∀ b rest, b = Json.Octet.comma ∨ b = Json.Octet.closeObject →
      Json.skipValue (Text.Utf8.encode value.print ++ b :: rest) = .ok ((), b :: rest))
    : (foreign name value).Taken Enrichment.layout :=
  .inr ⟨unknown, rfl, fun _ => rfl, passed⟩

theorem taken_count (count : Option Nat)
    : (foreign "count" (.ofInteger? (count.map Int.ofNat))).Taken Enrichment.layout := by
  refine taken_foreign rfl fun b rest separator => ?_
  cases count with
  | none => exact Json.skipValue_null _
  | some n => exact Json.skipValue_decimalInteger n (Json.endsNumeral_of_separator separator rest)

theorem taken_name (name : String) : (foreign "name" (.text name)).Taken Enrichment.layout :=
  taken_foreign rfl fun _ _ _ => Json.skipValue_printText name _

/-- A missing probability is null. Any other is written as a number, however large or small it is. -/
theorem taken_probability (probability : Option Binary64)
    : (foreign "probability" ((probability.map Value.float).getD .null)).Taken Enrichment.layout := by
  refine taken_foreign rfl fun b rest separator => ?_
  cases probability with
  | none => exact Json.skipValue_null _
  | some x => exact Json.skipValue_float x (Json.endsNumeral_of_separator separator rest)

/-- A member that the collector keeps. -/
def ownAge (age : Int32) : Entry Enrichment :=
  ⟨"age", (Value.integer age.toInt).print, fun e => { e with age := some age }⟩

def ownGender (gender : String) : Entry Enrichment :=
  ⟨"gender", (Value.text gender).print, fun e => { e with gender := some gender }⟩

def ownNationality (code : String) : Entry Enrichment :=
  ⟨"nationality", (Value.text code).print, fun e => { e with nationality := some code }⟩

theorem taken_ownAge (age : Int32) : (ownAge age).Taken Enrichment.layout :=
  .inl ⟨_, rfl, fun _ rest separator =>
    Json.run_map_ok (Json.orNull_printInt32 age (Json.endsNumeral_of_separator separator rest))⟩

theorem taken_ownGender (gender : String) : (ownGender gender).Taken Enrichment.layout :=
  .inl ⟨_, rfl, fun _ _ _ => Json.run_map_ok (Json.orNull_printText (Json.text_printText gender _))⟩

theorem taken_ownNationality (code : String) : (ownNationality code).Taken Enrichment.layout :=
  .inl ⟨_, rfl, fun _ _ _ => Json.run_map_ok (Json.orNull_printText (Json.text_printText code _))⟩

/-- The printed members of a payload are read as what the kept ones among them make. -/
theorem decode_members (entries : List (Entry Enrichment)) (some : entries ≠ [])
    (taken : ∀ entry ∈ entries, entry.Taken Enrichment.layout)
    (distinct : (entries.map Entry.name).Nodup)
    : Enrichment.decode
        (Text.Utf8.encode (Json.printMembers (entries.map fun entry => (entry.name, entry.text))))
      = .ok (Entry.applyAll entries {}) := by
  have optional : ∀ m ∈ Enrichment.layout.members, m.presence ≠ .required := by decide
  exact Json.decode_printMembers some taken distinct fun m member presence =>
    absurd presence (optional m member)

section

variable (count : Option Nat) (name : String)

theorem decode_age (age : Int32)
    : Enrichment.decode (Text.Utf8.encode
        (Payload.mk .age (.integer age.toInt) none count name).toValue.print)
      = .ok { age := some age } := by
  have sorted : (Payload.mk .age (.integer age.toInt) none count name).toValue
      = .object [("age", .integer age.toInt), ("count", .ofInteger? (count.map Int.ofNat)),
          ("name", .text name)] := by
    simp only [toValue, Trait.text, Option.map_none, Option.toList_none, List.cons_append,
      List.nil_append, Value.ofMembers, List.foldl_cons, List.foldl_nil, Value.put, String.reduceEq,
      String.reduceLT, if_false]
  rw [sorted]
  refine decode_members [ownAge age, foreign "count" _, foreign "name" (.text name)] (by simp) ?_
    (by simp [ownAge, foreign])
  simp only [List.forall_mem_cons]
  exact ⟨taken_ownAge age, taken_count count, taken_name name, List.forall_mem_nil _⟩

theorem decode_gender (gender : String) (probability : Option Binary64)
    : Enrichment.decode (Text.Utf8.encode (Payload.mk .gender (.text gender)
        (some ((probability.map Value.float).getD .null)) count name).toValue.print)
      = .ok { gender := some gender } := by
  have sorted (probability : Value)
      : (Payload.mk .gender (.text gender) (some probability) count name).toValue
        = .object [("count", .ofInteger? (count.map Int.ofNat)), ("gender", .text gender),
            ("name", .text name), ("probability", probability)] := by
    simp only [toValue, Trait.text, Option.map_some, Option.toList_some, List.cons_append,
      List.nil_append, Value.ofMembers, List.foldl_cons, List.foldl_nil, Value.put, String.reduceEq,
      String.reduceLT, if_true, if_false]
  rw [sorted]
  refine decode_members [foreign "count" _, ownGender gender, foreign "name" (.text name),
    foreign "probability" _] (by simp) ?_ (by simp [ownGender, foreign])
  simp only [List.forall_mem_cons]
  exact ⟨taken_count count, taken_ownGender gender, taken_name name, taken_probability probability,
    List.forall_mem_nil _⟩

theorem toValue_nationality (code : String) (probability : Value)
    : (Payload.mk .nationality (.text code) (some probability) count name).toValue
      = .object [("count", .ofInteger? (count.map Int.ofNat)), ("name", .text name),
          ("nationality", .text code), ("probability", probability)] := by
  simp only [toValue, Trait.text, Option.map_some, Option.toList_some, List.cons_append,
    List.nil_append, Value.ofMembers, List.foldl_cons, List.foldl_nil, Value.put, String.reduceEq,
    String.reduceLT, if_true, if_false]

theorem decode_nationality (code : String) (probability : Binary64)
    : Enrichment.decode (Text.Utf8.encode (Payload.mk .nationality (.text code)
        (some (.float probability)) count name).toValue.print)
      = .ok { nationality := some code } := by
  rw [toValue_nationality]
  refine decode_members [foreign "count" _, foreign "name" (.text name), ownNationality code,
    foreign "probability" (.float probability)] (by simp) ?_ (by simp [ownNationality, foreign])
  simp only [List.forall_mem_cons]
  exact ⟨taken_count count, taken_name name, taken_ownNationality code,
    taken_probability (some probability), List.forall_mem_nil _⟩

end

end Payload

-----------------------------------------------------------------------------------------
-- Answers and lookups
-----------------------------------------------------------------------------------------

variable {t : Trait} {name : String} {body octets : Octets}

/-- The payload of an answer is made from what the body names, and then carries it. By cases on the
trait.
-/
theorem decode_of_payload {found : Payload} (answers : payload t name body = .ok found)
    : ∃ e, Names body t e
      ∧ Enrichment.decode (Text.Utf8.encode found.toValue.print) = .ok e := by
  cases t with
  | age =>
      simp only [payload] at answers
      split at answers
      next => cases answers
      next answer read =>
        split at answers
        next => cases answers
        next age given =>
          obtain rfl := Except.ok.inj answers
          exact ⟨_, .age read given, Payload.decode_age _ _ age⟩
  | gender =>
      simp only [payload] at answers
      split at answers
      next => cases answers
      next answer read =>
        split at answers
        next => cases answers
        next gender given =>
          obtain rfl := Except.ok.inj answers
          exact ⟨_, .gender read given, Payload.decode_gender _ _ gender _⟩
  | nationality =>
      simp only [payload] at answers
      split at answers
      next => cases answers
      next answer read =>
        split at answers
        next => cases answers
        next best chosen =>
          obtain rfl := Except.ok.inj answers
          exact ⟨_, .nationality read chosen, Payload.decode_nationality _ _ best.code _⟩

theorem payload_of_names {e : Enrichment} (names : Names body t e)
    : ∃ found, payload t name body = .ok found := by
  cases names with
  | age read given => exact ⟨_, by simp only [payload, read, given]; rfl⟩
  | gender read given => exact ⟨_, by simp only [payload, read, given]; rfl⟩
  | nationality read chosen => exact ⟨_, by simp only [payload, read, chosen]; rfl⟩

theorem normalise_eq_ok
    : normalise t name body = .ok octets
      ↔ ∃ found, payload t name body = .ok found
        ∧ octets = Text.Utf8.encode found.toValue.print := by
  rw [normalise]
  cases payload t name body with
  | error cause => simp
  | ok found => simp [eq_comm]

/-- The collector takes the payload of an answer as what the body names. -/
theorem traitOf_of_normalise (normalised : normalise t name body = .ok octets)
    : ∃ e, Names body t e ∧ traitOf t octets = .ok e := by
  obtain ⟨found, answers, rfl⟩ := normalise_eq_ok.mp normalised
  obtain ⟨e, names, decoded⟩ := decode_of_payload answers
  obtain ⟨has, own⟩ := names.own
  refine ⟨e, names, ?_⟩
  simp only [traitOf, decoded, own, has, if_true]

/-- What a service answered to a request is collected as what the body of the answer names. -/
theorem traitOf_of_fetch {connect : String → Option Answer} {endpoint : String}
    (fetched : fetch connect t endpoint name = .ok octets)
    : ∃ answer e, connect (requestAddress endpoint name) = some answer ∧ Names answer.body t e
      ∧ traitOf t octets = .ok e := by
  rw [fetch] at fetched
  split at fetched
  next => cases fetched
  next =>
    split at fetched
    next => cases fetched
    next answer answered =>
      rw [Answer.outcome] at fetched
      split at fetched
      next =>
        obtain ⟨e, names, carried⟩ := traitOf_of_normalise fetched
        exact ⟨answer, e, answered, names, carried⟩
      next => cases fetched

section

variable {connect : String → Option Answer} {endpoint : String} {delay : Span}

/-- A reply to a request is taken as what the body of the answer names. -/
theorem names_of_taken {e : Enrichment}
    (taken : Reply.taken t ⟨delay, fetch connect t endpoint name⟩ = .ok e)
    : ∃ answer, connect (requestAddress endpoint name) = some answer ∧ Names answer.body t e := by
  cases fetched : fetch connect t endpoint name with
  | error failure =>
      simp only [Reply.taken, fetched] at taken
      cases taken
  | ok octets =>
      obtain ⟨answer, found, answered, names, carried⟩ := traitOf_of_fetch fetched
      simp only [Reply.taken, fetched, carried] at taken
      exact ⟨answer, answered, Except.ok.inj taken ▸ names⟩

/-- If a reply to a request is not taken, the request itself has failed. -/
theorem failed_of_taken {stop : Stop}
    (taken : Reply.taken t ⟨delay, fetch connect t endpoint name⟩ = .error stop)
    : ∃ failure, stop = .failed failure := by
  cases fetched : fetch connect t endpoint name with
  | error failure =>
      simp only [Reply.taken, fetched] at taken
      exact ⟨failure, (Except.error.inj taken).symm⟩
  | ok octets =>
      obtain ⟨-, e, -, -, carried⟩ := traitOf_of_fetch fetched
      simp only [Reply.taken, fetched, carried] at taken
      cases taken

end

section

variable (deadline : Span) (delay : Trait → Span) (connect : Trait → String → Option Answer)
  (endpoint : Trait → String) (name : String)

/-- What each service replies when it is asked over the web. -/
def webReplies (t : Trait) : Reply := ⟨delay t, fetch (connect t) t (endpoint t) name⟩

/-- A lookup over the web collects what the bodies of the answers name. If it stops, it does so because a
request failed or at the deadline.
-/
theorem lookUp_web
    : match (lookUp deadline (webReplies delay connect endpoint name) name).result with
      | .ok e => ∀ t, ∃ answer, connect t (requestAddress (endpoint t) name) = some answer
          ∧ Names answer.body t (e.only t)
      | .error e => (∃ failure, e.stop = .failed failure) ∨ e.stop = .timeout deadline := by
  obtain ⟨ending, -⟩ := lookUp_ending deadline (webReplies delay connect endpoint name) name
  cases ending with
  | complete e result all =>
      rw [result]
      exact fun t => names_of_taken (Reply.taken_eq_ok.mpr (all t).2)
  | failed t stop collected result first fails =>
      rw [result]
      exact .inl (failed_of_taken fails)
  | timeout collected result =>
      rw [result]
      exact .inr rfl

end

/-- Whatever the body of an answer is, the payload made from it is collected as what the body names: the
age, the gender or the code of the likeliest country, and nothing else. A payload is made exactly if the
body names something. So a lookup that asks the services over the web never stops at a payload of no
use, and what it collects is what the bodies of the answers named.
-/
theorem normalise_collected (name : String)
    : (∀ t body octets, normalise t name body = .ok octets →
        ∃ e, Names body t e ∧ traitOf t octets = .ok e)
      ∧ (∀ t body, (∃ octets, normalise t name body = .ok octets) ↔ ∃ e, Names body t e)
      ∧ ∀ deadline delay connect endpoint,
        let result := (lookUp deadline (webReplies delay connect endpoint name) name).result
        (∀ e t flaw, result = .error e → e.stop ≠ .unusable t flaw)
          ∧ ∀ e, result = .ok e →
              ∀ t, ∃ answer, connect t (requestAddress (endpoint t) name) = some answer
                ∧ Names answer.body t (e.only t) := by
  refine ⟨fun t body octets => traitOf_of_normalise, fun t body => ⟨?_, ?_⟩,
    fun deadline delay connect endpoint => ?_⟩
  · rintro ⟨octets, normalised⟩
    obtain ⟨e, names, -⟩ := traitOf_of_normalise normalised
    exact ⟨e, names⟩
  · rintro ⟨e, names⟩
    obtain ⟨found, answers⟩ := payload_of_names names
    exact ⟨_, normalise_eq_ok.mpr ⟨found, answers, rfl⟩⟩
  · have ending := lookUp_web deadline delay connect endpoint name
    refine ⟨fun e t flaw error => ?_, fun e ok => ?_⟩
    · rw [error] at ending
      rcases ending with ⟨failure, stop⟩ | stop <;> rw [stop] <;> exact Stop.noConfusion
    · rw [ok] at ending
      exact ending

/-- The body may be a list, with numbers as large and as small as they come. -/
theorem normalise_collected_list
    : let body := Text.Utf8.encode "[3,null,[[\"PL\",1.7e308],[\"DE\",5e-324]]]".toList
      ∃ octets, normalise .nationality "Ann" body = .ok octets
        ∧ traitOf .nationality octets = .ok { nationality := some "PL" } := by
  intro body
  obtain ⟨carries, answers, -⟩ := normalise_collected "Ann"
  have chosen : ((Json.decode (Json.record NationalityAnswer.layout) body).toOption.bind
      fun answer => Country.likeliest? answer.countries).map Country.code = some "PL" := by
    decide +kernel
  have names : Names body .nationality { nationality := some "PL" } := by
    cases read : Json.decode (Json.record NationalityAnswer.layout) body with
    | error e =>
        rw [read] at chosen
        cases chosen
    | ok answer =>
        rw [read] at chosen
        obtain ⟨best, likeliest, code⟩ := Option.map_eq_some_iff.mp chosen
        exact code ▸ .nationality read likeliest
  obtain ⟨octets, normalised⟩ := (answers .nationality body).mpr ⟨_, names⟩
  obtain ⟨e, namesToo, carried⟩ := carries _ _ _ normalised
  exact ⟨octets, normalised, names.unique namesToo ▸ carried⟩

end PersonRegistry.Inference
