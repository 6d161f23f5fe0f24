import PersonRegistry.Proofs.Inference.Sources
import PersonRegistry.Proofs.Json.ReadingBack
import PersonRegistry.Proofs.Person.Validation
import PersonRegistry.Proofs.Web.Intake

/-! How a request to create a person is answered when the lookup of its name fails: with the service that
failed first, and with the quota that its refusal told. Headers of other answers show nowhere.
-/

namespace PersonRegistry.Web

open Inference (Answer Before FirstFailure LookupError RateLimit Reply Source Succeeds Trait repliesOf)
open Json (Value)
open Service (Backend Program)
open Text (Octets)
open Time (Span)

-----------------------------------------------------------------------------------------
-- Requests whose lookup fails
-----------------------------------------------------------------------------------------

/-- A request asks to create the person of a draft. -/
structure Request.Creates (request : Request) (draft : Draft) : Prop where
  posts : request.method = "POST"
  path : Resource.ofPath? request.target.path = some .persons
  json : (Header.firstText? "content-type" request.headers).any MediaType.isJson = true
  small : request.body.length ≤ bodyLimit
  decodes : Draft.decode request.body = .ok draft

section Requests

variable {b : Backend} {request : Request} {draft : Draft} {e : LookupError}

theorem Request.Creates.respond (creates : request.Creates draft) (span : Span)
    : Web.respond span request = answering (personResponse 201) (Service.create draft) := by
  rw [respond_persons_post span creates.posts creates.path, respondCreate]
  rcases readBody_cases creates.json creates.small with ⟨other, decoded, read⟩ | ⟨error, _, decoded, _⟩
  · obtain rfl := Except.ok.inj (creates.decodes.symm.trans decoded)
    rw [read, reading]
  · cases creates.decodes.symm.trans decoded

/-- A draft in order fails with what its lookup fails with. -/
theorem create_of_lookUp_error (valid : draft.faults = [])
    (fails : (Inference.lookUp b.deadline (b.replies draft.name) draft.name).result = .error e)
    : ((Service.create draft).run Backend.perform b).1 = .error (.lookup e) := by
  have looked : b.perform (.lookUp draft.candidate.name) = (.error e, (b.lookUp draft.name).2) :=
    Prod.ext fails rfl
  rw [Service.create, if_neg (not_not_intro valid), Program.run_ask, looked]
  rfl

theorem run_of_lookUp_error (creates : request.Creates draft) (valid : draft.faults = []) (span : Span)
    (fails : (Inference.lookUp b.deadline (b.replies draft.name) draft.name).result = .error e)
    : (b.run (respond span request)).1 = lookupResponse e := by
  rw [creates.respond span, run_answering, create_of_lookUp_error valid fails]
  rfl

/-- A draft in order has a name to look up. -/
theorem name_ne_of_valid (valid : draft.faults = []) : draft.name ≠ "" := by
  have checks := Faults.ofChecks_eq_nil.mp valid
  have named : checkRequired draft.name = none := checks (.name, _) List.mem_cons_self
  intro empty
  rw [checkRequired, if_pos empty] at named
  cases named

end Requests

-----------------------------------------------------------------------------------------
-- Responses to lookups that failed
-----------------------------------------------------------------------------------------

/-- A quota as clients read it. -/
def quotaValue : Option RateLimit → Value
  | none => .null
  | some quota =>
      .object
        [("limit", .integer quota.limit), ("remaining", .integer quota.remaining),
          ("reset", .integer quota.reset)]

def jsonHeader : Header := .ofText "content-type" "application/json"

/-- The header that says in how many seconds to try again. -/
def retryHeader (seconds : Int) : Header :=
  .ofText "retry-after" (String.ofList (Text.decimalInteger seconds))

/-- The response tells which service failed, what is missing, and the quota of the service if there is one.
Only then it tells when to try again: when the quota is reset, or at once if that is past.
-/
structure TellsFailure (t : Trait) (missing : List Trait) (quota : Option RateLimit)
    (response : Response)
    : Prop where
  status : response.status = 502
  headers : response.headers = jsonHeader :: (quota.map fun q => retryHeader (max q.reset 0)).toList
  body : ∃ error, Json.decode Json.value response.body
    = .ok (.object
        [("api", .text t.service), ("error", .text error), ("missing", traitNames missing),
          ("rate_limit", quotaValue quota)])

/-- The response tells that the lookup took too long, and what is missing. -/
structure TellsTimeout (missing : List Trait) (response : Response) : Prop where
  status : response.status = 504
  headers : response.headers = [jsonHeader]
  body : ∃ error, Json.decode Json.value response.body
    = .ok (.object [("error", .text error), ("missing", traitNames missing)])

section Responses

variable {t : Trait} {quota : Option RateLimit} {e : LookupError}

/-- The names of traits are well formed, have no numbers, and are nested in nothing but their list. -/
theorem traitNames_plain (traits : List Trait)
    : (traitNames traits).WellFormed ∧ (traitNames traits).IsShort ∧ (traitNames traits).depth = 1 := by
  rw [traitNames]
  induction traits with
  | nil => exact ⟨trivial, trivial, rfl⟩
  | cons t rest ih =>
      obtain ⟨wellFormed, short, depth⟩ := ih
      refine ⟨⟨trivial, wellFormed⟩, ⟨trivial, short⟩, ?_⟩
      have flat : (Value.text t.text).depth = 0 := rfl
      rw [Value.depth] at depth ⊢
      rw [List.map_cons, Value.depthOfEach, flat, Nat.zero_max]
      exact depth

/-- The numbers of a quota that headers tell fit those of 64 bits that clients read. -/
theorem quotaValue_plain (told : ∀ q ∈ quota, ∃ headers, q.ToldBy headers)
    : (quotaValue quota).WellFormed ∧ (quotaValue quota).IsShort ∧ (quotaValue quota).depth ≤ 1 := by
  cases quota with
  | none => exact ⟨trivial, trivial, Nat.zero_le 1⟩
  | some q =>
      obtain ⟨headers, limit, remaining, reset⟩ := told q rfl
      have fits {name : String} {n : Int} (tells : RateLimit.Tells headers name n)
          : (Value.integer n).WellFormed := by
        obtain ⟨-, -, -, -, -, -, above, below⟩ := tells
        exact ⟨above, Int.lt_trans below (by decide)⟩
      have ascending : Value.Ascending
          [("limit", .integer q.limit), ("remaining", .integer q.remaining), ("reset", .integer q.reset)] :=
        Value.ascending_of_names ["limit", "remaining", "reset"] rfl (by decide)
      exact ⟨⟨ascending, fits limit, fits remaining, fits reset, trivial⟩, ⟨trivial, trivial, trivial, trivial⟩,
        Nat.le_refl 1⟩

theorem quotaValue_eq (quota : Option RateLimit)
    : (quota.map RateLimit.value).getD .null = quotaValue quota := by
  cases quota with
  | none => rfl
  | some q =>
      simp only [Option.map_some, Option.getD_some, RateLimit.value, Value.ofMembers, List.foldl_cons,
        List.foldl_nil, Value.put, String.reduceEq, String.reduceLT, if_false, quotaValue]

/-- The body of a response is read back as the object of its members in order. -/
theorem decode_body (status : Nat) {members sorted : List (String × Value)}
    (ordered : Value.ofMembers members = .object sorted) (wellFormed : (Value.object sorted).WellFormed)
    (short : Value.MembersShort sorted) (shallow : Value.depthOfMembers sorted < Json.depthLimit)
    : Json.decode Json.value (Response.ofMembers status members).body = .ok (.object sorted) := by
  rw [Response.ofMembers, Response.ofJson, ordered]
  exact Json.decode_object wellFormed short shallow

theorem lookupResponse_failed (inTime : e.isTimeout = false) (failed : e.trait? = some t)
    : lookupResponse e
      = { Response.ofMembers 502
            [("error", .text e.message), ("api", .text t.service), ("missing", traitNames e.missing),
              ("rate_limit", quotaValue e.quota?)] with
          headers := jsonHeader :: (e.quota?.map fun q => retryHeader (max q.reset 0)).toList } := by
  rw [lookupResponse, inTime, failed, quotaValue_eq]
  cases e.quota? <;> rfl

/-- What ended a lookup is told, unless it was the deadline. -/
theorem tellsFailure (inTime : e.isTimeout = false) (failed : e.trait? = some t)
    (told : ∀ q ∈ e.quota?, ∃ headers, q.ToldBy headers)
    : TellsFailure t e.missing e.quota? (lookupResponse e) := by
  rw [lookupResponse_failed inTime failed]
  refine ⟨rfl, rfl, e.message, decode_body 502 ?_ ?_ ?_ ?_⟩
  · simp only [Value.ofMembers, List.foldl_cons, List.foldl_nil, Value.put, String.reduceEq,
      String.reduceLT, if_false, if_true]
  · exact ⟨Value.ascending_of_names ["api", "error", "missing", "rate_limit"] rfl (by decide), trivial,
      trivial, (traitNames_plain _).1, (quotaValue_plain told).1, trivial⟩
  · exact ⟨trivial, trivial, (traitNames_plain _).2.1, (quotaValue_plain told).2.1, trivial⟩
  · have flat := (quotaValue_plain told).2.2
    simp only [Value.depthOfMembers, (traitNames_plain _).2.2, Value.depth, Json.depthLimit]
    omega

theorem tellsTimeout (late : e.isTimeout = true) : TellsTimeout e.missing (lookupResponse e) := by
  rw [lookupResponse, if_pos late]
  refine ⟨rfl, rfl, e.message, decode_body 504 ?_ ?_ ?_ ?_⟩
  · simp only [Value.ofMembers, List.foldl_cons, List.foldl_nil, Value.put, String.reduceEq,
      String.reduceLT, if_false]
  · exact ⟨Value.ascending_of_names ["error", "missing"] rfl (by decide), trivial,
      (traitNames_plain _).1, trivial⟩
  · exact ⟨trivial, (traitNames_plain _).2.1, trivial⟩
  · simp only [Value.depthOfMembers, (traitNames_plain _).2.2, Value.depth, Json.depthLimit]
    omega

end Responses

-----------------------------------------------------------------------------------------
-- What reaches the client
-----------------------------------------------------------------------------------------

section Client

variable {deadline : Span} {delays : Trait → Span} {sources : Trait → Source} {name : String} {t : Trait}

/-- A quota is told just if the lookup was ended by a refusal whose headers tell it. -/
theorem exists_tellsFailure (named : name ≠ "")
    (first : FirstFailure deadline (repliesOf delays sources name) t)
    : ∃ e, (Inference.lookUp deadline (repliesOf delays sources name) name).result = .error e
      ∧ TellsFailure t e.missing e.quota? (lookupResponse e)
      ∧ (∀ u, u ∈ e.missing ↔ ¬Before (repliesOf delays sources name) u t)
      ∧ ∀ q, e.quota? = some q ↔ ∃ answer, (sources t).refusal? name = some answer ∧ q.ToldBy answer.headers := by
  obtain ⟨-, -, fail, -⟩ := Inference.lookUp_outcome deadline (repliesOf delays sources name) name
  obtain ⟨u, stop, collected, own, taken, result, consists, -⟩ := fail ⟨t, first.timely, first.fails⟩
  obtain rfl : u = t := own.unique first
  obtain ⟨inTime, failed, quota⟩ := Source.quota?_of_taken named collected taken
  have told (q : RateLimit) : LookupError.quota? ⟨name, stop, collected⟩ = some q
      ↔ ∃ answer, (sources u).refusal? name = some answer ∧ q.ToldBy answer.headers := by
    rw [quota, Option.bind_eq_some_iff]
    simp only [RateLimit.ofHeaders?_eq_some]
  refine ⟨_, result, tellsFailure inTime failed fun q tells => ?_, fun v => consists.mem_missing, told⟩
  obtain ⟨answer, -, toldBy⟩ := (told q).mp tells
  exact ⟨answer.headers, toldBy⟩

/-- If nothing fails by the deadline, but something is late, the response tells no more than that. -/
theorem exists_tellsTimeout
    (succeed : ∀ t, delays t ≤ deadline → Succeeds (repliesOf delays sources name) t)
    (late : ∃ t, deadline < delays t)
    : ∃ e, (Inference.lookUp deadline (repliesOf delays sources name) name).result = .error e
      ∧ TellsTimeout e.missing (lookupResponse e) ∧ ∀ u, u ∈ e.missing ↔ deadline < delays u := by
  obtain ⟨-, -, -, timeout, -⟩ := Inference.lookUp_outcome deadline (repliesOf delays sources name) name
  obtain ⟨collected, result, consists, -⟩ := timeout succeed late
  exact ⟨_, result, tellsTimeout rfl, fun u => consists.mem_missing.trans Nat.not_le⟩

end Client

/-- A request to create a person whose draft is in order is answered by what fails first in the lookup of the
name. The response names the service, and if it refused the name with headers that tell a quota, it has the
quota, and a header with the seconds until the quota is reset. It has neither after any other failure, nor
when the lookup takes too long. Headers of answers that did not end the lookup make no difference.
-/
theorem refusal_reaches_client (b : Backend) (span : Span) {request : Request} {draft : Draft}
    (creates : request.Creates draft) (valid : draft.faults = []) (delays : Trait → Span)
    (sources : Trait → Source)
    : let response (sources : Trait → Source) : Response :=
        (Backend.run { b with replies := repliesOf delays sources } (respond span request)).1
      let replies := repliesOf delays sources draft.name
      (∀ t, FirstFailure b.deadline replies t →
          ∃ missing quota, TellsFailure t missing quota (response sources)
            ∧ (∀ u, u ∈ missing ↔ ¬Before replies u t)
            ∧ ∀ q, quota = some q ↔
                ∃ answer, (sources t).refusal? draft.name = some answer ∧ q.ToldBy answer.headers)
        ∧ ((∀ t, delays t ≤ b.deadline → Succeeds replies t) → (∃ t, b.deadline < delays t) →
            ∃ missing, TellsTimeout missing (response sources) ∧ ∀ u, u ∈ missing ↔ b.deadline < delays u)
        ∧ ∀ others : Trait → Source, (∀ t, (others t).bare = (sources t).bare) →
            (∀ t, FirstFailure b.deadline replies t → others t = sources t) →
            (∃ t, delays t ≤ b.deadline → ¬Succeeds replies t) →
            response others = response sources := by
  intro response replies
  have failed (sources : Trait → Source) (e : LookupError)
      (fails : (Inference.lookUp b.deadline (repliesOf delays sources draft.name) draft.name).result
        = .error e)
      : response sources = lookupResponse e :=
    run_of_lookUp_error (b := { b with replies := repliesOf delays sources }) creates valid span fails
  refine ⟨fun t first => ?_, fun succeed late => ?_, fun others alike own fails => ?_⟩
  · obtain ⟨e, result, tells, missing, quota⟩ := exists_tellsFailure (name_ne_of_valid valid) first
    rw [failed sources e result]
    exact ⟨e.missing, e.quota?, tells, missing, quota⟩
  · obtain ⟨e, result, tells, missing⟩ := exists_tellsTimeout succeed late
    rw [failed sources e result]
    exact ⟨e.missing, tells, missing⟩
  · obtain ⟨succeeds, -⟩ := Inference.lookUp_outcome b.deadline replies draft.name
    have same := Inference.result_congr_headers alike own
    cases result : (Inference.lookUp b.deadline replies draft.name).result with
    | ok e =>
        obtain ⟨t, fails⟩ := fails
        have all := succeeds.mp ⟨e, result⟩ t
        exact absurd all.2 (fails all.1)
    | error e => rw [failed sources e result, failed others e (same.trans result)]

/-- One service gives a payload, the next one refuses the name and tells its quota, and the last one would
have refused it too, with a quota of its own.
-/
theorem refusal_reaches_client_ada
    : let request : Request :=
        { method := "POST", target := ⟨Resource.personsPath, none⟩
          headers := [.ofText "content-type" "application/json"]
          body := Text.Utf8.ofString "\x7b\"name\":\"Ada\",\"surname\":\"Byron\"\x7d" }
      let draft : Draft := { name := "Ada", surname := "Byron" }
      let answer : Answer :=
        { status := 429
          headers :=
            [.ofText "X-Rate-Limit-Limit" "100", .ofText "x-rate-limit-remaining" " 0",
              .ofText "X-Rate-Limit-Reset" "+1500 ", .ofText "x-rate-limit-reset" "7"]
          body := [] }
      let other : Answer := { answer with headers := answer.headers.take 2 ++ answer.headers.drop 3 }
      let delays : Trait → Span
        | .gender => 1
        | .age => 5
        | .nationality => 9
      let sources : Trait → Source
        | .gender => .standIn (Text.Utf8.ofString "\x7b\"gender\":\"female\"\x7d")
        | .age => .web "https://api.agify.io" fun _ => some answer
        | .nationality => .web "https://api.nationalize.io" fun _ => some other
      let b : Backend := .answering .nil
      request.Creates draft ∧ draft.faults = []
        ∧ FirstFailure b.deadline (repliesOf delays sources draft.name) .age
        ∧ ∃ missing, TellsFailure .age missing (some ⟨100, 0, 1500⟩)
            (Backend.run { b with replies := repliesOf delays sources }
              (respond Service.defaultCacheSpan request)).1 := by
  intro request draft answer other delays sources b
  have creates : request.Creates draft :=
    ⟨rfl, by decide +kernel, by decide +kernel, by decide +kernel, by decide +kernel⟩
  have valid : draft.faults = [] := by decide +kernel
  have succeeds : Succeeds (repliesOf delays sources draft.name) .gender := by
    refine ⟨{ gender := some "female" }, Reply.taken_eq_ok.mp ?_⟩
    decide +kernel
  have refused : (sources .age).refusal? draft.name = some answer := rfl
  have told : RateLimit.ToldBy ⟨100, 0, 1500⟩ answer.headers := by
    refine RateLimit.ofHeaders?_eq_some.mp ?_
    simp only [RateLimit.ofHeaders?, RateLimit.number?, Header.firstText?, Header.first?, Header.isNamed_eq]
    decide +kernel
  have first : FirstFailure b.deadline (repliesOf delays sources draft.name) .age := by
    refine ⟨by decide +kernel, ?_, fun u _ fails => ?_⟩
    · rintro ⟨found, payload, e, given, -⟩
      have failed := Source.outcome_refused (t := .age) (by decide +kernel) refused
      cases failed.symm.trans given
    · cases u with
      | age => exact .inl rfl
      | gender => exact absurd succeeds fails
      | nationality => exact .inr (.inl (by decide +kernel))
  obtain ⟨failure, -⟩ :=
    refusal_reaches_client b Service.defaultCacheSpan creates valid delays sources
  obtain ⟨missing, quota, tells, -, own⟩ := failure .age first
  obtain rfl := (own ⟨100, 0, 1500⟩).mpr ⟨answer, refused, told⟩
  exact ⟨creates, valid, first, missing, tells⟩

end PersonRegistry.Web
