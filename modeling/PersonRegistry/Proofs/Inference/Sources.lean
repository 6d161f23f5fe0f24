import PersonRegistry.Inference.Exchange
import PersonRegistry.Proofs.Inference.Lookup
import PersonRegistry.Proofs.Inference.Quotas

/-! Where the replies of a lookup come from, and what the headers of answers amount to: only a refusal tells
a quota, and it counts only if it ended the lookup.
-/

namespace PersonRegistry.Inference

open Text (Octets)
open Time (Span)

-----------------------------------------------------------------------------------------
-- Services and stand-ins
-----------------------------------------------------------------------------------------

/-- Who gives the payload of a trait: a service that is asked over the web, or a stand-in that has it at
hand.
-/
inductive Source
  | web (endpoint : String) (connect : String → Option Answer)
  | standIn (payload : Octets)

namespace Source

def outcome (t : Trait) (name : String) : Source → Except Failure Octets
  | .web endpoint connect => fetch connect t endpoint name
  | .standIn payload => .ok payload

/-- The answer about a name, if it is a refusal: its status is none of success. -/
def refusal? (name : String) : Source → Option Answer
  | .web endpoint connect => (connect (requestAddress endpoint name)).filter fun a => !a.isSuccess
  | .standIn _ => none

/-- The source with answers that come without headers. -/
def bare : Source → Source
  | .web endpoint connect =>
      .web endpoint fun address => (connect address).map fun a => { a with headers := [] }
  | .standIn payload => .standIn payload

variable {s other : Source} {t : Trait} {name : String}

theorem outcome_refused {answer : Answer} (named : name ≠ "") (refused : s.refusal? name = some answer)
    : s.outcome t name
      = .error ⟨t, .status answer.status answer.refusalMessage (RateLimit.ofHeaders? answer.headers)⟩ := by
  cases s with
  | standIn => cases refused
  | web endpoint connect =>
      obtain ⟨answers, fails⟩ := Option.filter_eq_some_iff.mp refused
      simp only [Bool.not_eq_true'] at fails
      rw [outcome, fetch, if_neg named, answers]
      simp only [Answer.outcome, fails, Bool.false_eq_true, if_false]

/-- A body that makes no payload is malformed, or tells nothing about the name. -/
theorem cause_of_payload {answer : Octets} {cause : Cause} (spoils : payload t name answer = .error cause)
    : (∃ error, cause = .malformed error) ∨ cause = .unknownName name := by
  cases t
  all_goals
    rw [payload] at spoils
    split at spoils
    next error _ => exact .inl ⟨error, (Except.error.inj spoils).symm⟩
    next =>
      split at spoils
      next => exact .inr (Except.error.inj spoils).symm
      next => cases spoils

theorem quota?_of_normalise {answer : Octets} {failure : Failure}
    (fails : normalise t name answer = .error failure)
    : failure.trait = t ∧ failure.quota? = none := by
  rw [normalise] at fails
  split at fails
  next => cases fails
  next cause spoils =>
    obtain rfl := Except.error.inj fails
    rcases cause_of_payload spoils with ⟨error, rfl⟩ | rfl
    · exact ⟨rfl, rfl⟩
    · exact ⟨rfl, rfl⟩

/-- Whatever else makes a source fail tells no quota. -/
theorem quota?_of_not_refused (named : name ≠ "") (accepted : s.refusal? name = none) {failure : Failure}
    (fails : s.outcome t name = .error failure)
    : failure.trait = t ∧ failure.quota? = none := by
  cases s with
  | standIn => cases fails
  | web endpoint connect =>
      rw [outcome, fetch, if_neg named] at fails
      cases answers : connect (requestAddress endpoint name) with
      | none =>
          rw [answers] at fails
          obtain rfl := Except.error.inj fails
          exact ⟨rfl, rfl⟩
      | some answer =>
          have success : answer.isSuccess = true := by
            simpa [refusal?, answers] using accepted
          rw [answers] at fails
          simp only [Answer.outcome, success, if_true] at fails
          exact quota?_of_normalise fails

/-- A lookup that a source ended was ended by its service, with the quota that its refusal told, if it was
a refusal that told one. By cases on what the source gave.
-/
theorem quota?_of_taken (named : name ≠ "") {delay : Span} {stop : Stop} (collected : Enrichment)
    (fails : (Reply.mk delay (s.outcome t name)).taken t = .error stop)
    : let e : LookupError := ⟨name, stop, collected⟩
      e.isTimeout = false ∧ e.trait? = some t
        ∧ e.quota? = (s.refusal? name).bind fun a => RateLimit.ofHeaders? a.headers := by
  rw [Reply.taken] at fails
  split at fails
  next failure failed =>
    obtain rfl := Except.error.inj fails
    cases refused : s.refusal? name with
    | some answer =>
        obtain rfl := Except.error.inj (failed.symm.trans (outcome_refused named refused))
        exact ⟨rfl, rfl, rfl⟩
    | none =>
        obtain ⟨own, none⟩ := quota?_of_not_refused named refused failed
        exact ⟨rfl, congrArg some own, none⟩
  next payload given =>
    have accepted : s.refusal? name = none := by
      cases refused : s.refusal? name with
      | none => rfl
      | some answer =>
          have failed := outcome_refused (t := t) named refused
          cases given.symm.trans failed
    cases flawed : traitOf t payload with
    | ok => rw [flawed] at fails; cases fails
    | error flaw =>
        rw [flawed] at fails
        obtain rfl := Except.error.inj fails
        rw [accepted]
        exact ⟨rfl, rfl, rfl⟩

/-- Headers make no difference to a payload, and none to whether there is one. -/
theorem toOption_outcome_bare (s : Source) (t : Trait) (name : String)
    : (s.bare.outcome t name).toOption = (s.outcome t name).toOption := by
  cases s with
  | standIn => rfl
  | web endpoint connect =>
      rw [bare, outcome, outcome, fetch, fetch]
      split
      next => rfl
      next =>
        cases connect (requestAddress endpoint name) with
        | none => rfl
        | some answer =>
            have same : ({ answer with headers := [] } : Answer).isSuccess = answer.isSuccess := rfl
            rw [Option.map_some]
            simp only [Answer.outcome, same]
            cases answer.isSuccess <;> rfl

end Source

-----------------------------------------------------------------------------------------
-- Lookups that differ in headers
-----------------------------------------------------------------------------------------

/-- The replies of sources that take their time. -/
def repliesOf (delays : Trait → Span) (sources : Trait → Source) (name : String) (t : Trait) : Reply :=
  ⟨delays t, (sources t).outcome t name⟩

namespace Reply

variable {left right : Reply} {t : Trait} {found other : Enrichment}

theorem brings_congr (same : left.outcome.toOption = right.outcome.toOption)
    : left.Brings t found ↔ right.Brings t found := by
  have alike (payload : Octets) : left.outcome = .ok payload ↔ right.outcome = .ok payload := by
    cases first : left.outcome <;> cases second : right.outcome <;> simp_all [Except.toOption]
  simp only [Brings, alike]

theorem Brings.unique (brings : left.Brings t found) (bringsToo : left.Brings t other)
    : found = other :=
  Except.ok.inj ((taken_eq_ok.mpr brings).symm.trans (taken_eq_ok.mpr bringsToo))

end Reply

theorem Enrichment.ext_only {e other : Enrichment} (same : ∀ t, e.only t = other.only t) : e = other := by
  have age := congrArg Enrichment.age (same .age)
  have gender := congrArg Enrichment.gender (same .gender)
  have nationality := congrArg Enrichment.nationality (same .nationality)
  cases e
  cases other
  simp_all [only]

section Lookups

variable {deadline : Span} {replies others : Trait → Reply} {t u : Trait} {e other : Enrichment}
  {holds : Trait → Prop}

/-- Nothing but the traits that hold determines what was collected. -/
theorem Enrichment.ConsistsOf.unique (consists : e.ConsistsOf replies holds)
    (consistsToo : other.ConsistsOf replies holds)
    : e = other := by
  refine ext_only fun t => ?_
  by_cases held : holds t
  · exact ((consists t).1 held).unique ((consistsToo t).1 held)
  · exact ((consists t).2 held).trans ((consistsToo t).2 held).symm

theorem Enrichment.ConsistsOf.mem_missing (consists : e.ConsistsOf replies holds)
    : t ∈ e.missing ↔ ¬holds t := by
  rw [Enrichment.mem_missing]
  constructor
  · intro lacks held
    have has := ((consists t).1 held).own.1
    rw [has_only, lacks] at has
    cases has
  · exact fun without => not_has_blank ((consists t).2 without)

theorem FirstFailure.unique (first : FirstFailure deadline replies t)
    (firstToo : FirstFailure deadline replies u)
    : t = u := by
  rcases first.first u firstToo.timely firstToo.fails with same | before
  · exact same.symm
  rcases firstToo.first t first.timely first.fails with same | after
  · exact same
  · exact absurd after before.asymm

/-- Replies that take the same time and bring the same. -/
structure BringAlike (replies others : Trait → Reply) : Prop where
  delay : ∀ t, (others t).delay = (replies t).delay
  brings : ∀ t found, (others t).Brings t found ↔ (replies t).Brings t found

namespace BringAlike

variable (alike : BringAlike replies others)
include alike

theorem before : Before others t u ↔ Before replies t u := by
  simp only [Before, alike.delay]

theorem succeeds : Succeeds others t ↔ Succeeds replies t := by
  simp only [Succeeds, alike.brings]

theorem firstFailure (first : FirstFailure deadline replies t) : FirstFailure deadline others t := by
  refine ⟨alike.delay t ▸ first.timely, fun succeeds => first.fails (alike.succeeds.mp succeeds), ?_⟩
  intro u timely fails
  have before := first.first u (alike.delay u ▸ timely) fun succeeds => fails (alike.succeeds.mpr succeeds)
  exact before.imp_right alike.before.mpr

theorem consistsOf : e.ConsistsOf others holds ↔ e.ConsistsOf replies holds := by
  simp only [Enrichment.ConsistsOf, alike.brings]

/-- Lookups whose replies bring the same, and are taken for the same where the first one fails, come to the
same result. By cases on how they end.
-/
theorem result (first : ∀ t, FirstFailure deadline replies t → (others t).taken t = (replies t).taken t)
    (name : String)
    : (lookUp deadline others name).result = (lookUp deadline replies name).result := by
  obtain ⟨succeed, complete, fail, late, -⟩ := lookUp_outcome deadline replies name
  obtain ⟨succeedToo, completeToo, failToo, lateToo, -⟩ := lookUp_outcome deadline others name
  by_cases failing : ∃ t, (replies t).delay ≤ deadline ∧ ¬Succeeds replies t
  · obtain ⟨t, stop, collected, own, taken, result, consists, -⟩ := fail failing
    have failingToo : ∃ t, (others t).delay ≤ deadline ∧ ¬Succeeds others t :=
      ⟨t, (alike.firstFailure own).timely, (alike.firstFailure own).fails⟩
    obtain ⟨u, stopToo, collectedToo, ownToo, takenToo, resultToo, consistsToo, -⟩ := failToo failingToo
    obtain rfl : t = u := (alike.firstFailure own).unique ownToo
    obtain rfl : stop = stopToo :=
      Except.error.inj ((first t own ▸ taken).symm.trans takenToo)
    have before (u : Trait) : Before others u t ↔ Before replies u t := alike.before
    have same : collected = collectedToo :=
      consists.unique (alike.consistsOf.mp (consistsToo.congr before))
    rw [result, resultToo, same]
  · have succeeds : ∀ t, (replies t).delay ≤ deadline → Succeeds replies t :=
      fun t timely => Classical.byContradiction fun fails => failing ⟨t, timely, fails⟩
    have succeedsToo : ∀ t, (others t).delay ≤ deadline → Succeeds others t :=
      fun t timely => alike.succeeds.mpr (succeeds t (alike.delay t ▸ timely))
    by_cases timely : ∀ t, (replies t).delay ≤ deadline
    · obtain ⟨e, result⟩ := succeed.mpr fun t => ⟨timely t, succeeds t (timely t)⟩
      have timelyToo (t : Trait) : (others t).delay ≤ deadline := alike.delay t ▸ timely t
      obtain ⟨other, resultToo⟩ := succeedToo.mpr fun t => ⟨timelyToo t, succeedsToo t (timelyToo t)⟩
      have same : e = other := Enrichment.ext_only fun t =>
        (complete e result t).2.unique ((alike.brings t _).mp (completeToo other resultToo t).2)
      rw [result, resultToo, same]
    · obtain ⟨t, untimely⟩ := Classical.not_forall.mp timely
      have beyond : deadline < (replies t).delay := Nat.lt_of_not_le untimely
      obtain ⟨collected, result, consists, -⟩ := late succeeds ⟨t, beyond⟩
      obtain ⟨collectedToo, resultToo, consistsToo, -⟩ :=
        lateToo succeedsToo ⟨t, (alike.delay t).symm ▸ beyond⟩
      have by_ (u : Trait) : (others u).delay ≤ deadline ↔ (replies u).delay ≤ deadline := by
        rw [alike.delay]
      have same : collected = collectedToo :=
        consists.unique (alike.consistsOf.mp (consistsToo.congr by_))
      rw [result, resultToo, same]

end BringAlike

/-- Headers of answers make no difference to a lookup, unless they came with the reply that ended it. -/
theorem result_congr_headers {sources others : Trait → Source} {delays : Trait → Span} {name : String}
    (alike : ∀ t, (others t).bare = (sources t).bare)
    (first : ∀ t, FirstFailure deadline (repliesOf delays sources name) t → others t = sources t)
    : (lookUp deadline (repliesOf delays others name) name).result
      = (lookUp deadline (repliesOf delays sources name) name).result := by
  have bring : BringAlike (repliesOf delays sources name) (repliesOf delays others name) := by
    refine ⟨fun t => rfl, fun t found => Reply.brings_congr ?_⟩
    rw [repliesOf, repliesOf, ← Source.toOption_outcome_bare, alike t, Source.toOption_outcome_bare]
  refine bring.result (fun t own => ?_) name
  rw [repliesOf, repliesOf, first t own]

end Lookups

end PersonRegistry.Inference
