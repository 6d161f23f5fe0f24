import PersonRegistry.Proofs.Json.DecodedValues
import PersonRegistry.Queue.Report

/-! The report about a rejected message is read back as an object of the message and the error, unless the
message is nested as deep as a text may be.
-/

namespace PersonRegistry.Queue

open Json (Value)
open Text (Octets)

-----------------------------------------------------------------------------------------
-- Any report
-----------------------------------------------------------------------------------------

/-- A report as it is read back, with its members in order. -/
def Report.reread (report : Report) : Value :=
  .object [("error", .text report.error), ("meta", report.message.reread)]

/-- A report is read back, unless its message is nested so deep that the report is beyond the limit. -/
theorem Report.decode_encode (report : Report) (wellFormed : report.message.WellFormed)
    : if report.message.depth < Json.depthLimit then
        Json.decode Json.value report.encode = .ok report.reread
      else ∃ e, Json.decode Json.value report.encode = .error e ∧ e.cause = .nestedTooDeep := by
  have parts : Value.MembersWellFormed [("meta", report.message), ("error", .text report.error)] :=
    ⟨wellFormed, trivial, trivial⟩
  have members := Json.decode_value_object parts
  have deepest : Value.depthOfMembers [("meta", report.message), ("error", .text report.error)]
      = report.message.depth := Nat.max_zero _
  have other : "error" ≠ "meta" := by decide
  have before : "error" < "meta" := by decide
  have ordered : Value.ofMembers
        (Value.rereadMembers [("meta", report.message), ("error", .text report.error)])
      = report.reread := by
    simp only [Value.ofMembers, Value.rereadMembers, Value.reread, List.foldl_cons, List.foldl_nil,
      Value.put, if_neg other, if_pos before, Report.reread]
  rw [deepest, ordered] at members
  exact members

theorem Report.valueOf_wellFormed (message : Octets) : (Report.valueOf message).WellFormed := by
  rw [Report.valueOf]
  split
  next value decodes => exact Json.wellFormed_of_decode decodes
  next => trivial

/-- The report about a message that is decoded holds the decoded value. -/
theorem Report.decode_of {message : Octets} {value : Value} (rejection : Rejection)
    (decodes : Json.decode Json.value message = .ok value)
    : if value.depth < Json.depthLimit then
        Json.decode Json.value (Report.of message rejection).encode
          = .ok (.object [("error", .text rejection.message), ("meta", value.reread)])
      else
        ∃ e, Json.decode Json.value (Report.of message rejection).encode = .error e
          ∧ e.cause = .nestedTooDeep := by
  have read := decode_encode (Report.of message rejection) (valueOf_wellFormed message)
  have held : (Report.of message rejection).message = value := by
    rw [Report.of, Report.valueOf, decodes]
  rw [Report.reread, held] at read
  exact read

/-- The report about any other message holds its text. -/
theorem Report.decode_of_error {message : Octets} {error : Json.DecodeError} (rejection : Rejection)
    (fails : Json.decode Json.value message = .error error)
    : Json.decode Json.value (Report.of message rejection).encode
      = .ok (.object
          [("error", .text rejection.message),
            ("meta", .text (String.ofList (Text.Utf8.lossy message)))]) := by
  have read := decode_encode (Report.of message rejection) (valueOf_wellFormed message)
  have held : (Report.of message rejection).message = .text (String.ofList (Text.Utf8.lossy message)) := by
    rw [Report.of, Report.valueOf, fails]
  have shallow : (Report.of message rejection).message.depth < Json.depthLimit := by
    rw [held]
    exact (by decide : 0 < Json.depthLimit)
  rw [if_pos shallow, Report.reread, held] at read
  exact read

-----------------------------------------------------------------------------------------
-- Reports about messages
-----------------------------------------------------------------------------------------

/-- The report about a message is read back as an object of the error's text and the message: the value
that the message is decoded to, with its floating-point numbers reread, or else its text. Nothing changes if
these have short texts. Only a message nested as deep as a text may be is refused, since the report nests it
once more.
-/
theorem report_read_back (message : Octets) (rejection : Rejection)
    : let decoded := Json.decode Json.value (Report.of message rejection).encode
      match Json.decode Json.value message with
      | .ok value =>
          if value.depth < Json.depthLimit then
            decoded = .ok (.object [("error", .text rejection.message), ("meta", value.reread)])
              ∧ (value.IsShort → value.reread = value)
          else ∃ e, decoded = .error e ∧ e.cause = .nestedTooDeep
      | .error _ =>
          decoded = .ok (.object
            [("error", .text rejection.message),
              ("meta", .text (String.ofList (Text.Utf8.lossy message)))]) := by
  cases decoded : Json.decode Json.value message with
  | ok value =>
      have read := Report.decode_of rejection decoded
      simp only
      split at read
      next within =>
        rw [if_pos within]
        exact ⟨read, value.reread_eq_self⟩
      next beyond =>
        rw [if_neg beyond]
        exact read
  | error e => exact Report.decode_of_error rejection decoded

/-- Lists in one another, as many as a text may have. -/
def deepest : Octets :=
  Text.Utf8.encode (List.replicate Json.depthLimit '[' ++ List.replicate Json.depthLimit ']')

/-- A number with a digit too many. -/
def longDecimal : Octets := Text.Utf8.encode "92.145034759186930".toList

/-- A message may be decoded though the report about it is not, and what is read back of it may be another
number.
-/
theorem report_not_read_back
    : (∃ value, Json.decode Json.value deepest = .ok value
        ∧ ∀ rejection, ∃ e, Json.decode Json.value (Report.of deepest rejection).encode = .error e)
      ∧ ∃ value other, other ≠ value ∧ Json.decode Json.value longDecimal = .ok value
        ∧ ∀ rejection, Json.decode Json.value (Report.of longDecimal rejection).encode
          = .ok (.object [("error", .text rejection.message), ("meta", other)]) := by
  constructor
  · have depth : (Json.decode Json.value deepest).toOption.map Value.depth = some Json.depthLimit := by
      decide +kernel
    cases decodes : Json.decode Json.value deepest with
    | error e =>
        rw [decodes] at depth
        cases depth
    | ok value =>
        rw [decodes] at depth
        have limit : value.depth = Json.depthLimit := Option.some.inj depth
        refine ⟨value, rfl, fun rejection => ?_⟩
        have read := Report.decode_of rejection decodes
        rw [if_neg (Nat.not_lt.mpr (Nat.le_of_eq limit.symm))] at read
        exact read.imp fun e fails => fails.1
  · have alters : (Json.decode Json.value longDecimal).toOption.map
        (fun value => (value.depth, decide (value.reread.print = value.print))) = some (0, false) := by
      decide +kernel
    cases decodes : Json.decode Json.value longDecimal with
    | error e =>
        rw [decodes] at alters
        cases alters
    | ok value =>
        rw [decodes] at alters
        obtain ⟨flat, differs⟩ := Prod.mk.inj (Option.some.inj alters)
        have other : value.reread ≠ value := fun same => of_decide_eq_false differs (by rw [same])
        refine ⟨value, value.reread, other, rfl, fun rejection => ?_⟩
        have shallow : value.depth < Json.depthLimit := by
          rw [flat]
          decide
        have read := Report.decode_of rejection decodes
        rwa [if_pos shallow] at read

end PersonRegistry.Queue
