import PersonRegistry.Proofs.Service.Listings
import PersonRegistry.Proofs.Text.Utf8
import PersonRegistry.Web.Api

/-! Listings over the web: how a query is answered, and that a name may be asked for which is too long for
the store.
-/

namespace PersonRegistry.Web

open Service (Backend Program Steps Underway)
open Store (patternLimit searchKey startsAsSeen)
open Text (Octets)
open Time (Span)

-----------------------------------------------------------------------------------------
-- Queries that spell a name as it is
-----------------------------------------------------------------------------------------

theorem percentDecode_plain {octets : Octets} (plain : 0x25 ∉ octets) : percentDecode octets = octets := by
  induction octets with
  | nil => rfl
  | cons b rest ih =>
      obtain ⟨other, plain⟩ := List.ne_and_not_mem_of_not_mem_cons plain
      rw [percentDecode.eq_def]
      split
      next empty => cases empty
      next same => exact absurd (List.cons.inj same).1.symm other
      next same =>
        obtain ⟨rfl, rfl⟩ := List.cons.inj same
        rw [ih plain]

theorem partsAt_of_not_mem {α : Type} [DecidableEq α] {mark : α} {elements : List α}
    (whole : mark ∉ elements)
    : Text.partsAt mark elements = [elements] := by
  induction elements with
  | nil => rfl
  | cons a rest ih =>
      obtain ⟨other, whole⟩ := List.ne_and_not_mem_of_not_mem_cons whole
      rw [Text.partsAt, if_neg other.symm, ih whole]

theorem formDecode_plain {chars : List Char} (noEscape : 0x25 ∉ Text.Utf8.encode chars)
    (noPlus : 0x2b ∉ Text.Utf8.encode chars)
    : formDecode (Text.Utf8.encode chars) = String.ofList chars := by
  have same : (Text.Utf8.encode chars).map (fun b => if b = 0x2b then 0x20 else b)
      = Text.Utf8.encode chars := by
    refine (List.map_congr_left fun b member => if_neg ?_).trans (List.map_id _)
    rintro rfl
    exact noPlus member
  rw [formDecode, same, percentDecode_plain noEscape, Text.Utf8.lossy_encode]

/-- A query that gives a name as it is asks for that name. -/
theorem readFilter_name {chars : List Char} (noEscape : 0x25 ∉ Text.Utf8.encode chars)
    (noPlus : 0x2b ∉ Text.Utf8.encode chars) (whole : 0x26 ∉ Text.Utf8.encode chars)
    : readFilter (some (Text.Utf8.encode ("name=".toList ++ chars)))
      = .ok { name := some (String.ofList chars) } := by
  have octets : Text.Utf8.encode ("name=".toList ++ chars)
      = 0x6e :: 0x61 :: 0x6d :: 0x65 :: 0x3d :: Text.Utf8.encode chars := by
    rw [Text.Utf8.encode_append]
    rfl
  have parts : Text.partsAt 0x26 (Text.Utf8.encode ("name=".toList ++ chars))
      = [Text.Utf8.encode ("name=".toList ++ chars)] := by
    refine partsAt_of_not_mem ?_
    rw [octets]
    simpa using whole
  have fields : formFields (Text.Utf8.encode ("name=".toList ++ chars))
      = [("name", String.ofList chars)] := by
    rw [formFields, parts, octets]
    refine congrArg (fun value => [("name", value)]) (formDecode_plain noEscape noPlus)
  rw [readFilter, Option.getD_some, fields]
  rfl

-----------------------------------------------------------------------------------------
-- Answers to queries
-----------------------------------------------------------------------------------------

variable {b : Backend} {start s : Underway} {request : Request}

/-- The status of a listing: the query cannot be read, the filter is not in order, or the store fails. -/
def listStatus (b : Backend) (query : Option Octets) : Nat :=
  match readFilter query with
  | .error _ => 400
  | .ok filter =>
      if filter.faults ≠ [] then 422
      else if b.table.stalls filter then 500
      else 200

/-- A listing is answered with the result of the service, or with its failure. -/
theorem status_respondList (sound : b.table.Sound) (up : b.isDown .storeList = false)
    (request : Request)
    : (b.run (respondList request)).1.status = listStatus b request.target.query := by
  rw [respondList, listStatus]
  cases read : readFilter request.target.query with
  | error e => rfl
  | ok filter =>
      simp only [answering, Backend.run, Program.run_bind]
      by_cases faultless : filter.faults = []
      · have listed := Backend.run_list_stalls sound up faultless
        rw [Backend.run] at listed
        rw [if_neg (not_not_intro faultless), listed]
        cases b.table.stalls filter <;> rfl
      · rw [if_pos faultless, Service.list, if_pos faultless]
        rfl

theorem respond_persons (get : request.method = "GET")
    (path : Resource.ofPath? request.target.path = some .persons) (span : Span)
    : respond span request = respondList request := by
  rw [respond, path, get]
  rfl

/-- However requests overlap that started on an empty table, a listing in order fails exactly if the trial of
a live person comes to a start that is too long for the store, which no start is that takes less octets in
small letters than the limit. Over the web that failure is a status of 500.
-/
theorem list_fails_iff_stalls (empty : start.backend.table = {}) (idle : start.programs = [])
    (reached : Steps Backend.SameTable start s) (up : s.backend.isDown .storeList = false)
    : (∀ filter : Filter, filter.faults = [] →
        (s.backend.run (Service.list filter)).1
            = (if s.backend.table.stalls filter then .error (.store .patternTooLong)
              else .ok (filter.cut
                (s.backend.table.recorded.live.filter (filter.accepts startsAsSeen))))
          ∧ ((∀ start ∈ filter.starts,
                (Text.Utf8.ofString (searchKey start)).length < patternLimit) →
              s.backend.table.stalls filter = false))
      ∧ ∀ span request, request.method = "GET" →
          Resource.ofPath? request.target.path = some .persons →
          (s.backend.run (respond span request)).1.status
            = listStatus s.backend request.target.query := by
  have sound := Service.sound_of_steps empty idle reached
  refine ⟨fun filter faultless => ⟨Backend.run_list_stalls sound up faultless, fun short => ?_⟩,
    fun span request get path => ?_⟩
  · exact filter.stalls_eq_false faultless short _
  · rw [respond_persons get path]
    exact status_respondList sound up request

/-- A person is listed by the start of her name. -/
theorem list_fails_iff_stalls_short
    : let s := (Underway.mk (.answering .nil) []).served
        (.create { name := "Ada", surname := "Byron" })
      let request : Request :=
        { method := "GET"
          target := ⟨Resource.personsPath, some (Text.Utf8.ofString "name=ad")⟩ }
      (s.backend.run (respond Service.defaultCacheSpan request)).1.status = 200 := by
  intro s request
  have reached : Steps Backend.SameTable ⟨.answering .nil, []⟩ s := Steps.served _ _
  obtain ⟨-, status⟩ := list_fails_iff_stalls rfl rfl reached (by decide +kernel)
  rw [status _ request rfl (by decide +kernel)]
  decide +kernel

/-- A name of fifty thousand letters is asked for where someone is on record. -/
theorem list_fails_iff_stalls_long
    : let s := (Underway.mk (.answering .nil) []).served
        (.create { name := "Ada", surname := "Byron" })
      let name := List.replicate 50000 'a'
      let filter : Filter := { name := some (String.ofList name) }
      let request : Request :=
        { method := "GET"
          target := ⟨Resource.personsPath, some (Text.Utf8.encode ("name=".toList ++ name))⟩ }
      Steps Backend.SameTable ⟨.answering .nil, []⟩ s ∧ filter.faults = []
        ∧ (s.backend.run (Service.list filter)).1 = .error (.store .patternTooLong)
        ∧ (s.backend.run (respond Service.defaultCacheSpan request)).1.status = 500 := by
  intro s name filter request
  have reached : Steps Backend.SameTable ⟨.answering .nil, []⟩ s := Steps.served _ _
  have sound := Service.sound_of_steps rfl rfl reached
  have up : s.backend.isDown .storeList = false := by decide +kernel
  have letters : OnlyLetters (String.ofList name) := by
    intro c member
    rw [String.toList_ofList] at member
    obtain rfl := List.eq_of_mem_replicate member
    decide +kernel
  have faultless : filter.faults = [] :=
    Filter.faults_eq_nil.mpr ⟨rfl, rfl, rfl, letters.checkOptional, rfl, rfl, rfl⟩
  have stalls : s.backend.table.stalls filter = true := by
    have long : patternLimit ≤ (String.ofList name).toList.length := by
      rw [String.toList_ofList, List.length_replicate]
      exact Nat.le_refl _
    rw [Filter.stalls_of_name rfl letters long]
    decide +kernel
  have octets : ∀ b ∈ Text.Utf8.encode name, b = 0x61 := by
    intro b member
    obtain ⟨c, among, here⟩ := List.mem_flatMap.mp member
    obtain rfl := List.eq_of_mem_replicate among
    exact List.mem_singleton.mp here
  have read : readFilter request.target.query = .ok filter := by
    refine readFilter_name ?_ ?_ ?_ <;> exact fun member => absurd (octets _ member) (by decide)
  have listed := Backend.run_list_stalls sound up faultless
  rw [stalls] at listed
  refine ⟨reached, faultless, listed, ?_⟩
  have path : Resource.ofPath? request.target.path = some .persons := by decide +kernel
  rw [respond_persons rfl path, status_respondList sound up, listStatus, read]
  simp only [faultless, stalls, ne_eq, not_true_eq_false, if_false, if_true]

end PersonRegistry.Web
