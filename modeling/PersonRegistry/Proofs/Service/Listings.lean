import PersonRegistry.Proofs.Service.Findability
import PersonRegistry.Proofs.Store.Matching

/-! Listings of the service by filters that are in order. An empty start of a name or a surname asks for
nothing; an empty start of a patronymic drops whoever has none. A listing fails if the trial of a live person
comes to a start that is too long.
-/

namespace PersonRegistry

open Store (isTooLong patternLimit searchKey startPattern)

-----------------------------------------------------------------------------------------
-- Filters in order
-----------------------------------------------------------------------------------------

namespace OnlyLetters

variable {start : String}

/-- There is nothing to escape in the search key of letters. -/
theorem escaped_searchKey (letters : OnlyLetters start)
    : Store.escaped (searchKey start).toList = (searchKey start).toList := by
  have plain : ∀ c ∈ (searchKey start).toList, Store.isSpecial c = false := by
    intro c member
    have other {special : Char} (noLetter : Text.alphabeticRanges.contains special.toNat = false)
        (before : special.toNat < 0x61)
        : decide (c = special) = false := by
      refine decide_eq_false ?_
      rintro rfl
      rcases Text.mem_lowercase member with ⟨old, -⟩ | lowered
      · exact letters.code_ne noLetter c old rfl
      · exact absurd lowered.small (Nat.not_le.mpr before)
    rw [Store.isSpecial, other (by decide +kernel) (by decide), other (by decide +kernel) (by decide),
      other (by decide +kernel) (by decide)]
    rfl
  rw [Store.escaped]
  refine (List.flatMap_congr fun c member => ?_).trans (List.flatMap_singleton' _)
  rw [plain c member]
  rfl

/-- The pattern of letters is as long as their search key, with one octet for what may follow. -/
theorem isTooLong_startPattern (letters : OnlyLetters start)
    : isTooLong (startPattern start)
      = decide (patternLimit ≤ (Text.Utf8.ofString (searchKey start)).length) := by
  have octets : (Text.Utf8.ofString (startPattern start)).length
      = (Text.Utf8.ofString (searchKey start)).length + 1 := by
    rw [startPattern, letters.escaped_searchKey, Text.Utf8.ofString, String.toList_ofList,
      Text.Utf8.encode_append, List.length_append]
    rfl
  rw [isTooLong, octets]
  exact decide_eq_decide.mpr Nat.lt_succ_iff

end OnlyLetters

/-- Another page may be asked for if its size is one of those allowed. -/
theorem Filter.faults_paged {filter : Filter} (faultless : filter.faults = []) {limit : Option Nat}
    (allowed : ∀ size ∈ limit, size ∈ allowedLimits) (offset : Option Nat)
    : (filter.paged limit offset).faults = [] := by
  obtain ⟨age, gender, -, parts⟩ := Filter.faults_eq_nil.mp faultless
  have sized : limit.bind checkLimit = none :=
    Option.bind_eq_none_iff.mpr fun size given => checkLimit_eq_none.mpr (allowed size given)
  exact Filter.faults_eq_nil.mpr ⟨age, gender, sized, parts⟩

/-- An empty start of each name part may be asked for. -/
theorem Filter.faults_name_empty {filter : Filter} (faultless : filter.faults = [])
    : { filter with name := some "" }.faults = [] := by
  obtain ⟨age, gender, limit, -, others⟩ := Filter.faults_eq_nil.mp faultless
  exact Filter.faults_eq_nil.mpr ⟨age, gender, limit, rfl, others⟩

theorem Filter.faults_surname_empty {filter : Filter} (faultless : filter.faults = [])
    : { filter with surname := some "" }.faults = [] := by
  obtain ⟨age, gender, limit, name, nationality, patronymic, -⟩ := Filter.faults_eq_nil.mp faultless
  exact Filter.faults_eq_nil.mpr ⟨age, gender, limit, name, nationality, patronymic, rfl⟩

theorem Filter.faults_patronymic_empty {filter : Filter} (faultless : filter.faults = [])
    : { filter with patronymic := some "" }.faults = [] := by
  obtain ⟨age, gender, limit, name, nationality, -, surname⟩ := Filter.faults_eq_nil.mp faultless
  exact Filter.faults_eq_nil.mpr ⟨age, gender, limit, name, nationality, rfl, surname⟩

/-- Only letters are asked for in name parts. -/
theorem Filter.onlyLetters_of_faults {filter : Filter} (faultless : filter.faults = [])
    : ∀ start ∈ filter.starts, OnlyLetters start := by
  obtain ⟨-, -, -, name, -, patronymic, surname⟩ := Filter.faults_eq_nil.mp faultless
  simp only [starts, List.mem_append, Option.mem_toList]
  rintro start ((given | given) | given)
  · exact .of_checkOptional (given ▸ name)
  · exact .of_checkOptional (given ▸ surname)
  · exact .of_checkOptional (given ▸ patronymic)

/-- No trial stalls if the name parts asked for, in small letters, take less octets than the limit. -/
theorem Filter.stalls_eq_false {filter : Filter} (faultless : filter.faults = [])
    (short : ∀ start ∈ filter.starts, (Text.Utf8.ofString (searchKey start)).length < patternLimit)
    (table : Store.Table)
    : table.stalls filter = false := by
  refine Store.Table.stalls_of_short (fun start asked => ?_) table
  rw [(Filter.onlyLetters_of_faults faultless start asked).isTooLong_startPattern]
  exact decide_eq_false (Nat.not_le.mpr (short start asked))

/-- A name of as many letters as the limit stalls the trial of anyone, since no letter is lost in small
letters and each takes an octet.
-/
theorem Filter.stalls_of_name {filter : Filter} {name : String} (asked : filter.name = some name)
    (letters : OnlyLetters name) (long : patternLimit ≤ name.toList.length) (table : Store.Table)
    : table.stalls filter = !table.recorded.live.isEmpty := by
  refine Store.Table.stalls_of_long asked ?_ table
  have key : name.toList.length ≤ (searchKey name).toList.length := by
    rw [searchKey, Text.lowercase, String.toList_ofList]
    exact Text.length_le_lowercaseAfter [] name.toList
  rw [letters.isTooLong_startPattern]
  exact decide_eq_true (long.trans (key.trans (Text.Utf8.length_le_encode _)))

namespace Service

open Store (Table startsAsSeen)

variable {start s : Underway} {b : Backend} {filter : Filter}

-----------------------------------------------------------------------------------------
-- Answers of the store
-----------------------------------------------------------------------------------------

namespace Backend

/-- What the store answers to a listing. -/
def listed (b : Backend) (filter : Filter) : Except Store.Error (List Person) :=
  if b.isDown .storeList then .error (.down Outage.storeList.text) else b.table.list filter

/-- The persons that a listing finds, whatever page of them is asked for. -/
def matching (b : Backend) (filter : Filter) : Except Error (List Person) :=
  if b.isDown .storeList then .error (.store (.down Outage.storeList.text))
  else (b.table.matching filter).mapError .store

theorem perform_list (b : Backend) (filter : Filter)
    : b.perform (.list filter) = (b.listed filter, b.counted) := by
  rw [listed]
  cases down : b.isDown .storeList with
  | true => exact storeCall_down down
  | false => exact storeCall_up down

/-- A listing in order passes on what the store answers. -/
theorem run_list_listed (faultless : filter.faults = []) (b : Backend)
    : b.run (list filter) = ((b.listed filter).mapError .store, b.counted) := by
  rw [Backend.run, list, if_neg (not_not_intro faultless), Program.run_ask, perform_list]
  cases b.listed filter <;> rfl

/-- On a sound table, a listing in order is a page of the persons that it finds. -/
theorem run_list_matching (sound : b.table.Sound) (faultless : filter.faults = [])
    : b.run (list filter) = ((b.matching filter).map filter.cut, b.counted) := by
  rw [run_list_listed faultless, listed, matching]
  cases b.isDown .storeList with
  | true => rfl
  | false =>
      simp only [Bool.false_eq_true, if_false]
      rw [sound.list_eq_cut (Filter.pageSize_ne_zero faultless)]
      cases b.table.matching filter <;> rfl

theorem matching_paged (b : Backend) (filter : Filter) (limit offset : Option Nat)
    : b.matching (filter.paged limit offset) = b.matching filter := by
  rw [matching, matching, Table.matching_paged]

theorem matching_patronymic_empty (sound : b.table.Sound) (unasked : filter.patronymic = none)
    : b.matching { filter with patronymic := some "" }
      = (b.matching filter).map (List.filter (·.patronymic.isSome)) := by
  rw [matching, matching, sound.matching_patronymic_empty unasked]
  cases b.isDown .storeList with
  | true => rfl
  | false => cases b.table.matching filter <;> rfl

/-- Nobody is dropped for want of a patronymic where all live persons have one. -/
theorem matching_patronymic_all (sound : b.table.Sound) (unasked : filter.patronymic = none)
    (all : ∀ row ∈ b.table.rows, row.isDeleted = false → row.patronymic.isSome = true)
    : b.matching { filter with patronymic := some "" } = b.matching filter := by
  rw [matching_patronymic_empty sound unasked, matching]
  cases b.isDown .storeList with
  | true => rfl
  | false =>
      cases matched : b.table.matching filter with
      | error e => rfl
      | ok found =>
          refine congrArg Except.ok (List.filter_eq_self.mpr ?_)
          exact Table.isSome_of_matching all matched

end Backend

-----------------------------------------------------------------------------------------
-- Empty starts
-----------------------------------------------------------------------------------------

/-- However requests overlap that started on an empty table, an empty start of a name or of a surname does
not change a listing in order. An empty start of a patronymic drops those without a patronymic before the
page is cut, so that it changes no listing where all live persons have one.
-/
theorem list_empty_start (empty : start.backend.table = {}) (idle : start.programs = [])
    (reached : Steps Backend.SameTable start s) (faultless : filter.faults = [])
    : (filter.name = none →
        s.backend.run (list { filter with name := some "" }) = s.backend.run (list filter))
      ∧ (filter.surname = none →
        s.backend.run (list { filter with surname := some "" }) = s.backend.run (list filter))
      ∧ (filter.patronymic = none →
        (∃ matching : Except Error (List Person),
          ∀ limit offset, (∀ size ∈ limit, size ∈ Filter.allowedLimits) →
            let page := filter.paged limit offset
            (s.backend.run (list page)).1 = matching.map page.cut
              ∧ (s.backend.run (list { page with patronymic := some "" })).1
                = matching.map fun found => page.cut (found.filter (·.patronymic.isSome)))
        ∧ ((∀ row ∈ s.backend.table.rows, row.isDeleted = false → row.patronymic.isSome = true) →
          s.backend.run (list { filter with patronymic := some "" }) = s.backend.run (list filter))) := by
  have sound := sound_of_steps empty idle reached
  refine ⟨fun unasked => ?_, fun unasked => ?_, fun unasked => ⟨?_, fun all => ?_⟩⟩
  · rw [Backend.run_list_listed faultless, Backend.run_list_listed (Filter.faults_name_empty faultless),
      Backend.listed, Table.list_name_empty unasked, Backend.listed]
  · rw [Backend.run_list_listed faultless,
      Backend.run_list_listed (Filter.faults_surname_empty faultless), Backend.listed,
      Table.list_surname_empty unasked, Backend.listed]
  · refine ⟨s.backend.matching filter, fun limit offset allowed => ?_⟩
    intro page
    have faultlessThere : page.faults = [] := Filter.faults_paged faultless allowed offset
    have found : s.backend.matching page = s.backend.matching filter :=
      s.backend.matching_paged filter limit offset
    have unaskedThere : page.patronymic = none := unasked
    rw [Backend.run_list_matching sound faultlessThere, found,
      Backend.run_list_matching sound (Filter.faults_patronymic_empty faultlessThere),
      Backend.matching_patronymic_empty sound unaskedThere, found]
    refine ⟨rfl, ?_⟩
    cases s.backend.matching filter <;> rfl
  · rw [Backend.run_list_matching sound (Filter.faults_patronymic_empty faultless),
      Backend.matching_patronymic_all sound unasked all, Backend.run_list_matching sound faultless]
    rfl

/-- The only person has a patronymic: an empty start of any name part finds it. -/
theorem list_empty_start_whole
    : let s := (Underway.mk (.answering .nil) []).served
        (.create { name := "Augusta", surname := "Byron", patronymic := some "Ada" })
      let p : Person :=
        { id := some .nil
          name := "Augusta"
          surname := "Byron"
          patronymic := some "Ada"
          age := some 36
          gender := some "female"
          nationality := some "GB" }
      (s.backend.run (list { name := some "" })).1 = .ok [p]
        ∧ (s.backend.run (list { surname := some "" })).1 = .ok [p]
        ∧ (s.backend.run (list { patronymic := some "" })).1 = .ok [p] := by
  intro s p
  have reached : Steps Backend.SameTable ⟨.answering .nil, []⟩ s := Steps.served _ _
  have all : ∀ row ∈ s.backend.table.rows, row.isDeleted = false → row.patronymic.isSome = true := by
    decide +kernel
  have found : (s.backend.run (list {})).1 = .ok [p] := by decide +kernel
  have faultless : ({} : Filter).faults = [] := by decide +kernel
  obtain ⟨name, surname, patronymic⟩ := list_empty_start rfl rfl reached faultless
  exact ⟨(congrArg Prod.fst (name rfl)).trans found, (congrArg Prod.fst (surname rfl)).trans found,
    (congrArg Prod.fst ((patronymic rfl).2 all)).trans found⟩

/-- A person without a patronymic is listed, but not by an empty start of one. -/
theorem list_empty_start_missing
    : let s := (Underway.mk (.answering .nil) []).served
        (.create { name := "Ada", surname := "Byron" })
      let p : Person :=
        { id := some .nil
          name := "Ada"
          surname := "Byron"
          age := some 36
          gender := some "female"
          nationality := some "GB" }
      let filter : Filter := {}
      Steps Backend.SameTable ⟨.answering .nil, []⟩ s ∧ filter.faults = [] ∧ filter.patronymic = none
        ∧ (s.backend.run (list filter)).1 = .ok [p]
        ∧ (s.backend.run (list { filter with patronymic := some "" })).1 = .ok [] := by
  intro s p filter
  exact ⟨Steps.served _ _, by decide +kernel, rfl, by decide +kernel, by decide +kernel⟩

-----------------------------------------------------------------------------------------
-- Listings that fail
-----------------------------------------------------------------------------------------

/-- A listing in order fails exactly if the trial of a live person comes to a start that is too long. -/
theorem Backend.run_list_stalls (sound : b.table.Sound) (up : b.isDown .storeList = false)
    (faultless : filter.faults = [])
    : (b.run (list filter)).1
      = if b.table.stalls filter then .error (.store .patternTooLong)
        else .ok (filter.cut (b.table.recorded.live.filter (filter.accepts startsAsSeen))) := by
  rw [run_list_matching sound faultless, matching, up, sound.matching_eq]
  cases b.table.stalls filter <;> rfl

end Service
end PersonRegistry
