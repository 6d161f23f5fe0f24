import PersonRegistry.Person.Patch
import PersonRegistry.Person.Validation

/-! Persons without faults have all inferred fields, with values of their kind. -/

namespace PersonRegistry

/-- There are no faults exactly if every check passes. -/
theorem Faults.ofChecks_eq_nil {checks : List (CheckedField × Option Reason)}
    : Faults.ofChecks checks = [] ↔ ∀ check ∈ checks, check.2 = none := by
  rw [Faults.ofChecks, List.filterMap_eq_nil_iff]
  simp only [Option.map_eq_none_iff]

theorem checkGiven_eq_none {α : Type} {check : α → Option Reason} {value : Option α}
    : checkGiven check value = none ↔ ∃ a, value = some a ∧ check a = none := by
  cases value with
  | none => simp [checkGiven]
  | some a => simp [checkGiven]

theorem checkAge_eq_none {age : Int32}
    : checkAge age = none ↔ 0 < age.toInt ∧ age.toInt < (ageBound : Int) := by
  rw [checkAge]
  split
  next outside =>
    simp only [Bool.or_eq_true, decide_eq_true_eq] at outside
    simp only [reduceCtorEq, false_iff]
    omega
  next inside =>
    simp only [Bool.or_eq_true, decide_eq_true_eq, not_or] at inside
    simp only [true_iff]
    omega

theorem checkGender_eq_none {gender : String}
    : checkGender gender = none ↔ genders.contains gender = true := by
  rw [checkGender]
  split <;> simp_all

theorem checkNationality_eq_none {nationality : String}
    : checkNationality nationality = none ↔ isCountryCode nationality = true := by
  rw [checkNationality]
  split <;> simp_all

namespace Person

theorem faults_eq_nil {p : Person}
    : p.faults = [] ↔ checkGiven checkAge p.age = none ∧ checkGiven checkGender p.gender = none
      ∧ checkRequired p.name = none ∧ checkGiven checkNationality p.nationality = none
      ∧ checkOptional p.patronymic = none ∧ checkRequired p.surname = none := by
  rw [faults, Faults.ofChecks_eq_nil]
  simp only [List.forall_mem_cons, List.not_mem_nil, false_implies, implies_true, and_true]

/-- The checks of the inferred fields are no weaker than what an enriched person needs. -/
theorem isEnriched_of_faults {p : Person} (faultless : p.faults = []) : p.isEnriched = true := by
  obtain ⟨age, gender, -, nationality, -, -⟩ := faults_eq_nil.mp faultless
  obtain ⟨a, given, inRange⟩ := checkGiven_eq_none.mp age
  obtain ⟨g, givenGender, known⟩ := checkGiven_eq_none.mp gender
  obtain ⟨n, givenNationality, code⟩ := checkGiven_eq_none.mp nationality
  have positive : 0 < a := Int32.lt_iff_toInt_lt.mpr (checkAge_eq_none.mp inRange).1
  rw [isEnriched, given, givenGender, givenNationality]
  simp only [Option.any_some, Bool.and_eq_true, decide_eq_true_eq]
  exact ⟨⟨positive, checkGender_eq_none.mp known⟩, checkNationality_eq_none.mp code⟩

end Person

theorem Filter.faults_eq_nil {filter : Filter}
    : filter.faults = [] ↔ filter.age.bind checkAgeWanted = none ∧ filter.gender.bind checkGender = none
      ∧ filter.limit.bind checkLimit = none ∧ checkOptional filter.name = none
      ∧ filter.nationality.bind checkNationality = none ∧ checkOptional filter.patronymic = none
      ∧ checkOptional filter.surname = none := by
  rw [faults, Faults.ofChecks_eq_nil]
  simp only [List.forall_mem_cons, List.not_mem_nil, false_implies, implies_true, and_true]

theorem checkLimit_eq_none {limit : Nat} : checkLimit limit = none ↔ limit ∈ Filter.allowedLimits := by
  rw [checkLimit]
  split <;> simp_all

/-- No page asked for without faults is empty. -/
theorem Filter.pageSize_ne_zero {filter : Filter} (faultless : filter.faults = [])
    : filter.pageSize ≠ 0 := by
  obtain ⟨-, -, checked, -⟩ := Filter.faults_eq_nil.mp faultless
  rw [pageSize]
  cases given : filter.limit with
  | none => decide
  | some limit =>
      rw [given] at checked
      have allowed : ∀ size ∈ allowedLimits, size ≠ 0 := by decide
      exact allowed limit (checkLimit_eq_none.mp checked)

/-- A text that is not empty after it was normalized. -/
theorem nonempty?_ne (s : String) : nonempty? s ≠ some "" := by
  rw [nonempty?]
  split
  next => simp
  next given => simp [given]

/-- A draft gives no empty patronymic to its person. -/
theorem Draft.candidate_patronymic (draft : Draft) : draft.candidate.patronymic ≠ some "" := by
  rw [candidate]
  cases draft.patronymic with
  | none => simp
  | some patronymic => exact nonempty?_ne patronymic

/-- A patch gives no empty patronymic to a person that has none. -/
theorem Patch.apply_patronymic (patch : Patch) {p : Person} (before : p.patronymic ≠ some "")
    : (patch.apply p).patronymic ≠ some "" := by
  rw [apply]
  cases patch.patronymic with
  | none => exact before
  | some patronymic => exact nonempty?_ne patronymic

end PersonRegistry
