import PersonRegistry.Inference.Enrichment
import PersonRegistry.Proofs.Service.Findability

/-! The domains of the fields of a person, and the checks that know them: of a draft, of a whole person and of a
filter. The fields at fault are those with a value outside their domain, whoever checks them.
-/

namespace PersonRegistry

open Inference (Enrichment)

-----------------------------------------------------------------------------------------
-- Faults field by field
-----------------------------------------------------------------------------------------

namespace Faults

variable {checks : List (CheckedField × Option Reason)} {field : CheckedField}

/-- Each field is checked once at most, so its entry is what its own check finds. By induction on the checks.
-/
theorem lookup_ofChecks (distinct : (checks.map Prod.fst).Nodup) (field : CheckedField)
    : (ofChecks checks).lookup field = (checks.lookup field).join := by
  induction checks with
  | nil => rfl
  | cons check later ih =>
      obtain ⟨own, found⟩ := check
      obtain ⟨unlike, distinct⟩ := List.nodup_cons.mp distinct
      have behind := ih distinct
      by_cases same : field = own
      · subst same
        have absent : later.lookup field = none := by
          refine List.lookup_eq_none_iff.mpr fun check member => ?_
          exact bne_iff_ne.mpr fun same => unlike (List.mem_map.mpr ⟨check, member, same.symm⟩)
        rw [absent] at behind
        cases found with
        | none => simpa [ofChecks] using behind
        | some reason => simp [ofChecks]
      · cases found with
        | none => simpa [ofChecks, List.lookup_cons, beq_eq_false_iff_ne.mpr same] using behind
        | some reason => simpa [ofChecks, List.lookup_cons, beq_eq_false_iff_ne.mpr same] using behind

theorem filter_ofChecks (among : CheckedField → Bool)
    : (ofChecks checks).filter (fun fault => among fault.1)
      = ofChecks (checks.filter fun check => among check.1) := by
  induction checks with
  | nil => rfl
  | cons check later ih =>
      obtain ⟨own, found⟩ := check
      rw [ofChecks] at ih ⊢
      cases found <;> cases kept : among own <;> simp [kept, ih, ofChecks]

theorem fields_ofChecks : ((ofChecks checks).map Prod.fst).Sublist (checks.map Prod.fst) := by
  induction checks with
  | nil => exact .slnil
  | cons check later ih =>
      obtain ⟨own, found⟩ := check
      cases found with
      | none => exact ih.cons own
      | some reason => exact ih.cons_cons own

theorem exists_mem_iff (faults : Faults) (field : CheckedField)
    : (∃ reason, (field, reason) ∈ faults) ↔ faults.lookup field ≠ none := by
  rw [Ne, List.lookup_eq_none_iff, not_forall]
  constructor
  · rintro ⟨reason, member⟩
    exact ⟨(field, reason), fun unlike => bne_iff_ne.mp (unlike member) rfl⟩
  · rintro ⟨fault, among⟩
    rw [Classical.not_imp, bne_iff_ne, ne_eq, not_not] at among
    obtain ⟨member, rfl⟩ := among
    exact ⟨fault.2, member⟩

end Faults

-----------------------------------------------------------------------------------------
-- Domains
-----------------------------------------------------------------------------------------

theorem checkRequired_eq_none {text : String}
    : checkRequired text = none ↔ text ≠ "" ∧ OnlyLetters text := by
  constructor
  · intro checked
    refine ⟨?_, .of_checkRequired checked⟩
    rintro rfl
    cases checked
  · rintro ⟨given, letters⟩
    have fine := letters.checkOptional
    rw [checkOptional] at fine
    split at fine
    next passes =>
      rcases Bool.or_eq_true_iff.mp passes with empty | alphabetic
      · exact absurd (of_decide_eq_true empty) given
      · rw [checkRequired, if_neg given, if_pos alphabetic]
    next => cases fine

theorem checkOptional_eq_none {text : Option String}
    : checkOptional text = none ↔ ∀ part ∈ text, OnlyLetters part := by
  cases text with
  | none => simp [checkOptional]
  | some part =>
      refine ⟨fun checked own same => ?_, fun letters => (letters part rfl).checkOptional⟩
      obtain rfl := Option.some.inj same
      exact .of_checkOptional checked

/-- A code is two Latin capitals. -/
theorem isCountryCode_iff {text : String}
    : isCountryCode text = true
      ↔ ∃ first second, text.toList = [first, second] ∧ isLatinCapital first = true
        ∧ isLatinCapital second = true := by
  rw [isCountryCode, Bool.and_eq_true, decide_eq_true_eq, List.all_eq_true]
  constructor
  · rintro ⟨two, capitals⟩
    obtain ⟨first, second, chars⟩ := List.length_eq_two.mp two
    rw [chars] at capitals
    exact ⟨first, second, chars, capitals first (by simp), capitals second (by simp)⟩
  · rintro ⟨first, second, chars, capital, capitalToo⟩
    rw [chars]
    exact ⟨rfl, by simp [capital, capitalToo]⟩

namespace CheckedField

/-- The fields that are given, and not inferred. -/
def isNamePart : CheckedField → Bool
  | .name | .surname | .patronymic => true
  | .age | .gender | .limit | .nationality => false

end CheckedField

namespace Person

/-- The value of a field is in its domain. A person has no limit that could be at fault. -/
def InDomain (p : Person) : CheckedField → Prop
  | .age => ∃ age, p.age = some age ∧ 1 ≤ age.toInt ∧ age.toInt ≤ 149
  | .gender => p.gender = some "male" ∨ p.gender = some "female"
  | .limit => True
  | .name => p.name ≠ "" ∧ OnlyLetters p.name
  | .nationality => ∃ code, p.nationality = some code
      ∧ ∃ first second, code.toList = [first, second] ∧ isLatinCapital first = true
        ∧ isLatinCapital second = true
  | .patronymic => ∀ part ∈ p.patronymic, OnlyLetters part
  | .surname => p.surname ≠ "" ∧ OnlyLetters p.surname

/-- Two persons have the same value in a field. -/
def AgreesIn (p q : Person) : CheckedField → Prop
  | .age => p.age = q.age
  | .gender => p.gender = q.gender
  | .limit => True
  | .name => p.name = q.name
  | .nationality => p.nationality = q.nationality
  | .patronymic => p.patronymic = q.patronymic
  | .surname => p.surname = q.surname

/-- What the check of a field finds. -/
def reason? (p : Person) : CheckedField → Option Reason
  | .age => checkGiven checkAge p.age
  | .gender => checkGiven checkGender p.gender
  | .limit => none
  | .name => checkRequired p.name
  | .nationality => checkGiven checkNationality p.nationality
  | .patronymic => checkOptional p.patronymic
  | .surname => checkRequired p.surname

variable {p q : Person} {field : CheckedField}

/-- The fields that are checked, in the order of their names. -/
def checkedFields : List CheckedField := [.age, .gender, .name, .nationality, .patronymic, .surname]

theorem faults_eq (p : Person)
    : p.faults = .ofChecks (checkedFields.map fun field => (field, p.reason? field)) :=
  rfl

theorem distinct_checks (p : Person)
    : ((checkedFields.map fun field => (field, p.reason? field)).map Prod.fst).Nodup := by
  have fields : (checkedFields.map fun field => (field, p.reason? field)).map Prod.fst = checkedFields := rfl
  rw [fields]
  decide

theorem lookup_faults (p : Person) (field : CheckedField) : p.faults.lookup field = p.reason? field := by
  rw [faults_eq, Faults.lookup_ofChecks p.distinct_checks]
  cases field <;> rfl

theorem nodup_faults (p : Person) : (p.faults.map Prod.fst).Nodup :=
  Faults.fields_ofChecks.nodup p.distinct_checks

theorem reason?_eq_none_iff : p.reason? field = none ↔ p.InDomain field := by
  cases field with
  | age =>
      rw [reason?, checkGiven_eq_none]
      simp only [checkAge_eq_none, ageBound, InDomain]
      refine exists_congr fun age => and_congr_right fun _ => ?_
      omega
  | gender =>
      rw [reason?, checkGiven_eq_none]
      simp only [checkGender_eq_none, genders, InDomain]
      cases p.gender with
      | none => simp
      | some gender => simp
  | limit => exact iff_of_true rfl trivial
  | name => exact checkRequired_eq_none
  | nationality =>
      rw [reason?, checkGiven_eq_none]
      simp only [checkNationality_eq_none, isCountryCode_iff, InDomain]
  | patronymic => exact checkOptional_eq_none
  | surname => exact checkRequired_eq_none

theorem reason?_congr (same : p.AgreesIn q field) : p.reason? field = q.reason? field := by
  cases field <;> simp only [AgreesIn] at same <;> simp only [reason?, same]

end Person

/-- A filter asks for values that a person has, for as many of its fields as one likes. -/
structure Filter.AsksFor (filter : Filter) (p : Person) : Prop where
  name : ∀ name ∈ filter.name, p.name = name
  surname : ∀ surname ∈ filter.surname, p.surname = surname
  patronymic : ∀ patronymic ∈ filter.patronymic, p.patronymic = some patronymic
  age : ∀ age ∈ filter.age, p.age = some age
  gender : ∀ gender ∈ filter.gender, p.gender = some gender
  nationality : ∀ nationality ∈ filter.nationality, p.nationality = some nationality

theorem Filter.AsksFor.drawnFrom {filter : Filter} {p : Person} (asks : filter.AsksFor p)
    : filter.DrawnFrom p where
  name start given := asks.name start given ▸ List.prefix_rfl
  surname start given := asks.surname start given ▸ List.prefix_rfl
  patronymic start given := ⟨start, asks.patronymic start given, List.prefix_rfl⟩
  age := asks.age
  gender := asks.gender
  nationality := asks.nationality

-----------------------------------------------------------------------------------------
-- Drafts and their persons
-----------------------------------------------------------------------------------------

theorem checkOptional_bind_nonempty? (text : Option String)
    : checkOptional (text.bind nonempty?) = checkOptional text := by
  cases text with
  | none => rfl
  | some part =>
      rw [Option.bind_some, nonempty?]
      split
      next empty => simp [checkOptional, empty]
      next => rfl

/-- Whatever is inferred for a draft, its person has the same faults in the name parts. -/
theorem Draft.filter_faults (draft : Draft) (e : Enrichment)
    : (e.apply draft.candidate).faults.filter (fun fault => fault.1.isNamePart) = draft.faults := by
  rw [Person.faults, Faults.filter_ofChecks, Draft.faults]
  simp only [Enrichment.apply, Draft.candidate, checkOptional_bind_nonempty?]
  rfl

/-- A person has the faults in its name parts that its draft had, so that of a draft in order nothing can be at
fault but what was inferred. Every person has one entry at most for a field, and has one exactly if the value of
that field is outside its domain; the entry depends on that value alone. A person without faults is enriched, and
any of its values may be asked for.
-/
theorem faults_by_domain (draft : Draft) (e : Enrichment) (p : Person)
    : (e.apply draft.candidate).faults.filter (fun fault => fault.1.isNamePart) = draft.faults
      ∧ (draft.faults = [] → ∀ fault ∈ (e.apply draft.candidate).faults,
          fault.1 = .age ∨ fault.1 = .gender ∨ fault.1 = .nationality)
      ∧ (p.faults.map Prod.fst).Nodup
      ∧ (∀ field, (∃ reason, (field, reason) ∈ p.faults) ↔ ¬p.InDomain field)
      ∧ (∀ q : Person, ∀ field, p.AgreesIn q field → p.faults.lookup field = q.faults.lookup field)
      ∧ (p.faults = [] → p.isEnriched = true
        ∧ ∀ filter : Filter, filter.AsksFor p → (∀ limit ∈ filter.limit, limit ∈ Filter.allowedLimits) →
            filter.faults = []) := by
  have parts := draft.filter_faults e
  refine ⟨parts, fun valid fault member => ?_, p.nodup_faults, fun field => ?_, fun q field same => ?_,
    fun faultless => ⟨p.isEnriched_of_faults faultless, fun filter asks allowed => ?_⟩⟩
  · have inferred : fault.1.isNamePart = false := by
      rw [valid, List.filter_eq_nil_iff] at parts
      exact Bool.eq_false_iff.mpr (parts fault member)
    have found := (Faults.exists_mem_iff _ fault.1).mp ⟨fault.2, member⟩
    rw [Person.lookup_faults] at found
    generalize fault.1 = field at inferred found
    cases field with
    | age => exact .inl rfl
    | gender => exact .inr (.inl rfl)
    | nationality => exact .inr (.inr rfl)
    | limit => exact absurd rfl found
    | name | surname | patronymic => cases inferred
  · rw [Faults.exists_mem_iff, Person.lookup_faults, Ne, Person.reason?_eq_none_iff]
  · rw [Person.lookup_faults, Person.lookup_faults, Person.reason?_congr same]
  · exact asks.drawnFrom.faults_eq_nil faultless allowed

/-- A draft with two faults, for which an age beyond all others and no nationality is inferred, and the oldest
person that there may be, asked for by an empty patronymic among others.
-/
theorem faults_by_domain_oldest
    : let draft : Draft := { name := "Ada", patronymic := some "2" }
      let e : Enrichment := { age := some 150, gender := some "female" }
      let p : Person :=
        { name := "Ada"
          surname := "King"
          patronymic := some ""
          age := some 149
          gender := some "female"
          nationality := some "GB" }
      let filter : Filter := { surname := some "King", patronymic := some "", age := some 149 }
      (e.apply draft.candidate).faults
          = [(.age, .outside 1 149), (.nationality, .required), (.patronymic, .notLetters),
            (.surname, .required)]
        ∧ draft.faults = [(.patronymic, .notLetters), (.surname, .required)]
        ∧ p.faults = [] ∧ filter.AsksFor p ∧ p.isEnriched = true ∧ filter.faults = [] := by
  intro draft e p filter
  have faulty : (e.apply draft.candidate).faults
      = [(.age, .outside 1 149), (.nationality, .required), (.patronymic, .notLetters),
        (.surname, .required)] := by
    decide +kernel
  obtain ⟨parts, -, -, -, -, proper⟩ := faults_by_domain draft e p
  have faultless : p.faults = [] := by decide +kernel
  have asks : filter.AsksFor p := by
    constructor <;> simp [filter, p]
  obtain ⟨enriched, accepted⟩ := proper faultless
  rw [faulty] at parts
  exact ⟨faulty, parts.symm, faultless, asks, enriched, accepted filter asks (by simp [filter])⟩

end PersonRegistry
