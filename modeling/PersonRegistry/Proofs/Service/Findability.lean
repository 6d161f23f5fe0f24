import PersonRegistry.Proofs.Service.StoredValidity
import PersonRegistry.Proofs.Store.Paging
import PersonRegistry.Proofs.Text.Prefixes

/-! Whom a listing by a person's own data finds: a filter whose name parts start those of the person and
whose other fields are those of the person.
-/

namespace PersonRegistry

open Store (IsAssigned Table isTooLong startPattern startsAs startsAsSeen startsAsSeen_eq)

-----------------------------------------------------------------------------------------
-- Letters
-----------------------------------------------------------------------------------------

/-- No character of a text is other than a letter. -/
def OnlyLetters (text : String) : Prop := ∀ c ∈ text.toList, Text.isAlphabeticChar c = true

namespace OnlyLetters

variable {text : String}

theorem start {start : String} (letters : OnlyLetters text)
    (starts : start.toList <+: text.toList)
    : OnlyLetters start :=
  fun c member => letters c (starts.subset member)

theorem of_isAlphabetic (alphabetic : isAlphabetic text = true) : OnlyLetters text := by
  rw [isAlphabetic, Bool.and_eq_true, List.all_eq_true] at alphabetic
  exact alphabetic.2

/-- A code point that is no letter is not among letters. -/
theorem code_ne (letters : OnlyLetters text) {code : Nat}
    (noLetter : Text.alphabeticRanges.contains code = false)
    : ∀ c ∈ text.toList, c.toNat ≠ code := by
  rintro c member rfl
  exact Bool.false_ne_true (noLetter.symm.trans (letters c member))

theorem null_not_mem (letters : OnlyLetters text) : '\x00' ∉ text.toList := fun member =>
  letters.code_ne (by decide +kernel) _ member rfl

theorem isAssigned (letters : OnlyLetters text) : IsAssigned text := fun c member =>
  ⟨letters.code_ne (by decide +kernel) c member, letters.code_ne (by decide +kernel) c member⟩

theorem checkOptional (letters : OnlyLetters text) : checkOptional (some text) = none := by
  have fine : (text = "" || isAlphabetic text) = true := by
    cases chars : text.toList with
    | nil =>
        rw [String.toList_eq_nil_iff.mp chars]
        rfl
    | cons c rest =>
        have solid : isAlphabetic text = true := by
          rw [isAlphabetic, chars, List.isEmpty_cons, Bool.not_false, Bool.true_and, List.all_eq_true]
          exact chars ▸ letters
        rw [solid, Bool.or_true]
  rw [PersonRegistry.checkOptional, if_pos fine]

theorem of_checkRequired (checked : checkRequired text = none) : OnlyLetters text := by
  rw [checkRequired] at checked
  split at checked
  next => cases checked
  next =>
    split at checked
    next alphabetic => exact of_isAlphabetic alphabetic
    next => cases checked

theorem of_checkOptional (checked : PersonRegistry.checkOptional (some text) = none)
    : OnlyLetters text := by
  rw [PersonRegistry.checkOptional] at checked
  split at checked
  next fine =>
    rcases Bool.or_eq_true_iff.mp fine with empty | alphabetic
    · rw [of_decide_eq_true empty]
      exact fun c member => by cases member
    · exact of_isAlphabetic alphabetic
  next => cases checked

end OnlyLetters

/-- The name parts of a person without faults are letters. -/
theorem Person.onlyLetters_of_faults {p : Person} (faultless : p.faults = [])
    : OnlyLetters p.name ∧ OnlyLetters p.surname ∧ ∀ part ∈ p.patronymic, OnlyLetters part := by
  obtain ⟨-, -, name, -, patronymic, surname⟩ := faults_eq_nil.mp faultless
  refine ⟨.of_checkRequired name, .of_checkRequired surname, fun part own => ?_⟩
  exact .of_checkOptional (own ▸ patronymic)

/-- An age that a person may have may be asked for. -/
theorem checkAgeWanted_of_checkAge {age : Int32} (checked : checkAge age = none)
    : checkAgeWanted age = none := by
  obtain ⟨least, most⟩ := checkAge_eq_none.mp checked
  refine if_neg ?_
  simp only [Bool.or_eq_true, decide_eq_true_eq]
  omega

-----------------------------------------------------------------------------------------
-- Filters by a person's own data
-----------------------------------------------------------------------------------------

namespace Filter

/-- Each name part asked for starts that of a person, and the other fields asked for are its own. -/
structure DrawnFrom (filter : Filter) (p : Person) : Prop where
  name : ∀ start ∈ filter.name, start.toList <+: p.name.toList
  surname : ∀ start ∈ filter.surname, start.toList <+: p.surname.toList
  patronymic : ∀ start ∈ filter.patronymic, ∃ part ∈ p.patronymic, start.toList <+: part.toList
  age : ∀ age ∈ filter.age, p.age = some age
  gender : ∀ gender ∈ filter.gender, p.gender = some gender
  nationality : ∀ nationality ∈ filter.nationality, p.nationality = some nationality

/-- A name part asked for is cut off behind a capital sigma that does not end a word in the part. -/
def cutsSigma (filter : Filter) (p : Person) : Bool :=
  (filter.asked p).any fun asked => asked.2.any (Text.cutsSigma asked.1)

variable {filter : Filter} {p : Person}

theorem cutsSigma_eq_false (noSigma : ∀ start ∈ filter.starts, 'Σ' ∉ start.toList) (p : Person)
    : filter.cutsSigma p = false := by
  refine List.any_eq_false.mpr fun asked among => ?_
  have own : asked.1 ∈ filter.starts := filter.map_fst_asked p ▸ List.mem_map_of_mem among
  rw [Bool.not_eq_true, Option.any_eq_false]
  exact fun _ _ => Bool.not_eq_true _ ▸ Text.cutsSigmaAfter_of_not_mem (noSigma asked.1 own)

namespace DrawnFrom

variable (drawn : filter.DrawnFrom p) (faultless : p.faults = [])
include drawn faultless

theorem of_mem_asked {start : String} {part : Option String} (among : (start, part) ∈ filter.asked p)
    : ∃ text, part = some text ∧ start.toList <+: text.toList ∧ OnlyLetters text := by
  obtain ⟨name, surname, patronymic⟩ := Person.onlyLetters_of_faults faultless
  simp only [asked, List.mem_append, Option.mem_toList, Option.map_eq_some_iff, Prod.mk.injEq]
    at among
  rcases among with (⟨_, given, rfl, rfl⟩ | ⟨_, given, rfl, rfl⟩) | ⟨_, given, rfl, rfl⟩
  · exact ⟨p.name, rfl, drawn.name _ given, name⟩
  · exact ⟨p.surname, rfl, drawn.surname _ given, surname⟩
  · obtain ⟨part, own, starts⟩ := drawn.patronymic _ given
    exact ⟨part, own, starts, patronymic part own⟩

/-- A person is as asked for by its own data, unless a sigma is cut off. -/
theorem accepts : filter.accepts startsAsSeen p = !filter.cutsSigma p := by
  have part {start text : String} (starts : start.toList <+: text.toList) (letters : OnlyLetters text)
      : startsAsSeen start text = !Text.cutsSigma start text := by
    have own := letters.start starts
    rw [startsAsSeen_eq own.null_not_mem own.isAssigned letters.isAssigned, startsAs, Bool.eq_iff_iff,
      List.isPrefixOf_iff_prefix, Bool.not_eq_true']
    exact Text.lowercase_prefix starts
  have parts : (filter.asked p).all (fun asked => asked.2.any (startsAsSeen asked.1))
      = !filter.cutsSigma p := by
    rw [cutsSigma, List.not_any_eq_all_not, Bool.eq_iff_iff, List.all_eq_true, List.all_eq_true]
    refine forall₂_congr fun asked among => ?_
    obtain ⟨start, part?⟩ := asked
    obtain ⟨text, rfl, starts, letters⟩ := drawn.of_mem_asked faultless among
    rw [Option.any_some, Option.any_some, part starts letters]
  have age : filter.age.all (p.age = some ·) = true :=
    (Option.all_eq_true _ _).mpr fun age given => decide_eq_true (drawn.age age given)
  have gender : filter.gender.all (p.gender = some ·) = true :=
    (Option.all_eq_true _ _).mpr fun gender given => decide_eq_true (drawn.gender gender given)
  have nationality : filter.nationality.all (p.nationality = some ·) = true :=
    (Option.all_eq_true _ _).mpr fun nationality given => decide_eq_true (drawn.nationality nationality given)
  rw [Filter.accepts, parts, age, gender, nationality, Bool.and_true, Bool.and_true, Bool.and_true]

/-- What a person without faults has may be asked for. -/
theorem faults_eq_nil (allowed : ∀ limit ∈ filter.limit, limit ∈ allowedLimits) : filter.faults = [] := by
  obtain ⟨age, gender, -, nationality, -, -⟩ := Person.faults_eq_nil.mp faultless
  obtain ⟨name, surname, patronymic⟩ := Person.onlyLetters_of_faults faultless
  have ages : filter.age.bind checkAgeWanted = none := by
    refine Option.bind_eq_none_iff.mpr fun wanted given => ?_
    rw [drawn.age wanted given] at age
    exact checkAgeWanted_of_checkAge age
  have genders : filter.gender.bind checkGender = none := by
    refine Option.bind_eq_none_iff.mpr fun wanted given => ?_
    rw [drawn.gender wanted given] at gender
    exact gender
  have limits : filter.limit.bind checkLimit = none := by
    exact Option.bind_eq_none_iff.mpr fun limit given => checkLimit_eq_none.mpr (allowed limit given)
  have nationalities : filter.nationality.bind checkNationality = none := by
    refine Option.bind_eq_none_iff.mpr fun wanted given => ?_
    rw [drawn.nationality wanted given] at nationality
    exact nationality
  have part {start : Option String} (letters : ∀ text ∈ start, OnlyLetters text)
      : checkOptional start = none := by
    cases start with
    | none => rfl
    | some start => exact (letters start rfl).checkOptional
  have names := part fun start given => name.start (drawn.name start given)
  have surnames := part fun start given => surname.start (drawn.surname start given)
  have patronymics : checkOptional filter.patronymic = none := by
    refine part fun start given => ?_
    obtain ⟨own, has, starts⟩ := drawn.patronymic start given
    exact (patronymic own has).start starts
  exact Filter.faults_eq_nil.mpr ⟨ages, genders, limits, names, nationalities, patronymics, surnames⟩

end DrawnFrom
end Filter

-----------------------------------------------------------------------------------------
-- Listings of the service
-----------------------------------------------------------------------------------------

namespace Service

variable {b : Backend} {id : Uuid} {p : Person} {filter : Filter}

/-- A listing that is in order gives what the table gives. -/
theorem run_list (up : b.isDown .storeList = false) (faultless : filter.faults = [])
    {found : List Person} (listed : b.table.list filter = .ok found)
    : (b.run (list filter)).1 = .ok found := by
  have call : b.perform (.list filter) = (b.table.list filter, b.counted) := Backend.storeCall_up up
  rw [Backend.run, list, if_neg (not_not_intro faultless), Program.run_ask, call, listed]
  rfl

/-- However requests overlap that started on an empty table, a listing by data of a live person is accepted
and has no page that fails. All pages together hold that person once, unless a name part asked for is cut off
behind a capital sigma that does not end a word in the person's name part: then they do not hold it. None is cut off
so where no capital sigma is asked for.
-/
theorem list_pages_own {start s : Underway} (empty : start.backend.table = {})
    (idle : start.programs = []) (reached : Steps Backend.SameTable start s)
    (live : s.backend.table.get id = .ok (some p)) (drawn : filter.DrawnFrom p)
    (allowed : ∀ limit ∈ filter.limit, limit ∈ Filter.allowedLimits)
    (short : ∀ start ∈ filter.starts, isTooLong (startPattern start) = false)
    (few : s.backend.table.rows.length ≤ Table.pageBound)
    (up : s.backend.isDown .storeList = false)
    : filter.faults = []
      ∧ (∃ pages : Nat → List Person, (∀ k, (s.backend.run (list (filter.onPage k))).1 = .ok (pages k))
        ∧ ∀ n, s.backend.table.rows.length ≤ n * filter.pageSize →
          ((List.range n).flatMap pages).filter (·.id = some id)
            = if filter.cutsSigma p then [] else [p])
        ∧ ((∀ start ∈ filter.starts, 'Σ' ∉ start.toList) → filter.cutsSigma p = false) := by
  have sound : s.backend.table.Sound :=
    (Underway.Valid.steps ⟨empty ▸ Table.sound_empty, by simp [idle]⟩ reached).1.sound
  have faultless : p.faults = [] := (sound.proper_of_get live).faultless
  have accepted : filter.faults = [] := drawn.faults_eq_nil faultless allowed
  obtain ⟨pages, listed, together⟩ := sound.exists_pages few short
  refine ⟨accepted, ⟨pages, fun k => ?_, fun n enough => ?_⟩, fun none_ => filter.cutsSigma_eq_false none_ p⟩
  · have acceptedThere : (filter.onPage k).faults = [] := accepted
    exact run_list up acceptedThere (listed k)
  · rw [together n enough id p live, drawn.accepts faultless]
    cases filter.cutsSigma p <;> rfl

/-- A person that was created and changed is listed by the start of its name, in small letters, and others
of its data.
-/
theorem list_pages_own_changed
    : let s := ((Underway.mk (.answering .nil) []).served
        (.create { name := "ΘΑΛΑΣΣΑ", surname := "Byron" })).served
        (.update .nil { surname := some "King" })
      let p : Person :=
        { id := some .nil
          name := "ΘΑΛΑΣΣΑ"
          surname := "King"
          age := some 36
          gender := some "female"
          nationality := some "GB" }
      let filter : Filter := { name := some "ΘΑΛΑ", surname := some "King", age := some 36 }
      s.backend.table.get .nil = .ok (some p) ∧ filter.faults = []
        ∧ ∃ pages : Nat → List Person, (s.backend.run (list (filter.onPage 0))).1 = .ok (pages 0)
          ∧ (pages 0).filter (·.id = some .nil) = [p] := by
  intro s p filter
  have reached : Steps Backend.SameTable ⟨.answering .nil, []⟩ s :=
    (Steps.served _ _).trans (Steps.served _ _)
  have live : s.backend.table.get .nil = .ok (some p) := by decide +kernel
  have drawn : filter.DrawnFrom p := by
    constructor <;> simp [filter, p]
  have short : ∀ start ∈ filter.starts, isTooLong (startPattern start) = false := by decide +kernel
  obtain ⟨accepted, ⟨pages, listed, together⟩, noSigma⟩ := list_pages_own rfl rfl reached live drawn
    (by simp [filter]) short (by decide +kernel) (by decide +kernel)
  have once := together 1 (by decide +kernel)
  have whole : filter.cutsSigma p = false := noSigma (by decide +kernel)
  rw [whole, List.range_one, List.flatMap_singleton] at once
  exact ⟨live, accepted, pages, listed 0, once⟩

/-- A name is asked for by its start up to a capital sigma: no page of the listing holds the person. -/
theorem list_pages_own_sigma
    : let s := (Underway.mk (.answering .nil) []).served
        (.create { name := "ΘΑΛΑΣΣΑ", surname := "Byron" })
      let p : Person :=
        { id := some .nil
          name := "ΘΑΛΑΣΣΑ"
          surname := "Byron"
          age := some 36
          gender := some "female"
          nationality := some "GB" }
      let filter : Filter := { name := some "ΘΑΛΑΣ" }
      s.backend.table.get .nil = .ok (some p) ∧ filter.DrawnFrom p ∧ filter.faults = []
        ∧ (∀ start ∈ filter.starts, isTooLong (startPattern start) = false)
        ∧ ∀ k, (s.backend.run (list (filter.onPage k))).1 = .ok [] := by
  intro s p filter
  have live : s.backend.table.get .nil = .ok (some p) := by decide +kernel
  have drawn : filter.DrawnFrom p := by
    constructor <;> simp [filter, p]
  have none_ : Table.select filter s.backend.table.ordered = .ok [] := by decide +kernel
  have accepted : filter.faults = [] := by decide +kernel
  refine ⟨live, drawn, accepted, by decide +kernel, fun k => ?_⟩
  have acceptedThere : (filter.onPage k).faults = [] := accepted
  exact run_list (by decide +kernel) acceptedThere (Table.list_onPage_of_select none_ k)

end Service
end PersonRegistry
