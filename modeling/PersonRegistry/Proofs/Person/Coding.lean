import PersonRegistry.Proofs.Identifiers
import PersonRegistry.Proofs.Json.Integers
import PersonRegistry.Proofs.Json.Printable
import PersonRegistry.Proofs.Json.Records

/-! A person printed as JSON is read back: with an identifier or without, with a patronymic or without,
and with null for what was not inferred. The text is one line. A value made of a person has the same members in
another order.
-/

namespace PersonRegistry

open Text (Octets)
open Json (Entry Reader Value)

-----------------------------------------------------------------------------------------
-- Values that may be null
-----------------------------------------------------------------------------------------

namespace Json

variable {α : Type} {read : Reader α}

theorem run_map_ok {β : Type} {f : α → β} {a : α} {octets rest : Octets}
    (reads : read octets = .ok (a, rest))
    : (f <$> read) octets = .ok (f a, rest) := by
  rw [Reader.run_map, reads]

theorem orNull_null (read : Reader α) (rest : Octets)
    : orNull read (Text.Utf8.encode printNull ++ rest) = .ok (none, rest) :=
  rfl

/-- A token other than the first letter of null starts a value of the kind itself. -/
theorem orNull_cons {b : UInt8} (solid : isSpace b = false) (word : b ≠ Octet.letterN)
    (rest : Octets)
    : orNull read (b :: rest) = (some <$> read) (b :: rest) := by
  rw [orNull, Reader.run_bind, token_cons solid]
  simp only
  generalize same : some b = seen
  split
  next => exact absurd (Option.some.inj same) word
  next => rfl

theorem orNull_printText {s : String} {rest : Octets} {a : α}
    (reads : read (Text.Utf8.encode (printText s) ++ rest) = .ok (a, rest))
    : orNull read (Text.Utf8.encode (printText s) ++ rest) = .ok (some a, rest) := by
  rw [encode_printText, List.cons_append] at reads ⊢
  rw [orNull_cons rfl (by decide), Reader.run_map, reads]

theorem orNull_printInt32 (n : Int32) {rest : Octets} (ends : EndsNumeral rest)
    : orNull signed32 (Text.Utf8.encode (printInt32 n) ++ rest) = .ok (some n, rest) := by
  have reads := signed32_printInt32 n ends
  obtain ⟨b, more, octets, starts⟩ := encode_printInt32_eq_cons n
  obtain ⟨solid, word⟩ := solid_of_startsNumeral starts
  rw [octets, List.cons_append] at reads ⊢
  rw [orNull_cons solid word, Reader.run_map, reads]

/-- A comma or a closing brace ends a number. -/
theorem endsNumeral_of_separator {b : UInt8} (separator : b = Octet.comma ∨ b = Octet.closeObject)
    (rest : Octets)
    : EndsNumeral (b :: rest) := by
  intro next more same
  obtain ⟨rfl, -⟩ := List.cons.inj same
  rcases separator with rfl | rfl
  · exact ⟨rfl, by decide, by decide, by decide⟩
  · exact ⟨rfl, by decide, by decide, by decide⟩

end Json

-----------------------------------------------------------------------------------------
-- The members of a person
-----------------------------------------------------------------------------------------

theorem Uuid.read_print (id : Uuid) (rest : Octets)
    : Uuid.read (Text.Utf8.encode id.print ++ rest) = .ok (id, rest) :=
  Json.textAs_printText (by rw [id.ofText_text]; rfl) rest

namespace Person

/-- The printed members of a person, each with what reading it does. -/
def entries (p : Person) : List (Entry Person) :=
  (p.id.map fun id => ⟨"id", id.print, fun q => { q with id := some id }⟩).toList
    ++ [⟨"name", Json.printText p.name, fun q => { q with name := p.name }⟩,
      ⟨"surname", Json.printText p.surname, fun q => { q with surname := p.surname }⟩]
    ++ (p.patronymic.map fun patronymic => ⟨"patronymic", Json.printText patronymic,
        fun q => { q with patronymic := some patronymic }⟩).toList
    ++ [⟨"age", Json.printOption printInt32 p.age, fun q => { q with age := p.age }⟩,
      ⟨"gender", Json.printOption Json.printText p.gender, fun q => { q with gender := p.gender }⟩,
      ⟨"nationality", Json.printOption Json.printText p.nationality,
        fun q => { q with nationality := p.nationality }⟩]

theorem printedMembers_eq (p : Person)
    : p.printedMembers = p.entries.map fun entry => (entry.name, entry.text) := by
  cases id : p.id <;> cases patronymic : p.patronymic
    <;> simp [printedMembers, entries, id, patronymic]

theorem names_entries_nodup (p : Person) : (p.entries.map Entry.name).Nodup := by
  cases id : p.id <;> cases patronymic : p.patronymic <;> simp [entries, id, patronymic]

theorem entries_complete (p : Person) {m : Json.Member Person} (member : m ∈ layout.members)
    (presence : m.presence = .required)
    : m.name ∈ p.entries.map Entry.name := by
  simp only [layout, List.mem_cons, List.not_mem_nil, or_false] at member
  rcases member with rfl | rfl | rfl | rfl | rfl | rfl | rfl
  case inr.inl => simp [entries, Json.Member.of]
  case inr.inr.inl => simp [entries, Json.Member.of]
  all_goals exact absurd presence (by decide)

theorem entries_fit (p : Person) {entry : Entry Person} (member : entry ∈ p.entries)
    : entry.Fits layout := by
  have texts {s : String} (b : UInt8) (rest : Octets)
      : Json.text (Text.Utf8.encode (Json.printText s) ++ b :: rest) = .ok (s, b :: rest) :=
    Json.text_printText s _
  have optionalTexts (s : Option String) (b : UInt8) (rest : Octets)
      : Json.orNull Json.text (Text.Utf8.encode (Json.printOption Json.printText s) ++ b :: rest)
        = .ok (s, b :: rest) := by
    cases s with
    | none => exact Json.orNull_null _ _
    | some s => exact Json.orNull_printText (texts b rest)
  have optionalNumbers (n : Option Int32) {b : UInt8} (rest : Octets)
      (separator : b = Json.Octet.comma ∨ b = Json.Octet.closeObject)
      : Json.orNull Json.signed32
          (Text.Utf8.encode (Json.printOption printInt32 n) ++ b :: rest) = .ok (n, b :: rest) := by
    cases n with
    | none => exact Json.orNull_null _ _
    | some n => exact Json.orNull_printInt32 n (Json.endsNumeral_of_separator separator rest)
  simp only [entries, List.mem_append, Option.mem_toList, Option.map_eq_some_iff, List.mem_cons,
    List.not_mem_nil, or_false] at member
  rcases member with ((⟨id, -, rfl⟩ | rfl | rfl) | ⟨patronymic, -, rfl⟩) | rfl | rfl | rfl
  · exact ⟨_, rfl, fun b rest _ => Json.run_map_ok (Json.orNull_printText (id.read_print _))⟩
  · exact ⟨_, rfl, fun b rest _ => Json.run_map_ok (texts b rest)⟩
  · exact ⟨_, rfl, fun b rest _ => Json.run_map_ok (texts b rest)⟩
  · exact ⟨_, rfl, fun b rest _ => Json.run_map_ok (optionalTexts (some patronymic) b rest)⟩
  · exact ⟨_, rfl, fun b rest separator => Json.run_map_ok (optionalNumbers p.age rest separator)⟩
  · exact ⟨_, rfl, fun b rest _ => Json.run_map_ok (optionalTexts p.gender b rest)⟩
  · exact ⟨_, rfl, fun b rest _ => Json.run_map_ok (optionalTexts p.nationality b rest)⟩

/-- All changes together make the person from a blank one. -/
theorem applyAll_entries (p : Person) : Entry.applyAll p.entries layout.blank = p := by
  obtain ⟨id, name, surname, patronymic, age, gender, nationality⟩ := p
  cases id <;> cases patronymic <;> rfl

-----------------------------------------------------------------------------------------
-- Whole persons
-----------------------------------------------------------------------------------------

theorem decode_encode (p : Person) : decode p.encode = .ok p := by
  have some : p.entries ≠ [] := by simp [entries]
  have decoded := Json.decode_printMembers some (fun _ member => .inl (p.entries_fit member))
    p.names_entries_nodup fun _ => p.entries_complete
  rw [← printedMembers_eq, applyAll_entries] at decoded
  exact decoded

-----------------------------------------------------------------------------------------
-- Persons as values
-----------------------------------------------------------------------------------------

/-- The printed members of a person in the order of their names. -/
def sortedEntries (p : Person) : List (Entry Person) :=
  [⟨"age", Json.printOption printInt32 p.age, fun q => { q with age := p.age }⟩,
      ⟨"gender", Json.printOption Json.printText p.gender, fun q => { q with gender := p.gender }⟩]
    ++ (p.id.map fun id => ⟨"id", id.print, fun q => { q with id := some id }⟩).toList
    ++ [⟨"name", Json.printText p.name, fun q => { q with name := p.name }⟩,
      ⟨"nationality", Json.printOption Json.printText p.nationality,
        fun q => { q with nationality := p.nationality }⟩]
    ++ (p.patronymic.map fun patronymic => ⟨"patronymic", Json.printText patronymic,
        fun q => { q with patronymic := some patronymic }⟩).toList
    ++ [⟨"surname", Json.printText p.surname, fun q => { q with surname := p.surname }⟩]

theorem mem_sortedEntries {p : Person} {entry : Entry Person}
    : entry ∈ p.sortedEntries ↔ entry ∈ p.entries := by
  simp only [sortedEntries, entries, List.mem_append, List.mem_cons, List.not_mem_nil, or_false]
  grind

theorem names_sortedEntries_nodup (p : Person) : (p.sortedEntries.map Entry.name).Nodup := by
  cases id : p.id <;> cases patronymic : p.patronymic <;> simp [sortedEntries, id, patronymic]

theorem applyAll_sortedEntries (p : Person) : Entry.applyAll p.sortedEntries layout.blank = p := by
  obtain ⟨id, name, surname, patronymic, age, gender, nationality⟩ := p
  cases id <;> cases patronymic <;> rfl

theorem value_print_eq (p : Person)
    : p.value.print
      = Json.printMembers (p.sortedEntries.map fun entry => (entry.name, entry.text)) := by
  have texts (s : Option String) : (Value.ofText? s).print = Json.printOption Json.printText s := by
    cases s <;> rfl
  have numbers (n : Option Int32)
      : (Value.ofInteger? (n.map Int32.toInt)).print = Json.printOption printInt32 n := by
    cases n <;> rfl
  cases id : p.id <;> cases patronymic : p.patronymic
    <;> simp only [value, sortedEntries, id, patronymic, Option.map_none, Option.map_some,
      Option.toList_none, Option.toList_some, List.cons_append, List.nil_append, List.append_nil,
      Value.ofMembers, List.foldl_cons, List.foldl_nil, Value.put, String.reduceEq, String.reduceLT,
      if_false, if_true, Value.print, Value.printMembersEach, List.map_cons, List.map_nil, Uuid.print,
      texts, numbers]

/-- A person that was made a value is read back from its print. -/
theorem read_value (p : Person) (rest : Octets)
    : Json.record layout (Text.Utf8.encode p.value.print ++ rest) = .ok (p, rest) := by
  have some : p.sortedEntries ≠ [] := by simp [sortedEntries]
  have complete : ∀ m ∈ layout.members, m.presence = .required →
      m.name ∈ p.sortedEntries.map Entry.name := by
    intro m member presence
    obtain ⟨entry, among, name⟩ := List.mem_map.mp (p.entries_complete member presence)
    exact List.mem_map.mpr ⟨entry, mem_sortedEntries.mpr among, name⟩
  have read := Json.record_printMembers some
    (fun _ member => .inl (p.entries_fit (mem_sortedEntries.mp member)))
    p.names_sortedEntries_nodup complete rest
  rwa [← value_print_eq, applyAll_sortedEntries] at read

-----------------------------------------------------------------------------------------
-- One line of text
-----------------------------------------------------------------------------------------

theorem printable_print (p : Person) : Json.Printable p.print := by
  have optionalTexts := Json.printable_printOption Json.printable_printText
  have optionalNumbers := Json.printable_printOption fun n : Int32 =>
    Json.printable_decimalInteger n.toInt
  refine Json.printable_printMembers fun m member => ?_
  simp only [printedMembers, List.mem_append, Option.mem_toList, Option.map_eq_some_iff,
    List.mem_cons, List.not_mem_nil, or_false] at member
  rcases member with ((⟨id, -, rfl⟩ | rfl | rfl) | ⟨patronymic, -, rfl⟩) | rfl | rfl | rfl
  case inl.inl.inl => exact Json.printable_printText id.text
  case inl.inl.inr.inl => exact Json.printable_printText p.name
  case inl.inl.inr.inr => exact Json.printable_printText p.surname
  case inl.inr => exact Json.printable_printText patronymic
  case inr.inl => exact optionalNumbers p.age
  case inr.inr.inl => exact optionalTexts p.gender
  case inr.inr.inr => exact optionalTexts p.nationality

/-- A printed person is read back as it was, and no octet is a control character. So a printed person
is one line, also when its texts hold line breaks.
-/
theorem decode_encode_one_line (p : Person)
    : decode p.encode = .ok p
      ∧ (∀ b ∈ p.encode, 0x20 ≤ b)
      ∧ 0x0a ∉ p.encode
      ∧ 0x0d ∉ p.encode := by
  have high : ∀ b ∈ p.encode, 0x20 ≤ b := fun b => p.printable_print.le_of_mem_encode
  exact ⟨p.decode_encode, high, fun member => absurd (high _ member) (by decide),
    fun member => absurd (high _ member) (by decide)⟩

end Person
end PersonRegistry
