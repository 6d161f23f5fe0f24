import PersonRegistry.Json.Record
import PersonRegistry.Proofs.Json.Texts

/-! Records printed as objects are read back: every member changes the record as its reader says, in the
order in which the members stand. Members that the layout does not have change nothing.
-/

namespace PersonRegistry.Json

open Text (Octets)

variable {α : Type}

-----------------------------------------------------------------------------------------
-- Printed members
-----------------------------------------------------------------------------------------

/-- A member as it is printed, and how reading it changes the record. -/
structure Entry (α : Type) where
  name : String
  text : List Char
  change : α → α

namespace Entry

/-- The name and the value, with a colon between them. -/
def chars (entry : Entry α) : List Char := printText entry.name ++ ':' :: entry.text

/-- The octets behind the opening quote of the name, with what follows the entry. -/
def octets (entry : Entry α) (rest : Octets) : Octets :=
  printedBody entry.name ++ Octet.colon :: (Text.Utf8.encode entry.text ++ rest)

theorem encode_chars (entry : Entry α) (rest : Octets)
    : Text.Utf8.encode entry.chars ++ rest = Octet.quote :: entry.octets rest := by
  have colon : String.utf8EncodeChar ':' = [Octet.colon] := rfl
  simp only [chars, octets, Text.Utf8.encode_append, Text.Utf8.encode_cons, encode_printText, colon,
    List.append_assoc, List.cons_append, List.nil_append]

theorem octets_append (entry : Entry α) (more rest : Octets)
    : entry.octets more ++ rest = entry.octets (more ++ rest) := by
  simp [octets]

/-- The layout has a member of the name, which reads the printed value as the change. In an object a
comma or the closing brace follows.
-/
def Fits (layout : Layout α) (entry : Entry α) : Prop :=
  ∃ m, layout.member? entry.name = some m
    ∧ ∀ b rest, b = Octet.comma ∨ b = Octet.closeObject →
        m.read (Text.Utf8.encode entry.text ++ b :: rest) = .ok (entry.change, b :: rest)

/-- The layout has no member of the name. It passes over the printed value, and the record stays as it
is.
-/
structure Foreign (layout : Layout α) (entry : Entry α) : Prop where
  unknown : layout.member? entry.name = none
  opened : layout.closed = false
  unchanged : ∀ record, entry.change record = record
  passed : ∀ b rest, b = Octet.comma ∨ b = Octet.closeObject →
    skipValue (Text.Utf8.encode entry.text ++ b :: rest) = .ok ((), b :: rest)

def Taken (layout : Layout α) (entry : Entry α) : Prop :=
  entry.Fits layout ∨ entry.Foreign layout

/-- The names read so far, with the name of an entry if the layout has such a member. -/
def noted (layout : Layout α) (read : List String) (entry : Entry α) : List String :=
  if (layout.member? entry.name).isSome then entry.name :: read else read

theorem mem_noted {layout : Layout α} {read : List String} {entry : Entry α} {name : String}
    (member : name ∈ noted layout read entry)
    : name = entry.name ∨ name ∈ read := by
  rw [noted] at member
  split at member
  next => exact List.mem_cons.mp member
  next => exact .inr member

theorem mem_noted_of_mem (layout : Layout α) {read : List String} (entry : Entry α) {name : String}
    (member : name ∈ read)
    : name ∈ noted layout read entry := by
  rw [noted]
  split
  next => exact List.mem_cons_of_mem _ member
  next => exact member

theorem name_mem_noted {layout : Layout α} (read : List String) (entry : Entry α) {m : Member α}
    (member : m ∈ layout.members) (same : m.name = entry.name)
    : entry.name ∈ noted layout read entry := by
  have known : (layout.member? entry.name).isSome = true :=
    List.find?_isSome.mpr ⟨m, member, beq_iff_eq.mpr same⟩
  rw [noted, if_pos known]
  exact List.mem_cons_self

def applyAll (entries : List (Entry α)) (record : α) : α :=
  entries.foldl (fun record entry => entry.change record) record

end Entry

/-- Parts with commas between them are the first part and a comma in front of every other. -/
theorem separated_cons (part : List Char) (parts : List (List Char))
    : separated (part :: parts) = part ++ parts.flatMap fun other => ',' :: other := by
  induction parts generalizing part with
  | nil => simp [separated]
  | cons next rest ih => rw [separated, ih] <;> simp

/-- The octets of entries behind a first one, up to the closing brace and beyond. -/
def followingOctets (entries : List (Entry α)) (rest : Octets) : Octets :=
  Text.Utf8.encode (entries.flatMap fun entry => ',' :: entry.chars) ++ Octet.closeObject :: rest

theorem followingOctets_cons (entry : Entry α) (entries : List (Entry α)) (rest : Octets)
    : followingOctets (entry :: entries) rest
      = Octet.comma :: Octet.quote :: entry.octets (followingOctets entries rest) := by
  have comma : String.utf8EncodeChar ',' = [Octet.comma] := rfl
  simp only [followingOctets, List.flatMap_cons, Text.Utf8.encode_append, Text.Utf8.encode_cons,
    comma, List.cons_append, List.nil_append, List.append_assoc, ← Entry.encode_chars]

/-- Behind an entry stands a comma or the closing brace, by cases on the entries that follow. -/
theorem followingOctets_head (entries : List (Entry α)) (rest : Octets)
    : ∃ b more, followingOctets entries rest = b :: more
      ∧ (b = Octet.comma ∨ b = Octet.closeObject) := by
  cases entries with
  | nil => exact ⟨_, _, rfl, Or.inr rfl⟩
  | cons entry entries => exact ⟨_, _, followingOctets_cons entry entries rest, Or.inl rfl⟩

-----------------------------------------------------------------------------------------
-- Reading the members of an object
-----------------------------------------------------------------------------------------

namespace Layout

variable {layout : Layout α} {entry : Entry α} {entries : List (Entry α)} {read : List String}

/-- The first key of an object follows its brace, a later one a comma. -/
theorem nextKey_first (rest : Octets)
    : nextKey true (Octet.quote :: rest) = .ok (true, Octet.quote :: rest) :=
  rfl

theorem nextKey_later (rest : Octets)
    : nextKey false (Octet.comma :: Octet.quote :: rest) = .ok (true, Octet.quote :: rest) :=
  rfl

theorem nextKey_close (first : Bool) (rest : Octets)
    : nextKey first (Octet.closeObject :: rest) = .ok (false, Octet.closeObject :: rest) :=
  rfl

/-- One round reads one entry, whose name was not read before. -/
theorem membersWith_entry (taken : entry.Taken layout) (fresh : entry.name ∉ read) {first : Bool}
    {octets : Octets} (rest : Octets)
    (key : nextKey first octets
      = .ok (true, Octet.quote :: entry.octets (followingOctets entries rest)))
    (rounds : Nat) (record : α)
    : layout.membersWith (rounds + 1) first read record octets
      = layout.membersWith rounds false (entry.noted layout read) (entry.change record)
          (followingOctets entries rest) := by
  obtain ⟨b, more, following, separator⟩ := followingOctets_head entries rest
  have passed (octets : Octets) : colon (Octet.colon :: octets) = .ok ((), octets) := rfl
  rw [following] at key ⊢
  rw [membersWith, Reader.run_bind, key]
  rcases taken with ⟨m, known, reads⟩ | foreign
  case inl =>
    have change := reads b more separator
    simp only [if_true, Reader.run_bind, advance_cons, Entry.octets, textBody_printed, known,
      List.contains_iff_mem, fresh, if_false, passed, within, change, Entry.noted, Option.isSome]
  case inr =>
    have skipped := foreign.passed b more separator
    simp only [if_true, Reader.run_bind, advance_cons, Entry.octets, textBody_printed,
      foreign.unknown, foreign.opened, Bool.false_eq_true, if_false, passed, within, skipped,
      foreign.unchanged, Entry.noted, Option.isSome]

/-- The entries behind a first one are read in order, by induction on them. The rounds suffice, and no
member is missing at the end.
-/
theorem membersWith_following (taken : ∀ entry ∈ entries, entry.Taken layout)
    (distinct : (entries.map Entry.name).Nodup)
    (fresh : ∀ entry ∈ entries, entry.name ∉ read)
    (complete : ∀ m ∈ layout.members, m.presence = .required →
      m.name ∈ read ∨ m.name ∈ entries.map Entry.name)
    {rounds : Nat} (enough : entries.length < rounds) (record : α) (rest : Octets)
    : layout.membersWith rounds false read record (followingOctets entries rest)
      = .ok (.ok (Entry.applyAll entries record), Octet.closeObject :: rest) := by
  induction entries generalizing read rounds record with
  -- the last round finds the closing brace
  | nil =>
      obtain ⟨rounds, rfl⟩ := Nat.exists_eq_succ_of_ne_zero (Nat.ne_zero_of_lt enough)
      have nothingMissing : layout.missing? read = none := by
        simp only [missing?, Option.map_eq_none_iff, List.find?_eq_none]
        intro m member
        cases presence : m.presence <;> simp
        have there := complete m member presence
        simpa using there
      have octets : followingOctets ([] : List (Entry α)) rest = Octet.closeObject :: rest := rfl
      rw [octets, membersWith, Reader.run_bind, nextKey_close]
      simp [nothingMissing, Entry.applyAll]
  | cons entry entries ih =>
      obtain ⟨rounds, rfl⟩ := Nat.exists_eq_succ_of_ne_zero (Nat.ne_zero_of_lt enough)
      obtain ⟨unlike, distinct⟩ := List.nodup_cons.mp distinct
      have key := nextKey_later (entry.octets (followingOctets entries rest))
      rw [← followingOctets_cons] at key
      rw [membersWith_entry (taken entry (by simp)) (fresh entry (by simp)) rest key]
      refine ih (fun other member => taken other (by simp [member])) distinct ?_ ?_
        (by simpa using enough) _
      · intro other member before
        rcases Entry.mem_noted before with same | before
        · exact unlike (same ▸ List.mem_map_of_mem member)
        · exact fresh other (by simp [member]) before
      · intro m member presence
        rcases complete m member presence with before | later
        · exact Or.inl (Entry.mem_noted_of_mem layout entry before)
        · rcases List.mem_cons.mp later with same | later
          · exact Or.inl (same ▸ Entry.name_mem_noted read entry member same)
          · exact Or.inr later

end Layout

-----------------------------------------------------------------------------------------
-- Whole records
-----------------------------------------------------------------------------------------

/-- The entries behind a first one have an octet each at least. -/
theorem length_le_length_followingOctets (entries : List (Entry α)) (rest : Octets)
    : entries.length ≤ (followingOctets entries rest).length := by
  induction entries with
  | nil => simp
  | cons entry entries ih =>
      simp only [followingOctets_cons, List.length_cons, Entry.octets, List.length_append]
      omega

/-- An opened object is read by its members, up to the brace that closes it. -/
theorem record_openObject (layout : Layout α) (rest : Octets)
    : record layout (Octet.openObject :: rest)
      = (layout.membersWith (rest.length + 1) true [] layout.blank >>= fun read =>
          match read with
          | .ok value => advance >>= fun _ => pure value
          | .error cause => failAfterObject cause) rest :=
  rfl

/-- An object of printed members, one at least, is read as the record with all changes applied. -/
theorem record_printMembers {layout : Layout α} {entries : List (Entry α)} (some : entries ≠ [])
    (taken : ∀ entry ∈ entries, entry.Taken layout)
    (distinct : (entries.map Entry.name).Nodup)
    (complete : ∀ m ∈ layout.members, m.presence = .required → m.name ∈ entries.map Entry.name)
    (rest : Octets)
    : record layout
        (Text.Utf8.encode (printMembers (entries.map fun e => (e.name, e.text))) ++ rest)
      = .ok (Entry.applyAll entries layout.blank, rest) := by
  obtain ⟨first, others, rfl⟩ := List.exists_cons_of_ne_nil some
  have openObject : String.utf8EncodeChar '{' = [Octet.openObject] := rfl
  have closeObject : String.utf8EncodeChar '}' = [Octet.closeObject] := rfl
  have octets : Text.Utf8.encode (printMembers ((first :: others).map fun e => (e.name, e.text)))
        ++ rest
      = Octet.openObject :: Octet.quote :: first.octets (followingOctets others rest) := by
    have parts : (first :: others).map (fun e => printText e.name ++ ':' :: e.text)
        = first.chars :: others.map Entry.chars := rfl
    simp only [printMembers, List.map_map, Function.comp_def, parts, separated_cons,
      Text.Utf8.encode_cons, Text.Utf8.encode_append, Text.Utf8.encode_nil, openObject, closeObject,
      List.cons_append, List.nil_append, Entry.encode_chars, Entry.octets_append, followingOctets,
      List.append_assoc, List.flatMap_map]
  obtain ⟨unlike, distinctOthers⟩ := List.nodup_cons.mp distinct
  have enough : others.length
      < (Octet.quote :: first.octets (followingOctets others rest)).length := by
    have short := length_le_length_followingOctets others rest
    simp only [List.length_cons, Entry.octets, List.length_append]
    omega
  have members : layout.membersWith
        ((Octet.quote :: first.octets (followingOctets others rest)).length + 1) true [] layout.blank
        (Octet.quote :: first.octets (followingOctets others rest))
      = .ok (.ok (Entry.applyAll (first :: others) layout.blank), Octet.closeObject :: rest) := by
    rw [Layout.membersWith_entry (taken first (by simp)) (by simp) rest (Layout.nextKey_first _)]
    refine Layout.membersWith_following (fun entry member => taken entry (by simp [member]))
      distinctOthers ?_ ?_ enough _ rest
    · intro entry member before
      rcases Entry.mem_noted before with same | none
      · exact unlike (same ▸ List.mem_map_of_mem member)
      · cases none
    · intro m member presence
      rcases List.mem_cons.mp (complete m member presence) with same | later
      · exact .inl (same ▸ Entry.name_mem_noted [] first member same)
      · exact .inr later
  rw [octets, record_openObject, Reader.run_bind, members]
  rfl

/-- A reader that takes a whole text decodes it. -/
theorem decode_of_read {read : Reader α} {text : Octets} {a : α} (reads : read text = .ok (a, []))
    : decode read text = .ok a := by
  simp [decode, reads, finish]

/-- An object of printed members alone is decoded as the record with all changes applied. -/
theorem decode_printMembers {layout : Layout α} {entries : List (Entry α)} (some : entries ≠ [])
    (taken : ∀ entry ∈ entries, entry.Taken layout)
    (distinct : (entries.map Entry.name).Nodup)
    (complete : ∀ m ∈ layout.members, m.presence = .required → m.name ∈ entries.map Entry.name)
    : decode (record layout)
        (Text.Utf8.encode (printMembers (entries.map fun e => (e.name, e.text))))
      = .ok (Entry.applyAll entries layout.blank) := by
  have read := record_printMembers some taken distinct complete []
  rw [List.append_nil] at read
  exact decode_of_read read

end PersonRegistry.Json
