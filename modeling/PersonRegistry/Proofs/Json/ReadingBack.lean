import PersonRegistry.Proofs.Json.Decimals
import PersonRegistry.Proofs.Json.Records

/-! Printed values are read back, up to their floating-point numbers, as long as lists and objects are not
nested too deep for the reader.
-/

namespace PersonRegistry.Json

open Text (Octets)

-----------------------------------------------------------------------------------------
-- Values as they are read back
-----------------------------------------------------------------------------------------

namespace Value

mutual

/-- How deep lists and objects are nested in a value. -/
def depth : Value → Nat
  | .list values => depthOfEach values + 1
  | .object members => depthOfMembers members + 1
  | _ => 0

def depthOfEach : List Value → Nat
  | [] => 0
  | value :: rest => max value.depth (depthOfEach rest)

def depthOfMembers : List (String × Value) → Nat
  | [] => 0
  | (_, value) :: rest => max value.depth (depthOfMembers rest)

end

mutual

/-- A value with every floating-point number replaced by the one that its text is read as. -/
def reread : Value → Value
  | .float x => .float x.reread
  | .list values => .list (rereadEach values)
  | .object members => .object (rereadMembers members)
  | value => value

def rereadEach : List Value → List Value
  | [] => []
  | value :: rest => value.reread :: rereadEach rest

def rereadMembers : List (String × Value) → List (String × Value)
  | [] => []
  | (name, value) :: rest => (name, value.reread) :: rereadMembers rest

end

mutual

/-- Every floating-point number in a value has a short text. -/
def IsShort : Value → Prop
  | .float x => x.IsShort
  | .list values => EachShort values
  | .object members => MembersShort members
  | _ => True

def EachShort : List Value → Prop
  | [] => True
  | value :: rest => value.IsShort ∧ EachShort rest

def MembersShort : List (String × Value) → Prop
  | [] => True
  | (_, value) :: rest => value.IsShort ∧ MembersShort rest

end

mutual

/-- A value is read back unchanged if its numbers have short texts. -/
theorem reread_eq_self : (value : Value) → value.IsShort → value.reread = value
  | .null, _ | .boolean _, _ | .integer _, _ | .text _, _ => rfl
  | .float _, short => congrArg Value.float (Binary64.reread_eq_self short)
  | .list values, short => congrArg Value.list (rereadEach_eq_self values short)
  | .object members, short => congrArg Value.object (rereadMembers_eq_self members short)

theorem rereadEach_eq_self : (values : List Value) → EachShort values → rereadEach values = values
  | [], _ => rfl
  | value :: rest, short => by
      rw [rereadEach, value.reread_eq_self short.1, rereadEach_eq_self rest short.2]

theorem rereadMembers_eq_self
    : (members : List (String × Value)) → MembersShort members → rereadMembers members = members
  | [], _ => rfl
  | (name, value) :: rest, short => by
      rw [rereadMembers, value.reread_eq_self short.1, rereadMembers_eq_self rest short.2]

end

/-- The names of an object ascend. -/
def Ascending (members : List (String × Value)) : Prop :=
  members.Pairwise fun left right => left.1 < right.1

theorem ascending_of_names {members : List (String × Value)} (names : List String)
    (own : members.map Prod.fst = names) (ascending : names.Pairwise (· < ·))
    : Ascending members :=
  List.pairwise_map.mp (own ▸ ascending)

mutual

/-- A value as a text can bring it about: its integers have 64 bits, and its objects are in order. -/
def WellFormed : Value → Prop
  | .integer n => -0x8000000000000000 ≤ n ∧ n < 0x10000000000000000
  | .list values => EachWellFormed values
  | .object members => Ascending members ∧ MembersWellFormed members
  | _ => True

def EachWellFormed : List Value → Prop
  | [] => True
  | value :: rest => value.WellFormed ∧ EachWellFormed rest

def MembersWellFormed : List (String × Value) → Prop
  | [] => True
  | (_, value) :: rest => value.WellFormed ∧ MembersWellFormed rest

end

theorem put_last {name : String} {members : List (String × Value)} (value : Value)
    (last : ∀ m ∈ members, m.1 < name)
    : put name value members = members ++ [(name, value)] := by
  induction members with
  | nil => rfl
  | cons m rest ih =>
      obtain ⟨before, others⟩ := List.forall_mem_cons.mp last
      have other : name ≠ m.1 := fun same => String.lt_irrefl _ (same ▸ before)
      rw [put, if_neg other, if_neg (String.lt_asymm before), ih others, List.cons_append]

/-- Members in order are put one behind the other. -/
theorem ofMembers_of_ascending {members : List (String × Value)} (ascending : Ascending members)
    : ofMembers members = .object members := by
  have from_ (held rest : List (String × Value)) (ascending : Ascending (held ++ rest))
      : rest.foldl (fun held member => put member.1 member.2 held) held = held ++ rest := by
    induction rest generalizing held with
    | nil => exact (List.append_nil held).symm
    | cons m rest ih =>
        have last : ∀ other ∈ held, other.1 < m.1 := fun other member =>
          (List.pairwise_append.mp ascending).2.2 other member m List.mem_cons_self
        rw [List.foldl_cons, put_last m.2 last, ih _ (by rwa [List.append_assoc]), List.append_assoc]
        rfl
  rw [ofMembers, from_ [] members ascending, List.nil_append]

/-- Reading back changes no name. -/
theorem map_fst_rereadMembers (members : List (String × Value))
    : (rereadMembers members).map Prod.fst = members.map Prod.fst := by
  induction members with
  | nil => rfl
  | cons m rest ih => rw [rereadMembers, List.map_cons, List.map_cons, ih]

theorem ascending_rereadMembers {members : List (String × Value)} (ascending : Ascending members)
    : Ascending (rereadMembers members) := by
  have names (members : List (String × Value))
      : Ascending members ↔ (members.map Prod.fst).Pairwise (· < ·) := List.pairwise_map.symm
  rwa [names, map_fst_rereadMembers, ← names]

end Value

-----------------------------------------------------------------------------------------
-- Parts with commas between them
-----------------------------------------------------------------------------------------

/-- Parts up to the end of a list or an object, from the first one on or behind others. -/
def joined (first : Bool) (parts : List (List Char)) : List Char :=
  if first then separated parts else parts.flatMap fun part => ',' :: part

theorem joined_cons (first : Bool) (part : List Char) (parts : List (List Char))
    : joined first (part :: parts) = (if first then [] else [',']) ++ (part ++ joined false parts) := by
  cases first with
  | true => exact separated_cons part parts
  | false => rfl

theorem length_joined_le (parts : List (List Char))
    : (joined false parts).length ≤ (separated parts).length + 1 := by
  cases parts with
  | nil => exact Nat.zero_le _
  | cons part parts =>
      have start : separated (part :: parts) = part ++ joined false parts := joined_cons true part parts
      rw [start, joined_cons]
      simp only [Bool.false_eq_true, if_false, List.singleton_append, List.length_cons, Nat.le_refl]

/-- The octets of printed elements, up to the bracket that closes the list and beyond. -/
def elementOctets (first : Bool) (values : List Value) (rest : Octets) : Octets :=
  Text.Utf8.encode (joined first (Value.printEach values)) ++ Octet.closeList :: rest

/-- A member as it is printed, with a colon between the name and the value. -/
def memberChars (m : String × List Char) : List Char := printText m.1 ++ ':' :: m.2

/-- The octets of printed members, up to the brace that closes the object and beyond. -/
def memberOctets (first : Bool) (members : List (String × Value)) (rest : Octets) : Octets :=
  Text.Utf8.encode (joined first ((Value.printMembersEach members).map memberChars))
    ++ Octet.closeObject :: rest

theorem elementOctets_nil (first : Bool) (rest : Octets)
    : elementOctets first [] rest = Octet.closeList :: rest := by
  cases first <;> rfl

theorem memberOctets_nil (first : Bool) (rest : Octets)
    : memberOctets first [] rest = Octet.closeObject :: rest := by
  cases first <;> rfl

theorem encode_comma (first : Bool)
    : Text.Utf8.encode (if first then [] else [',']) = if first then [] else [Octet.comma] := by
  cases first <;> rfl

theorem elementOctets_cons (first : Bool) (value : Value) (values : List Value) (rest : Octets)
    : elementOctets first (value :: values) rest
      = (if first then [] else [Octet.comma])
        ++ (Text.Utf8.encode value.print ++ elementOctets false values rest) := by
  rw [elementOctets, Value.printEach, joined_cons, Text.Utf8.encode_append, Text.Utf8.encode_append,
    encode_comma, List.append_assoc, List.append_assoc, elementOctets]

theorem memberOctets_cons (first : Bool) (name : String) (value : Value)
    (members : List (String × Value)) (rest : Octets)
    : memberOctets first ((name, value) :: members) rest
      = (if first then [] else [Octet.comma])
        ++ Octet.quote :: (printedBody name
          ++ Octet.colon :: (Text.Utf8.encode value.print ++ memberOctets false members rest)) := by
  have colon : Text.Utf8.encode (':' :: value.print) = Octet.colon :: Text.Utf8.encode value.print := rfl
  rw [memberOctets, Value.printMembersEach, List.map_cons, joined_cons, Text.Utf8.encode_append,
    Text.Utf8.encode_append, encode_comma, memberChars, Text.Utf8.encode_append, encode_printText, colon,
    memberOctets]
  simp only [List.append_assoc, List.cons_append]

theorem encode_print_list (values : List Value) (rest : Octets)
    : Text.Utf8.encode (Value.list values).print ++ rest
      = Octet.openList :: elementOctets true values rest := by
  have close : Text.Utf8.encode [']'] = [Octet.closeList] := rfl
  rw [Value.print, printElements, Text.Utf8.encode_cons, Text.Utf8.encode_append, close]
  simp only [List.append_assoc]
  rfl

theorem encode_print_object (members : List (String × Value)) (rest : Octets)
    : Text.Utf8.encode (Value.object members).print ++ rest
      = Octet.openObject :: memberOctets true members rest := by
  have close : Text.Utf8.encode ['}'] = [Octet.closeObject] := rfl
  rw [Value.print, printMembers, Text.Utf8.encode_cons, Text.Utf8.encode_append, close]
  simp only [List.append_assoc]
  rfl

/-- What stands behind an element or a member ends a number. -/
theorem endsNumeral_elementOctets (values : List Value) (rest : Octets)
    : EndsNumeral (elementOctets false values rest) := by
  intro b more same
  cases values with
  | nil =>
      obtain ⟨rfl, -⟩ := List.cons.inj same
      decide
  | cons value values =>
      rw [elementOctets_cons] at same
      obtain ⟨rfl, -⟩ := List.cons.inj same
      decide

theorem endsNumeral_memberOctets (members : List (String × Value)) (rest : Octets)
    : EndsNumeral (memberOctets false members rest) := by
  intro b more same
  cases members with
  | nil =>
      obtain ⟨rfl, -⟩ := List.cons.inj same
      decide
  | cons m members =>
      rw [memberOctets_cons] at same
      obtain ⟨rfl, -⟩ := List.cons.inj same
      decide

-----------------------------------------------------------------------------------------
-- One round of a reader
-----------------------------------------------------------------------------------------

/-- A printed value starts with an octet that is neither a space nor a closing bracket. -/
theorem encode_print_eq_cons (value : Value)
    : ∃ b more, Text.Utf8.encode value.print = b :: more ∧ isSpace b = false ∧ b ≠ Octet.closeList := by
  have unsigned {chars : List Char} (isUnsigned : IsUnsigned chars)
      : ∃ b more, Text.Utf8.encode chars = b :: more ∧ isSpace b = false ∧ b ≠ Octet.closeList := by
    obtain ⟨b, more, octets, isDigit⟩ := encode_unsigned_eq_cons isUnsigned
    have starts : startsNumeral b = true := by simp [startsNumeral, isDigit]
    refine ⟨b, more, octets, (solid_of_startsNumeral starts).1, ?_⟩
    rintro rfl
    cases isDigit
  cases value with
  | null => exact ⟨Octet.letterN, _, rfl, rfl, by decide⟩
  | boolean b =>
      cases b
      · exact ⟨Octet.letterF, _, rfl, rfl, by decide⟩
      · exact ⟨Octet.letterT, _, rfl, rfl, by decide⟩
  | integer n =>
      rw [Value.print, Text.decimalInteger]
      split
      next => exact ⟨Octet.minus, _, rfl, rfl, by decide⟩
      next => exact unsigned (isUnsigned_decimalDigits _)
  | float x =>
      rw [Value.print, Binary64.text]
      split
      next => exact ⟨Octet.minus, _, rfl, rfl, by decide⟩
      next => exact unsigned (x.shortest.isUnsigned_text x.shortest_proper)
  | text s => exact ⟨Octet.quote, _, encode_printText s, rfl, by decide⟩
  | list values => exact ⟨Octet.openList, _, rfl, rfl, by decide⟩
  | object members => exact ⟨Octet.openObject, _, rfl, rfl, by decide⟩

section

variable {rounds depth : Nat} {first : Bool} {rest : Octets}

theorem nextElement_value {b : UInt8} (solid : isSpace b = false) (opens : b ≠ Octet.closeList)
    (octets : Octets)
    : Layout.nextElement first ((if first then [] else [Octet.comma]) ++ b :: octets)
      = .ok (true, b :: octets) := by
  have solidComma : isSpace Octet.comma = false := rfl
  cases first with
  | true =>
      rw [if_pos rfl, List.nil_append, Layout.nextElement, Reader.run_bind, token_cons solid]
      simp only
      generalize same : some b = next
      split
      next => cases same
      next => exact absurd (Option.some.inj same) opens
      next => rfl
  | false =>
      rw [if_neg (by decide), List.singleton_append, Layout.nextElement, Reader.run_bind,
        token_cons solidComma]
      simp only
      generalize comma : some Octet.comma = next
      split
      next => cases comma
      next => cases comma
      next =>
        obtain rfl := Option.some.inj comma
        rw [if_neg (by decide), if_pos rfl, Reader.run_bind, advance_cons]
        simp only
        rw [Reader.run_bind, token_cons solid]
        simp only
        generalize same : some b = next
        split
        next => exact absurd (Option.some.inj same) opens
        next => rfl
        next => cases same

theorem elementValues_nil (rounds : Nat)
    : elementValues (rounds + 1) depth first (elementOctets first [] rest)
      = .ok ([], Octet.closeList :: rest) := by
  rw [elementOctets_nil]
  rfl

theorem memberValues_nil (rounds : Nat)
    : memberValues (rounds + 1) depth first (memberOctets first [] rest)
      = .ok ([], Octet.closeObject :: rest) := by
  rw [memberOctets_nil]
  rfl

theorem elementValues_cons (value : Value) (values : List Value)
    : elementValues (rounds + 1) depth first (elementOctets first (value :: values) rest)
      = (valueWith rounds depth >>= fun head => (head :: ·) <$> elementValues rounds depth false)
          (Text.Utf8.encode value.print ++ elementOctets false values rest) := by
  obtain ⟨b, more, octets, solid, opens⟩ := encode_print_eq_cons value
  rw [elementOctets_cons, octets, elementValues, List.cons_append, Reader.run_bind,
    nextElement_value solid opens]
  rfl

theorem memberValues_cons (name : String) (value : Value) (members : List (String × Value))
    : memberValues (rounds + 1) depth first (memberOctets first ((name, value) :: members) rest)
      = (valueWith rounds depth >>= fun head => ((name, head) :: ·) <$> memberValues rounds depth false)
          (Text.Utf8.encode value.print ++ memberOctets false members rest) := by
  have key (octets : Octets) : Layout.nextKey first
        ((if first then [] else [Octet.comma]) ++ Octet.quote :: octets)
      = .ok (true, Octet.quote :: octets) := by
    cases first <;> rfl
  have passed (octets : Octets) : colon (Octet.colon :: octets) = .ok ((), octets) := rfl
  rw [memberOctets_cons, memberValues, Reader.run_bind, key]
  simp only [if_true, Reader.run_bind, advance_cons, textBody_printed, passed, Reader.run_map,
    Reader.run_pure]

theorem valueWith_openList (octets : Octets)
    : valueWith (rounds + 1) (depth + 1) (Octet.openList :: octets)
      = (elementValues rounds depth true >>= fun values => advance >>= fun _ => pure (.list values))
          octets :=
  rfl

theorem valueWith_openObject (octets : Octets)
    : valueWith (rounds + 1) (depth + 1) (Octet.openObject :: octets)
      = (memberValues rounds depth true >>= fun members =>
          advance >>= fun _ => pure (.ofMembers members)) octets :=
  rfl

end

-----------------------------------------------------------------------------------------
-- Values that are not nested too deep
-----------------------------------------------------------------------------------------

/-- What is neither a list nor an object is read by its first octet. -/
theorem valueWith_plain {rounds : Nat} {b : UInt8} (solid : isSpace b = false)
    (noList : b ≠ Octet.openList) (noObject : b ≠ Octet.openObject) (depth : Nat) (octets : Octets)
    : valueWith (rounds + 1) depth (b :: octets) = plainValue b (b :: octets) := by
  rw [valueWith, Reader.run_bind, valueStart_cons solid]
  simp only
  split
  next same => exact absurd rfl noList
  next => exact absurd rfl noObject
  next => exact absurd rfl noList
  next => exact absurd rfl noObject
  next => rfl

theorem valueWith_numeral {chars : List Char} {n : Numeral} (spells : Spells chars n) {rounds : Nat}
    (depth : Nat) {rest : Octets} (ends : EndsNumeral rest)
    : valueWith (rounds + 1) depth (Text.Utf8.encode chars ++ rest) = .ok (n.value, rest) := by
  obtain ⟨b, octets, start, starts, reads⟩ := spells
  have other {special : UInt8} (differs : startsNumeral special = false) : b ≠ special := by
    rintro rfl
    rw [starts] at differs
    cases differs
  rw [start, List.cons_append, valueWith_plain (solid_of_startsNumeral starts).1 (other rfl) (other rfl)]
  unfold plainValue
  split
  case h_5 => rw [if_pos starts, Reader.run_map, ← List.cons_append, reads rest ends]
  all_goals exact absurd rfl (other rfl)

theorem valueWith_printText (s : String) {rounds : Nat} (depth : Nat) (rest : Octets)
    : valueWith (rounds + 1) depth (Text.Utf8.encode (printText s) ++ rest) = .ok (.text s, rest) := by
  have quote (octets : Octets)
      : valueWith (rounds + 1) depth (Octet.quote :: octets) = (Value.text <$> textBody) octets := by
    rw [valueWith_plain rfl (by decide) (by decide)]
    rfl
  rw [encode_printText, List.cons_append, quote, Reader.run_map, textBody_printed]

theorem length_print_list (values : List Value)
    : (joined false (Value.printEach values)).length < (Value.list values).print.length := by
  have most := length_joined_le (Value.printEach values)
  simp only [Value.print, printElements, List.length_cons, List.length_append, List.length_nil]
  omega

theorem length_print_object (members : List (String × Value))
    : (joined false ((Value.printMembersEach members).map memberChars)).length
      < (Value.object members).print.length := by
  have most := length_joined_le ((Value.printMembersEach members).map memberChars)
  have parts : (Value.printMembersEach members).map (fun m => printText m.1 ++ ':' :: m.2)
      = (Value.printMembersEach members).map memberChars := rfl
  simp only [Value.print, printMembers, parts, List.length_cons, List.length_append, List.length_nil]
  omega

mutual

/-- A printed value is read back if the reader may go as deep, by induction on the value. -/
theorem valueWith_print : (value : Value) → value.WellFormed → (rounds depth : Nat) → (rest : Octets) →
    value.depth ≤ depth → value.print.length < rounds → EndsNumeral rest →
    valueWith rounds depth (Text.Utf8.encode value.print ++ rest) = .ok (value.reread, rest)
  | _, _, 0, _, _, _, enough, _ => absurd enough (Nat.not_lt_zero _)
  | .null, _, _ + 1, _, _, _, _, _ => rfl
  | .boolean true, _, _ + 1, _, _, _, _, _ => rfl
  | .boolean false, _, _ + 1, _, _, _, _, _ => rfl
  | .integer _, wellFormed, _ + 1, depth, _, _, _, ends =>
      valueWith_numeral (spells_integer wellFormed.1 wellFormed.2) depth ends
  | .float x, _, _ + 1, depth, _, _, _, ends => valueWith_numeral (spells_float x) depth ends
  | .text s, _, _ + 1, depth, rest, _, _, _ => valueWith_printText s depth rest
  | .list values, wellFormed, rounds + 1, depth, rest, within, enough, _ => by
      have some := length_print_list values
      obtain ⟨depth, rfl⟩ := Nat.exists_eq_add_of_le' (Nat.le_trans (Nat.le_add_left 1 _) within)
      have read := elementValues_print values wellFormed rounds depth true rest
        (Nat.le_of_succ_le_succ within) (by omega)
      rw [encode_print_list, valueWith_openList, Reader.run_bind, read]
      rfl
  | .object members, wellFormed, rounds + 1, depth, rest, within, enough, _ => by
      have some := length_print_object members
      obtain ⟨depth, rfl⟩ := Nat.exists_eq_add_of_le' (Nat.le_trans (Nat.le_add_left 1 _) within)
      have read := memberValues_print members wellFormed.2 rounds depth true rest
        (Nat.le_of_succ_le_succ within) (by omega)
      have same := Value.ofMembers_of_ascending (Value.ascending_rereadMembers wellFormed.1)
      rw [encode_print_object, valueWith_openObject, Reader.run_bind, read]
      simp only [Reader.run_bind, advance_cons, Reader.run_pure, same]
      rfl

theorem elementValues_print : (values : List Value) → Value.EachWellFormed values →
    (rounds depth : Nat) → (first : Bool) → (rest : Octets) →
    Value.depthOfEach values ≤ depth → (joined false (Value.printEach values)).length < rounds →
    elementValues rounds depth first (elementOctets first values rest)
      = .ok (Value.rereadEach values, Octet.closeList :: rest)
  | _, _, 0, _, _, _, _, enough => absurd enough (Nat.not_lt_zero _)
  | [], _, rounds + 1, _, _, _, _, _ => elementValues_nil rounds
  | value :: values, wellFormed, rounds + 1, depth, first, rest, within, enough => by
      obtain ⟨here, behind⟩ := Nat.max_le.mp within
      rw [Value.printEach, joined_cons] at enough
      simp only [Bool.false_eq_true, if_false, List.length_append, List.length_singleton] at enough
      have read := valueWith_print value wellFormed.1 rounds depth _ here (by omega)
        (endsNumeral_elementOctets values rest)
      have more := elementValues_print values wellFormed.2 rounds depth false rest behind (by omega)
      rw [elementValues_cons, Reader.run_bind, read]
      simp only [Reader.run_map, more]
      rfl

theorem memberValues_print : (members : List (String × Value)) → Value.MembersWellFormed members →
    (rounds depth : Nat) → (first : Bool) → (rest : Octets) →
    Value.depthOfMembers members ≤ depth →
    (joined false ((Value.printMembersEach members).map memberChars)).length < rounds →
    memberValues rounds depth first (memberOctets first members rest)
      = .ok (Value.rereadMembers members, Octet.closeObject :: rest)
  | _, _, 0, _, _, _, _, enough => absurd enough (Nat.not_lt_zero _)
  | [], _, rounds + 1, _, _, _, _, _ => memberValues_nil rounds
  | (name, value) :: members, wellFormed, rounds + 1, depth, first, rest, within, enough => by
      obtain ⟨here, behind⟩ := Nat.max_le.mp within
      rw [Value.printMembersEach, List.map_cons, joined_cons, memberChars] at enough
      simp only [Bool.false_eq_true, if_false, List.length_append, List.length_cons] at enough
      have read := valueWith_print value wellFormed.1 rounds depth _ here (by omega)
        (endsNumeral_memberOctets members rest)
      have more := memberValues_print members wellFormed.2 rounds depth false rest behind (by omega)
      rw [memberValues_cons, Reader.run_bind, read]
      simp only [Reader.run_map, more]
      rfl

end

-----------------------------------------------------------------------------------------
-- Values that are nested too deep
-----------------------------------------------------------------------------------------

/-- The reader gave up because lists and objects are nested too deep. -/
def TooDeep {α : Type} (result : Except Failure (α × Octets)) : Prop :=
  ∃ left, result = .error ⟨.nestedTooDeep, left, []⟩

mutual

/-- A printed value that is nested deeper than the reader may go is refused, by induction on the value:
what stands before the first list or object beyond the limit is read back.
-/
theorem tooDeep_valueWith : (value : Value) → value.WellFormed → (rounds depth : Nat) → (rest : Octets) →
    depth < value.depth → value.print.length < rounds →
    TooDeep (valueWith rounds depth (Text.Utf8.encode value.print ++ rest))
  | _, _, 0, _, _, _, enough => absurd enough (Nat.not_lt_zero _)
  | .null, _, _ + 1, _, _, beyond, _ => absurd beyond (Nat.not_lt_zero _)
  | .boolean _, _, _ + 1, _, _, beyond, _ => absurd beyond (Nat.not_lt_zero _)
  | .integer _, _, _ + 1, _, _, beyond, _ => absurd beyond (Nat.not_lt_zero _)
  | .float _, _, _ + 1, _, _, beyond, _ => absurd beyond (Nat.not_lt_zero _)
  | .text _, _, _ + 1, _, _, beyond, _ => absurd beyond (Nat.not_lt_zero _)
  | .list _, _, _ + 1, 0, _, _, _ => ⟨_, rfl⟩
  | .object _, _, _ + 1, 0, _, _, _ => ⟨_, rfl⟩
  | .list values, wellFormed, rounds + 1, depth + 1, rest, beyond, enough => by
      have some := length_print_list values
      obtain ⟨left, fails⟩ := tooDeep_elementValues values wellFormed rounds depth true rest
        (Nat.lt_of_succ_lt_succ beyond) (by omega)
      exact ⟨left, by rw [encode_print_list, valueWith_openList, Reader.run_bind, fails]⟩
  | .object members, wellFormed, rounds + 1, depth + 1, rest, beyond, enough => by
      have some := length_print_object members
      obtain ⟨left, fails⟩ := tooDeep_memberValues members wellFormed.2 rounds depth true rest
        (Nat.lt_of_succ_lt_succ beyond) (by omega)
      exact ⟨left, by rw [encode_print_object, valueWith_openObject, Reader.run_bind, fails]⟩

theorem tooDeep_elementValues : (values : List Value) → Value.EachWellFormed values →
    (rounds depth : Nat) → (first : Bool) → (rest : Octets) →
    depth < Value.depthOfEach values → (joined false (Value.printEach values)).length < rounds →
    TooDeep (elementValues rounds depth first (elementOctets first values rest))
  | _, _, 0, _, _, _, _, enough => absurd enough (Nat.not_lt_zero _)
  | [], _, _ + 1, _, _, _, beyond, _ => absurd beyond (Nat.not_lt_zero _)
  | value :: values, wellFormed, rounds + 1, depth, first, rest, beyond, enough => by
      rw [Value.printEach, joined_cons] at enough
      simp only [Bool.false_eq_true, if_false, List.length_append, List.length_singleton] at enough
      rw [elementValues_cons, Reader.run_bind]
      rcases Nat.lt_or_ge depth value.depth with here | within
      · obtain ⟨left, fails⟩ := tooDeep_valueWith value wellFormed.1 rounds depth
          (elementOctets false values rest) here (by omega)
        exact ⟨left, by rw [fails]⟩
      · have behind : depth < Value.depthOfEach values := by
          rw [Value.depthOfEach] at beyond
          omega
        obtain ⟨left, fails⟩ := tooDeep_elementValues values wellFormed.2 rounds depth false rest
          behind (by omega)
        have read := valueWith_print value wellFormed.1 rounds depth _ within (by omega)
          (endsNumeral_elementOctets values rest)
        exact ⟨left, by simp only [read, Reader.run_map, fails]⟩

theorem tooDeep_memberValues : (members : List (String × Value)) → Value.MembersWellFormed members →
    (rounds depth : Nat) → (first : Bool) → (rest : Octets) →
    depth < Value.depthOfMembers members →
    (joined false ((Value.printMembersEach members).map memberChars)).length < rounds →
    TooDeep (memberValues rounds depth first (memberOctets first members rest))
  | _, _, 0, _, _, _, _, enough => absurd enough (Nat.not_lt_zero _)
  | [], _, _ + 1, _, _, _, beyond, _ => absurd beyond (Nat.not_lt_zero _)
  | (name, value) :: members, wellFormed, rounds + 1, depth, first, rest, beyond, enough => by
      rw [Value.printMembersEach, List.map_cons, joined_cons, memberChars] at enough
      simp only [Bool.false_eq_true, if_false, List.length_append, List.length_cons] at enough
      rw [memberValues_cons, Reader.run_bind]
      rcases Nat.lt_or_ge depth value.depth with here | within
      · obtain ⟨left, fails⟩ := tooDeep_valueWith value wellFormed.1 rounds depth
          (memberOctets false members rest) here (by omega)
        exact ⟨left, by rw [fails]⟩
      · have behind : depth < Value.depthOfMembers members := by
          rw [Value.depthOfMembers] at beyond
          omega
        obtain ⟨left, fails⟩ := tooDeep_memberValues members wellFormed.2 rounds depth false rest
          behind (by omega)
        have read := valueWith_print value wellFormed.1 rounds depth _ within (by omega)
          (endsNumeral_memberOctets members rest)
        exact ⟨left, by simp only [read, Reader.run_map, fails]⟩

end

-----------------------------------------------------------------------------------------
-- Whole texts
-----------------------------------------------------------------------------------------

/-- A reader that fails is why the text cannot be decoded. -/
theorem decode_of_error {α : Type} {read : Reader α} {text : Octets} {failure : Failure}
    (fails : read text = .error failure)
    : decode read text = .error (.of text failure) := by
  simp [decode, fails]

/-- An object of printed members, in any order, is decoded unless one of them is nested as deep as the
reader may go: the object itself takes one level.
-/
theorem decode_value_object {members : List (String × Value)} (wellFormed : Value.MembersWellFormed members)
    : if Value.depthOfMembers members < depthLimit then
        decode value (Text.Utf8.encode (Value.object members).print)
          = .ok (.ofMembers (Value.rereadMembers members))
      else
        ∃ e, decode value (Text.Utf8.encode (Value.object members).print) = .error e
          ∧ e.cause = .nestedTooDeep := by
  have start := encode_print_object members []
  have limit : depthLimit = 126 + 1 := rfl
  have rounds : (joined false ((Value.printMembersEach members).map memberChars)).length
      < 2 * (Text.Utf8.encode (Value.object members).print).length + 1 := by
    have short := length_print_object members
    have most := Text.Utf8.length_le_encode (Value.object members).print
    omega
  have opened : value (Text.Utf8.encode (Value.object members).print)
      = (memberValues (2 * (Text.Utf8.encode (Value.object members).print).length + 1) 126 true
          >>= fun members => advance >>= fun _ => pure (.ofMembers members))
          (memberOctets true members []) := by
    rw [← valueWith_openObject, ← start, List.append_nil]
    rfl
  split
  next within =>
    have read := memberValues_print members wellFormed _ _ true [] (Nat.le_of_lt_succ within) rounds
    refine decode_of_read ?_
    rw [opened, Reader.run_bind, read]
    rfl
  next beyond =>
    obtain ⟨left, fails⟩ := tooDeep_memberValues members wellFormed _ _ true []
      (Nat.lt_of_succ_le (Nat.not_lt.mp beyond)) rounds
    refine ⟨.of (Text.Utf8.encode (Value.object members).print) ⟨.nestedTooDeep, left, []⟩, ?_, rfl⟩
    refine decode_of_error ?_
    rw [opened, Reader.run_bind, fails]

/-- An object in order is read back as it was, unless it is nested too deep or has a long number. -/
theorem decode_object {members : List (String × Value)} (wellFormed : (Value.object members).WellFormed)
    (short : Value.MembersShort members) (shallow : Value.depthOfMembers members < depthLimit)
    : decode value (Text.Utf8.encode (Value.object members).print) = .ok (.object members) := by
  have read := decode_value_object wellFormed.2
  rw [if_pos shallow, Value.rereadMembers_eq_self members short,
    Value.ofMembers_of_ascending wellFormed.1] at read
  exact read

end PersonRegistry.Json
