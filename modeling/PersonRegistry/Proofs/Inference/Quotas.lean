import PersonRegistry.Inference.RateLimit
import PersonRegistry.Proofs.Text.Utf8
import PersonRegistry.Proofs.Text.WrittenIntegers

/-! Which headers tell a quota: those that have a number for each of its parts, written in digits. -/

namespace PersonRegistry

open Text (IntegerRange Octets)

-----------------------------------------------------------------------------------------
-- Headers that hold text
-----------------------------------------------------------------------------------------

namespace Web.Header

/-- Names are compared letter by letter. -/
theorem isNamed_eq (name : String)
    : isNamed name = fun h => decide (h.name.toList.map Char.toLower = name.toList.map Char.toLower) := by
  have lower (s : String) : s.toLower.toList = s.toList.map Char.toLower := String.toList_map
  funext h
  rw [Bool.eq_iff_iff, decide_eq_true_eq, isNamed, beq_iff_eq, ← String.toList_inj, lower, lower]

/-- A character that a header may hold to be read as text: one that is visible, a space or a tab. -/
def IsPlainChar (c : Char) : Prop := 0x20 ≤ c.toNat ∧ c.toNat < 0x7f ∨ c.toNat = 9

instance (c : Char) : Decidable (IsPlainChar c) := inferInstanceAs (Decidable (_ ∨ _))

variable {c : Char} {b : UInt8} {chars : List Char}

theorem IsPlainChar.small (plain : IsPlainChar c) : c.toNat < 0x80 := by
  rw [IsPlainChar] at plain
  omega

theorem isPlain_iff : isPlain b = true ↔ 0x20 ≤ b.toNat ∧ b.toNat < 0x7f ∨ b.toNat = 9 := by
  simp [isPlain, UInt8.le_iff_toNat_le, UInt8.lt_iff_toNat_lt, ← UInt8.toNat_inj]

/-- Plain characters are spelled by plain octets, by induction on them. -/
theorem all_isPlain_encode (plain : ∀ c ∈ chars, IsPlainChar c)
    : (Text.Utf8.encode chars).all isPlain = true := by
  induction chars with
  | nil => rfl
  | cons c rest ih =>
      obtain ⟨own, plain⟩ := List.forall_mem_cons.mp plain
      have value : (UInt8.ofNat c.toNat).toNat = c.toNat := by
        have small := own.small
        rw [UInt8.toNat_ofNat']
        omega
      rw [Text.Utf8.encode_cons, Text.Utf8.encodeChar_small own.small, List.all_append, ih plain,
        List.all_cons, List.all_nil, isPlain_iff.mpr (value.symm ▸ own)]
      rfl

/-- Plain octets spell plain characters, by induction on them. -/
theorem exists_plain_chars {value : Octets} (plain : value.all isPlain = true)
    : ∃ chars, value = Text.Utf8.encode chars ∧ ∀ c ∈ chars, IsPlainChar c := by
  induction value with
  | nil => exact ⟨[], rfl, List.forall_mem_nil _⟩
  | cons b rest ih =>
      rw [List.all_cons, Bool.and_eq_true] at plain
      obtain ⟨chars, rfl, more⟩ := ih plain.2
      have own := isPlain_iff.mp plain.1
      have code : (Char.ofNat b.toNat).toNat = b.toNat := by
        rw [Char.ofNat, dif_pos (.inl (by omega))]
        rfl
      have first : IsPlainChar (Char.ofNat b.toNat) := by
        rw [IsPlainChar, code]
        exact own
      refine ⟨Char.ofNat b.toNat :: chars, ?_, List.forall_mem_cons.mpr ⟨first, more⟩⟩
      rw [Text.Utf8.encode_cons, Text.Utf8.encodeChar_small first.small, code, UInt8.ofNat_toNat]
      rfl

/-- Exactly the values that spell plain characters are read as text. -/
theorem plainText?_eq_some {value : Octets} {text : String}
    : plainText? value = some text
      ↔ value = Text.Utf8.encode text.toList ∧ ∀ c ∈ text.toList, IsPlainChar c := by
  rw [plainText?]
  constructor
  · intro reads
    split at reads
    next plain =>
      obtain ⟨chars, rfl, all⟩ := exists_plain_chars plain
      obtain rfl := Option.some.inj reads
      rw [Text.Utf8.lossy_encode, String.toList_ofList]
      exact ⟨rfl, all⟩
    next => cases reads
  · rintro ⟨rfl, all⟩
    rw [if_pos (all_isPlain_encode all), Text.Utf8.lossy_encode, String.ofList_toList]

/-- Of these, only a space and a tab are blanks. -/
theorem IsPlainChar.isBlank_iff (plain : IsPlainChar c)
    : Text.isBlank c = true ↔ c = ' ' ∨ c = '\t' := by
  have codes : ∀ n < 0x7f, 0x20 ≤ n ∨ n = 9 → (Text.blankRanges.contains n = true ↔ n = 32 ∨ n = 9) := by
    decide
  rw [← Char.toNat_inj, ← Char.toNat_inj]
  rw [IsPlainChar] at plain
  exact codes c.toNat (by omega) (by omega)

end Web.Header

/-- The characters that spell an integer are plain, and none of them is a blank. -/
theorem Text.Spells.isPlain {numeral : List Char} {n : Int} (spells : Text.Spells numeral n)
    : ∀ c ∈ numeral, Web.Header.IsPlainChar c ∧ Text.isBlank c = false := by
  intro c member
  rcases spells.mem member with isDigit | sign
  · have bounds := Json.toNat_bounds_of_isDigit isDigit
    have codes : ∀ n < 58, 48 ≤ n → Text.blankRanges.contains n = false := by decide
    exact ⟨.inl (by omega), codes c.toNat (by omega) bounds.1⟩
  · simp only [List.mem_cons, List.not_mem_nil, or_false] at sign
    rcases sign with rfl | rfl <;> decide

-----------------------------------------------------------------------------------------
-- Headers that tell a quota
-----------------------------------------------------------------------------------------

namespace Inference.RateLimit

open Web (Header)

/-- The first header of a name has an integer of 64 bits for its value, written in digits, perhaps with a
sign in front, and with nothing but spaces and tabs around it.
-/
def Tells (headers : List Header) (name : String) (n : Int) : Prop :=
  ∃ left numeral right : List Char,
    Header.first? name headers = some (Text.Utf8.encode (left ++ numeral ++ right))
    ∧ (∀ c ∈ left ++ right, c = ' ' ∨ c = '\t')
    ∧ Text.Spells numeral n
    ∧ -0x8000000000000000 ≤ n ∧ n < 0x8000000000000000

/-- Headers tell a quota: there is one with a number for each of its parts. -/
structure ToldBy (quota : RateLimit) (headers : List Header) : Prop where
  limit : Tells headers "x-rate-limit-limit" quota.limit
  remaining : Tells headers "x-rate-limit-remaining" quota.remaining
  reset : Tells headers "x-rate-limit-reset" quota.reset

variable {headers : List Header} {name : String} {n : Int} {quota : RateLimit}

/-- A number is read just if a header tells it: trimming leaves the numeral, and takes nothing but spaces
and tabs away.
-/
theorem number?_eq_some : number? headers name = some n ↔ Tells headers name n := by
  constructor
  · intro reads
    obtain ⟨text, first, reads⟩ := Option.bind_eq_some_iff.mp reads
    obtain ⟨value, own, first⟩ := Option.bind_eq_some_iff.mp first
    obtain ⟨rfl, plain⟩ := Header.plainText?_eq_some.mp first
    obtain ⟨spells, holds⟩ := (Text.toOption_readInteger (by decide)).mp reads
    obtain ⟨left, right, around, blank⟩ := Text.exists_around_trimmed text.toList
    refine ⟨left, Text.trimmed text.toList, right, around ▸ own, ?_, spells, Text.holds_signed64.mp holds⟩
    intro c member
    refine (plain c ?_).isBlank_iff.mp (blank c member)
    rw [around]
    rcases List.mem_append.mp member with before | behind
    · exact List.mem_append_left _ (List.mem_append_left _ before)
    · exact List.mem_append_right _ behind
  · rintro ⟨left, numeral, right, own, blank, spells, bounds⟩
    have space (c : Char) (member : c ∈ left ++ right)
        : Header.IsPlainChar c ∧ Text.isBlank c = true := by
      rcases blank c member with rfl | rfl <;> exact ⟨by decide, by decide⟩
    have text : Header.firstText? name headers = some (String.ofList (left ++ numeral ++ right)) := by
      refine Option.bind_eq_some_iff.mpr ⟨_, own, Header.plainText?_eq_some.mpr ?_⟩
      rw [String.toList_ofList]
      refine ⟨rfl, fun c member => ?_⟩
      rcases List.mem_append.mp member with member | behind
      · rcases List.mem_append.mp member with before | inside
        · exact (space c (List.mem_append_left _ before)).1
        · exact (spells.isPlain c inside).1
      · exact (space c (List.mem_append_right _ behind)).1
    have trimmed : Text.trimmed (left ++ numeral ++ right) = numeral :=
      Text.trimmed_around (fun c member => (space c member).2) fun c inside => (spells.isPlain c inside).2
    refine Option.bind_eq_some_iff.mpr ⟨_, text, ?_⟩
    rw [String.toList_ofList, trimmed]
    exact (Text.toOption_readInteger (by decide)).mpr ⟨spells, Text.holds_signed64.mpr bounds⟩

/-- The quota of an answer is the one that its headers tell, if all three numbers are there. -/
theorem ofHeaders?_eq_some : ofHeaders? headers = some quota ↔ quota.ToldBy headers := by
  rw [ofHeaders?]
  constructor
  · intro tells
    obtain ⟨limit, first, tells⟩ := Option.bind_eq_some_iff.mp tells
    obtain ⟨remaining, second, tells⟩ := Option.bind_eq_some_iff.mp tells
    obtain ⟨reset, third, tells⟩ := Option.bind_eq_some_iff.mp tells
    obtain rfl := Option.some.inj tells
    exact ⟨number?_eq_some.mp first, number?_eq_some.mp second, number?_eq_some.mp third⟩
  · rintro ⟨first, second, third⟩
    have first := number?_eq_some.mpr first
    have second := number?_eq_some.mpr second
    have third := number?_eq_some.mpr third
    simp [first, second, third]

end Inference.RateLimit
end PersonRegistry
