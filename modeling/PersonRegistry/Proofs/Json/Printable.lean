import PersonRegistry.Proofs.Json.Integers

/-! Printed JSON holds no control characters: those of a text are escaped, and none stands between the parts.
So its octets hold no line break either.
-/

namespace PersonRegistry.Json

open Text (Octets)

/-- No character is a control character. -/
def Printable (chars : List Char) : Prop := ∀ c ∈ chars, 0x20 ≤ c.toNat

instance (chars : List Char) : Decidable (Printable chars) :=
  List.decidableBAll (fun c : Char => 0x20 ≤ c.toNat) chars

-----------------------------------------------------------------------------------------
-- Parts
-----------------------------------------------------------------------------------------

namespace Printable

variable {c : Char} {left right : List Char}

theorem nil : Printable [] := List.forall_mem_nil _

theorem cons (first : 0x20 ≤ c.toNat) (rest : Printable right) : Printable (c :: right) :=
  List.forall_mem_cons.mpr ⟨first, rest⟩

theorem append (first : Printable left) (rest : Printable right) : Printable (left ++ right) :=
  List.forall_mem_append.mpr ⟨first, rest⟩

/-- The octets of printable characters are no control characters: those of a longer character are at
least 0x80, and any other is the character itself.
-/
theorem le_of_mem_encode (printable : Printable left) {b : UInt8} (member : b ∈ Text.Utf8.encode left)
    : 0x20 ≤ b := by
  obtain ⟨c, among, spells⟩ := List.mem_flatMap.mp member
  have control := Nat.not_lt.mpr (printable c among)
  by_cases quote : c = '"'
  · subst quote
    obtain rfl := List.mem_singleton.mp spells
    decide
  by_cases backslash : c = '\\'
  · subst backslash
    obtain rfl := List.mem_singleton.mp spells
    decide
  · exact UInt8.not_lt.mp (isPlain_of_mem_encodeChar quote backslash control spells).2.2

end Printable

theorem printable_hexDigit : ∀ n < 16, 0x20 ≤ (hexDigit n).toNat := by
  decide

/-- A character between quotes is printed without control characters, by cases on its escape. -/
theorem printable_printChar (c : Char) : Printable (printChar c) := by
  unfold printChar
  split
  case h_8 =>
    split
    next control =>
      have high := printable_hexDigit (c.toNat / 16) (by omega)
      have low := printable_hexDigit (c.toNat % 16) (by omega)
      have start : Printable ['\\', 'u', '0', '0'] := by decide
      exact start.append (.cons high (.cons low .nil))
    next plain => exact .cons (Nat.not_lt.mp plain) .nil
  all_goals decide

theorem printable_printText (s : String) : Printable (printText s) := by
  have inside : Printable (s.toList.flatMap printChar) := by
    intro c member
    obtain ⟨spelled, -, among⟩ := List.mem_flatMap.mp member
    exact printable_printChar spelled c among
  have quote : 0x20 ≤ '"'.toNat := by decide
  exact .cons quote (inside.append (.cons quote .nil))

theorem printable_decimalDigits (n : Nat) : Printable (Text.decimalDigits n) := by
  intro c member
  have bounds := toNat_bounds_of_isDigit (isDigit_of_mem_decimalDigits member)
  omega

theorem printable_decimalInteger (n : Int) : Printable (Text.decimalInteger n) := by
  rw [Text.decimalInteger]
  split
  next => exact .cons (by decide) (printable_decimalDigits _)
  next => exact printable_decimalDigits _

theorem printable_printOption {α : Type} {print : α → List Char} (prints : ∀ a, Printable (print a))
    (value : Option α)
    : Printable (printOption print value) := by
  cases value with
  | none => exact (by decide : Printable ['n', 'u', 'l', 'l'])
  | some a => exact prints a

-----------------------------------------------------------------------------------------
-- Objects
-----------------------------------------------------------------------------------------

/-- Parts keep printable when commas are put between them, by induction on the parts. -/
theorem printable_separated {parts : List (List Char)} (printable : ∀ part ∈ parts, Printable part)
    : Printable (separated parts) := by
  induction parts with
  | nil => exact .nil
  | cons part rest ih =>
      obtain ⟨first, others⟩ := List.forall_mem_cons.mp printable
      cases rest with
      | nil => exact first
      | cons next more => exact first.append (.cons (by decide) (ih others))

theorem printable_printMembers {members : List (String × List Char)}
    (printable : ∀ m ∈ members, Printable m.2)
    : Printable (printMembers members) := by
  refine .cons (by decide) (.append (printable_separated ?_) (.cons (by decide) .nil))
  intro part member
  obtain ⟨m, among, rfl⟩ := List.mem_map.mp member
  exact (printable_printText m.1).append (.cons (by decide) (printable m among))

end PersonRegistry.Json
