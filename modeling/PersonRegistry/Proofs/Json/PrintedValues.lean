import PersonRegistry.Proofs.Json.Numerals
import PersonRegistry.Proofs.Json.Printable

/-! Printed values of any shape hold no control characters. -/

namespace PersonRegistry.Json

theorem printable_of_isDigit {digits : List Char} (all : ∀ c ∈ digits, c.isDigit)
    : Printable digits := by
  intro c member
  have bounds := toNat_bounds_of_isDigit (all c member)
  omega

/-- A number without a minus consists of digits, a point and an exponent, each of which may be missing. -/
theorem printable_of_isUnsigned {chars : List Char} (isUnsigned : IsUnsigned chars)
    : Printable chars := by
  obtain ⟨isWhole, isFraction, isExponent⟩ := isUnsigned
  refine .append ?_ (.append ?_ ?_)
  · cases isWhole with
    | zero => decide
    | digits _ all => exact printable_of_isDigit all
  · cases isFraction with
    | none => exact .nil
    | digits all => exact .cons (by decide) (printable_of_isDigit all)
  · cases isExponent with
    | none => exact .nil
    | digits lettered signed all =>
        refine .cons ?_ (.append ?_ (printable_of_isDigit all))
        · rcases lettered with rfl | rfl <;> decide
        · rcases signed with rfl | rfl | rfl <;> decide

theorem printable_float (x : Binary64) : Printable x.text := by
  have unsigned := printable_of_isUnsigned (x.shortest.isUnsigned_text x.shortest_proper)
  rw [Binary64.text]
  split
  next => exact .cons (by decide) unsigned
  next => exact unsigned

theorem printable_printElements {parts : List (List Char)} (printable : ∀ part ∈ parts, Printable part)
    : Printable (printElements parts) :=
  .cons (by decide) ((printable_separated printable).append (.cons (by decide) .nil))

mutual

/-- A printed value holds no control characters, by induction on it. -/
theorem Value.printable_print : (value : Value) → Printable value.print
  | .null => (by decide : Printable ['n', 'u', 'l', 'l'])
  | .boolean true => (by decide : Printable ['t', 'r', 'u', 'e'])
  | .boolean false => (by decide : Printable ['f', 'a', 'l', 's', 'e'])
  | .integer n => printable_decimalInteger n
  | .float x => printable_float x
  | .text s => printable_printText s
  | .list values => printable_printElements (printable_printEach values)
  | .object members => printable_printMembers (printable_printMembersEach members)

theorem Value.printable_printEach : (values : List Value) → ∀ part ∈ printEach values, Printable part
  | [], _, member => nomatch member
  | value :: rest, part, member => by
      rcases List.mem_cons.mp member with rfl | later
      · exact value.printable_print
      · exact printable_printEach rest part later

theorem Value.printable_printMembersEach
    : (members : List (String × Value)) → ∀ m ∈ printMembersEach members, Printable m.2
  | [], _, member => nomatch member
  | (name, value) :: rest, m, member => by
      rcases List.mem_cons.mp member with rfl | later
      · exact value.printable_print
      · exact printable_printMembersEach rest m later

end
end PersonRegistry.Json
