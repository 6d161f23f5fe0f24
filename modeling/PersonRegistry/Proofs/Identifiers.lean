import Mathlib.Algebra.Ring.Nat
import PersonRegistry.Proofs.Text.Ascii
import PersonRegistry.Uuid

/-! Identifiers are read back from their canonical text, so different identifiers have different texts. -/

namespace PersonRegistry.Uuid

-----------------------------------------------------------------------------------------
-- Digits and groups
-----------------------------------------------------------------------------------------

/-- A digit is read back; it is a single octet and no hyphen. -/
theorem digit?_digitChar
    : ∀ d : Fin 16, digit? (digitChar d) = some d ∧ digitChar d ≠ '-'
      ∧ (digitChar d).toNat < 0x80 := by
  decide

/-- No text in braces and no URN starts with a digit. -/
theorem digitChar_not_wrapper
    : ∀ d : Fin 16, digitChar d ≠ '{' ∧ (digitChar d).toLower ≠ 'u' := by
  decide

/-- Digits are read back one by one, by induction on them. -/
theorem mapM_digit? (digits : List (Fin 16))
    : (digits.map digitChar).mapM digit? = some digits := by
  induction digits with
  | nil => rfl
  | cons d rest ih => simp [ih, (digit?_digitChar d).1]

theorem groups_plain {group : List Char} (plain : '-' ∉ group) : groups group = [group] := by
  induction group with
  | nil => rfl
  | cons c rest ih =>
      obtain ⟨noHyphen, plain⟩ := not_or.mp (mt List.mem_cons.mpr plain)
      simp [groups, Ne.symm noHyphen, ih plain]

/-- A hyphen ends a group, by induction on the group. -/
theorem groups_hyphen {group : List Char} (plain : '-' ∉ group) (rest : List Char)
    : groups (group ++ '-' :: rest) = group :: groups rest := by
  induction group with
  | nil => rfl
  | cons c more ih =>
      obtain ⟨noHyphen, plain⟩ := not_or.mp (mt List.mem_cons.mpr plain)
      simp [groups, Ne.symm noHyphen, ih plain]

theorem hyphenate_cons_cons (first second : Nat) (others : List Nat) (chars : List Char)
    : hyphenate (first :: second :: others) chars
      = chars.take first ++ '-' :: hyphenate (second :: others) (chars.drop first) := rfl

/-- Groups joined by hyphens are taken apart again, by induction on their sizes. -/
theorem groups_hyphenate {sizes : List Nat} (some : sizes ≠ []) {chars : List Char}
    (plain : '-' ∉ chars) (size : chars.length = sizes.sum)
    : (groups (hyphenate sizes chars)).map List.length = sizes
      ∧ (groups (hyphenate sizes chars)).flatten = chars := by
  induction sizes generalizing chars with
  | nil => exact absurd rfl some
  | cons first others ih =>
      cases others with
      | nil =>
          rw [hyphenate, groups_plain plain]
          simpa using size
      | cons second others =>
          have short : first ≤ chars.length := by
            rw [size, List.sum_cons]
            exact Nat.le_add_right _ _
          have taken : '-' ∉ chars.take first := fun member => plain (List.mem_of_mem_take member)
          have dropped : '-' ∉ chars.drop first := fun member => plain (List.mem_of_mem_drop member)
          have left : (chars.drop first).length = (second :: others).sum := by
            rw [List.length_drop, size, List.sum_cons, Nat.add_sub_cancel_left]
          obtain ⟨sizes, all⟩ := ih (by simp) dropped left
          rw [hyphenate_cons_cons, groups_hyphen taken, List.map_cons, List.flatten_cons, sizes, all,
            List.length_take, Nat.min_eq_left short, List.take_append_drop]
          exact ⟨rfl, rfl⟩

/-- Nothing but the characters and hyphens stands in joined groups. -/
theorem mem_hyphenate {sizes : List Nat} {chars : List Char} {c : Char}
    (member : c ∈ hyphenate sizes chars)
    : c ∈ chars ∨ c = '-' := by
  induction sizes generalizing chars with
  | nil => exact Or.inl member
  | cons first others ih =>
      cases others with
      | nil => exact Or.inl member
      | cons second others =>
          rw [hyphenate_cons_cons] at member
          rcases List.mem_append.mp member with taken | rest
          · exact Or.inl (List.mem_of_mem_take taken)
          rcases List.mem_cons.mp rest with hyphen | rest
          · exact Or.inr hyphen
          · exact (ih rest).imp_left List.mem_of_mem_drop

-----------------------------------------------------------------------------------------
-- The canonical text
-----------------------------------------------------------------------------------------

variable (id : Uuid)

/-- The characters of an identifier are digits and hyphens. -/
theorem mem_chars {c : Char} (member : c ∈ id.chars) : (∃ d, c = digitChar d) ∨ c = '-' := by
  rcases mem_hyphenate member with digit | hyphen
  · obtain ⟨d, -, rfl⟩ := List.mem_map.mp digit
    exact Or.inl ⟨d, rfl⟩
  · exact Or.inr hyphen

theorem isAscii_chars : Text.IsAscii id.chars := by
  intro c member
  rcases id.mem_chars member with ⟨d, rfl⟩ | rfl
  · exact (digit?_digitChar d).2.2
  · decide

theorem length_chars : id.chars.length = 36 := by
  simp [chars, groupLengths, hyphenate, id.length_digits]

theorem octetLength_of_ascii {chars : List Char} (ascii : Text.IsAscii chars)
    : octetLength chars = chars.length :=
  Text.Utf8.length_encode_of_ascii ascii

/-- No hyphen is among the digits, so the groups of the canonical text are those that it was made of. -/
theorem groups_chars
    : (groups id.chars).map List.length = groupLengths
      ∧ (groups id.chars).flatten = id.digits.map digitChar := by
  refine groups_hyphenate (by decide) ?_ ?_
  · intro member
    obtain ⟨d, -, hyphen⟩ := List.mem_map.mp member
    exact (digit?_digitChar d).2.1 hyphen
  · rw [List.length_map, id.length_digits]
    rfl

theorem ofDigits?_digits : ofDigits? (id.digits.map digitChar) = some id := by
  rw [ofDigits?, mapM_digit?]
  simp [id.length_digits]

/-- Nothing is taken off a text that starts with a digit. -/
theorem unwrap_digit (d : Fin 16) (rest : List Char)
    : unwrap (digitChar d :: rest) = ⟨digitChar d :: rest, 0, true⟩ := by
  obtain ⟨noBrace, noLabel⟩ := digitChar_not_wrapper d
  have label : ((digitChar d :: rest).take urnLabel.length).map Char.toLower ≠ urnLabel := by
    intro same
    exact noLabel (List.cons.inj same).1
  rw [unwrap, if_neg (by simp [noBrace]), if_neg label]

theorem unwrap_chars : unwrap id.chars = ⟨id.chars, 0, true⟩ := by
  obtain ⟨digits, length⟩ := id
  cases digits with
  | nil => cases length
  | cons d rest => exact unwrap_digit d _

/-- What is taken for the groups of an identifier is read as that identifier. -/
theorem ungrouped?_grouped {text : List Char} (groups : (unwrap text).body = id.chars)
    : (ungrouped? text).bind ofDigits? = some id := by
  rw [ungrouped?, groups]
  simp only [id.groups_chars, if_true, Option.bind_some, ofDigits?_digits]

/-- Every identifier is read back from its canonical text. -/
theorem ofText_text : ofText id.text = .ok id := by
  have whole : (unwrap id.chars).body = id.chars := by rw [unwrap_chars]
  have long : ¬(id.chars.isEmpty || 45 < octetLength id.chars) := by
    rw [octetLength_of_ascii id.isAscii_chars, length_chars, List.isEmpty_eq_false_iff.mpr]
    · decide
    · exact List.ne_nil_of_length_pos (id.length_chars ▸ by decide)
  rw [ofText, text, String.toList_ofList, ofChars, if_neg long, id.ungrouped?_grouped whole]

/-- Different identifiers have different texts, since both are read back. -/
theorem text_injective {left right : Uuid} (same : left.text = right.text) : left = right := by
  have read := left.ofText_text.symm.trans ((congrArg ofText same).trans right.ofText_text)
  exact Except.ok.inj read

theorem text_inj {left right : Uuid} : left.text = right.text ↔ left = right :=
  ⟨text_injective, congrArg text⟩

end PersonRegistry.Uuid
