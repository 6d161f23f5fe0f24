import PersonRegistry.Proofs.Identifiers
import PersonRegistry.Proofs.Text.Ascii
import PersonRegistry.Proofs.Text.Lowercase

/-! Which texts are read as an identifier: those that spell it in one of the four ways, in letters of either
case, and no others.
-/

namespace PersonRegistry.Uuid

-----------------------------------------------------------------------------------------
-- The case of letters
-----------------------------------------------------------------------------------------

/-- What is between a character and its small form is seen from the 26 capitals. -/
theorem toLower_induction {p : Char → Char → Prop} (same : ∀ c, p c c)
    (capitals : ∀ n < 26, p (Char.ofNat (0x41 + n)) (Char.ofNat (0x61 + n))) (c : Char)
    : p c c.toLower := by
  by_cases capital : Text.IsCapital c
  · have lowered : ∀ n < 26, (Char.ofNat (0x41 + n)).toLower = Char.ofNat (0x61 + n) := by decide
    have place : 0x41 + (c.toNat - 0x41) = c.toNat := Nat.add_sub_of_le capital.1
    have within : c.toNat - 0x41 < 26 := by
      have last := capital.2
      omega
    have known := capitals _ within
    rw [← lowered _ within, place, Char.ofNat_toNat] at known
    exact known
  · rw [Text.toLower_of_not_capital capital]
    exact same c

theorem digit?_toLower (c : Char) : digit? c.toLower = digit? c :=
  toLower_induction (p := fun c d => digit? d = digit? c) (fun _ => rfl) (by decide) c

theorem toLower_toLower (c : Char) : c.toLower.toLower = c.toLower :=
  toLower_induction (p := fun c d => d.toLower = c.toLower) (fun _ => rfl) (by decide) c

/-- Hyphens and braces are no letters. -/
theorem toLower_eq_mark (mark : Char) (known : mark ∈ ['-', '{', '}']) (c : Char)
    : c.toLower = mark ↔ c = mark := by
  refine toLower_induction (p := fun c d => d = mark ↔ c = mark) (fun _ => Iff.rfl) ?_ c
  simp only [List.mem_cons, List.not_mem_nil, or_false] at known
  rcases known with rfl | rfl | rfl <;> decide

theorem length_encode_toLower (c : Char)
    : (String.utf8EncodeChar c.toLower).length = (String.utf8EncodeChar c).length :=
  toLower_induction
    (p := fun c d => (String.utf8EncodeChar d).length = (String.utf8EncodeChar c).length)
    (fun _ => rfl) (by decide) c

theorem ascii_of_digit? {c : Char} {d : Fin 16} (value : digit? c = some d) : c.toNat < 0x80 := by
  have bound {first last : Char} (within : (first ≤ c && c ≤ last) = true) (small : last.toNat < 0x80)
      : c.toNat < 0x80 := by
    have below := of_decide_eq_true (Bool.and_eq_true_iff.mp within).2
    exact Nat.lt_of_le_of_lt (UInt32.le_iff_toNat_le.mp below) small
  rw [digit?] at value
  split at value
  next within => exact bound within (by decide)
  next =>
    split at value
    next within => exact bound within (by decide)
    next =>
      split at value
      next within => exact bound within (by decide)
      next => cases value

/-- The small form of a digit is the digit as it is written. -/
theorem toLower_of_digit? {c : Char} {d : Fin 16} (value : digit? c = some d)
    : c.toLower = digitChar d := by
  have checked : ∀ n < 0x80, ∀ d, digit? (Char.ofNat n) = some d
      → (Char.ofNat n).toLower = digitChar d := by
    decide +kernel
  have known := checked c.toNat (ascii_of_digit? value) d
  rw [Char.ofNat_toNat] at known
  exact known value

/-- Digits are those whose small forms they are read as, by induction on them. -/
theorem toLower_of_mapM_digit? {chars : List Char} {digits : List (Fin 16)}
    (values : chars.mapM digit? = some digits)
    : chars.map Char.toLower = digits.map digitChar := by
  induction chars generalizing digits with
  | nil =>
      obtain rfl : [] = digits := Option.some.inj values
      rfl
  | cons c rest ih =>
      rw [List.mapM_cons] at values
      obtain ⟨d, value, later⟩ := Option.bind_eq_some_iff.mp values
      obtain ⟨others, found, same⟩ := Option.bind_eq_some_iff.mp later
      obtain rfl : d :: others = digits := Option.some.inj same
      rw [List.map_cons, List.map_cons, toLower_of_digit? value, ih found]

theorem mapM_digit?_toLower (chars : List Char)
    : (chars.map Char.toLower).mapM digit? = chars.mapM digit? := by
  induction chars with
  | nil => rfl
  | cons c rest ih => rw [List.map_cons, List.mapM_cons, List.mapM_cons, digit?_toLower, ih]

theorem octetLength_toLower (chars : List Char)
    : octetLength (chars.map Char.toLower) = octetLength chars := by
  induction chars with
  | nil => rfl
  | cons c rest ih =>
      simp only [octetLength] at ih
      simp only [octetLength, List.map_cons, Text.Utf8.encode_cons, List.length_append,
        length_encode_toLower, ih]

-----------------------------------------------------------------------------------------
-- Groups
-----------------------------------------------------------------------------------------

/-- Hyphens stay where they are in small letters, by induction on the characters. -/
theorem groups_toLower (chars : List Char)
    : groups (chars.map Char.toLower) = (groups chars).map (List.map Char.toLower) := by
  induction chars with
  | nil => rfl
  | cons c rest ih =>
      have hyphen := toLower_eq_mark '-' (by decide) c
      rw [List.map_cons, groups, groups, ih]
      by_cases ends : c = '-'
      · rw [if_pos ends, if_pos (hyphen.mpr ends)]
        rfl
      · rw [if_neg ends, if_neg (mt hyphen.mp ends)]
        cases groups rest <;> rfl

theorem groups_ne_nil (chars : List Char) : groups chars ≠ [] := by
  cases chars with
  | nil => exact List.cons_ne_nil _ _
  | cons c rest =>
      rw [groups]
      split
      next => exact List.cons_ne_nil _ _
      next => split <;> exact List.cons_ne_nil _ _

/-- Characters are their groups joined by hyphens, by induction on them. -/
theorem hyphenate_groups (chars : List Char)
    : hyphenate ((groups chars).map List.length) (groups chars).flatten = chars := by
  induction chars with
  | nil => rfl
  | cons c rest ih =>
      obtain ⟨group, more, same⟩ := List.exists_cons_of_ne_nil (groups_ne_nil rest)
      rw [same] at ih
      rw [groups, same]
      split
      next hyphen =>
        rw [hyphen]
        exact congrArg (List.cons '-') ih
      next =>
        cases more with
        | nil => simpa [hyphenate] using ih
        | cons second more => simpa [hyphenate] using ih

-----------------------------------------------------------------------------------------
-- What is taken off
-----------------------------------------------------------------------------------------

/-- The same is taken off a text in small letters. -/
theorem unwrap_toLower (chars : List Char)
    : unwrap (chars.map Char.toLower)
      = { unwrap chars with body := (unwrap chars).body.map Char.toLower } := by
  have opens : (chars.map Char.toLower).head? = some '{' ↔ chars.head? = some '{' := by
    cases chars with
    | nil => exact Iff.rfl
    | cons c rest => simp [toLower_eq_mark '{' (by decide)]
  have closes : (chars.map Char.toLower).getLast? = some '}' ↔ chars.getLast? = some '}' := by
    rw [List.getLast?_map]
    cases chars.getLast? with
    | none => exact Iff.rfl
    | some c => simp [toLower_eq_mark '}' (by decide)]
  have label : ((chars.map Char.toLower).take urnLabel.length).map Char.toLower
      = (chars.take urnLabel.length).map Char.toLower := by
    rw [← List.map_take, List.map_map]
    exact List.map_congr_left fun c _ => toLower_toLower c
  simp only [unwrap, opens, closes, label, List.length_map]
  split
  next => simp [List.map_dropLast]
  next => split <;> simp

/-- A text whose ends are no braces and that starts with no label is left as it is; otherwise the braces or
the label are taken off.
-/
theorem unwrap_cases (chars : List Char)
    : (∃ body, chars = '{' :: (body ++ ['}']) ∧ unwrap chars = ⟨body, 1, false⟩)
      ∨ (∃ label body, chars = label ++ body ∧ label.map Char.toLower = urnLabel
        ∧ unwrap chars = ⟨body, urnLabel.length, false⟩)
      ∨ unwrap chars = ⟨chars, 0, true⟩ := by
  rw [unwrap]
  split
  next braced =>
    simp only [Bool.and_eq_true, decide_eq_true_eq] at braced
    obtain ⟨⟨opens, closes⟩, long⟩ := braced
    refine Or.inl ⟨(chars.drop 1).dropLast, ?_, rfl⟩
    cases chars with
    | nil => cases opens
    | cons c rest =>
        obtain rfl := Option.some.inj opens
        have some_ : rest ≠ [] := by
          rintro rfl
          simp at long
        rw [List.getLast?_cons_of_ne_nil some_] at closes
        obtain ⟨body, rfl⟩ := List.getLast?_eq_some_iff.mp closes
        simp
  next =>
    split
    next labelled =>
      exact Or.inr (Or.inl ⟨chars.take urnLabel.length, chars.drop urnLabel.length,
        (List.take_append_drop _ _).symm, labelled, rfl⟩)
    next => exact Or.inr (Or.inr rfl)

-----------------------------------------------------------------------------------------
-- Spellings
-----------------------------------------------------------------------------------------

theorem ungrouped?_toLower (chars : List Char)
    : ungrouped? (chars.map Char.toLower) = (ungrouped? chars).map (List.map Char.toLower) := by
  have lengths (body : List Char)
      : (groups (body.map Char.toLower)).map List.length = (groups body).map List.length := by
    rw [groups_toLower, List.map_map]
    exact List.map_congr_left fun group _ => List.length_map _
  have joined (body : List Char)
      : (groups (body.map Char.toLower)).flatten = (groups body).flatten.map Char.toLower := by
    rw [groups_toLower, List.map_flatten]
  simp only [ungrouped?, unwrap_toLower, lengths, joined]
  split
  next => rfl
  next => split <;> rfl

theorem ofChars_eq_ok {chars : List Char} {id : Uuid}
    : ofChars chars = .ok id
      ↔ chars ≠ [] ∧ octetLength chars ≤ 45 ∧ (ungrouped? chars).bind ofDigits? = some id := by
  rw [ofChars]
  split
  next refused =>
    simp only [Bool.or_eq_true, List.isEmpty_iff, decide_eq_true_eq] at refused
    constructor
    · intro read
      cases read
    · rintro ⟨some_, short, -⟩
      rcases refused with none_ | long
      · exact absurd none_ some_
      · exact absurd long (Nat.not_lt.mpr short)
  next accepted =>
    simp only [Bool.or_eq_true, List.isEmpty_iff, decide_eq_true_eq, not_or, Nat.not_lt] at accepted
    cases (ungrouped? chars).bind ofDigits? with
    | none => simp
    | some read => simp [accepted]

/-- Whether a text is read, and as which identifier, does not depend on the case of its letters. -/
theorem ofChars_toLower {chars : List Char} {id : Uuid}
    : ofChars (chars.map Char.toLower) = .ok id ↔ ofChars chars = .ok id := by
  have digits : ((ungrouped? chars).map (List.map Char.toLower)).bind ofDigits?
      = (ungrouped? chars).bind ofDigits? := by
    cases ungrouped? chars with
    | none => rfl
    | some found =>
        simp only [Option.map_some, Option.bind_some, ofDigits?, mapM_digit?_toLower]
  rw [ofChars_eq_ok, ofChars_eq_ok, octetLength_toLower, ungrouped?_toLower, digits, Ne,
    List.map_eq_nil_iff]

/-- The ways to write an identifier in small letters: with hyphens, without, in braces, and as a URN. -/
def spellings (id : Uuid) : List (List Char) :=
  [id.chars, id.digits.map digitChar, '{' :: (id.chars ++ ['}']), urnLabel ++ id.chars]

/-- A text spells an identifier in one of the four ways, in letters of either case. -/
def IsSpelled (id : Uuid) (text : String) : Prop := text.toList.map Char.toLower ∈ id.spellings

instance (id : Uuid) (text : String) : Decidable (id.IsSpelled text) :=
  inferInstanceAs (Decidable (_ ∈ _))

theorem digits_of_ofDigits? {chars : List Char} {id : Uuid} (read : ofDigits? chars = some id)
    : chars.map Char.toLower = id.digits.map digitChar := by
  rw [ofDigits?] at read
  split at read
  next => cases read
  next digits values =>
    split at read
    next =>
      obtain rfl := Option.some.inj read
      exact toLower_of_mapM_digit? values
    next => cases read

/-- What is between braces or behind a label is digits in groups; a text with neither may be all digits too. -/
theorem ungrouped?_cases {chars digits : List Char} (found : ungrouped? chars = some digits)
    : (unwrap chars).body = hyphenate groupLengths digits
      ∨ (unwrap chars).bare = true ∧ (unwrap chars).body = digits := by
  rw [ungrouped?] at found
  have whole := hyphenate_groups (unwrap chars).body
  split at found
  next grouped =>
    obtain rfl := Option.some.inj found
    rw [grouped] at whole
    exact Or.inl whole.symm
  next =>
    split at found
    next plain =>
      obtain rfl := Option.some.inj found
      simp only [Bool.and_eq_true, decide_eq_true_eq] at plain
      rw [plain.2] at whole
      exact Or.inr ⟨plain.1, whole.symm⟩
    next => cases found

theorem hyphenate_toLower (sizes : List Nat) (chars : List Char)
    : (hyphenate sizes chars).map Char.toLower = hyphenate sizes (chars.map Char.toLower) := by
  induction sizes generalizing chars with
  | nil => rfl
  | cons size others ih =>
      cases others with
      | nil => rfl
      | cons second others =>
          rw [hyphenate_cons_cons, hyphenate_cons_cons, List.map_append, List.map_take, List.map_cons, ih,
            List.map_drop]
          rfl

variable {id : Uuid}

/-- A text that is read as an identifier spells it. -/
theorem isSpelled_of_ofText {text : String} (read : ofText text = .ok id) : id.IsSpelled text := by
  obtain ⟨-, -, found⟩ := ofChars_eq_ok.mp read
  obtain ⟨digits, found, values⟩ := Option.bind_eq_some_iff.mp found
  have small := digits_of_ofDigits? values
  have grouped : (hyphenate groupLengths digits).map Char.toLower = id.chars := by
    rw [hyphenate_toLower, small, chars]
  simp only [IsSpelled, spellings, List.mem_cons, List.not_mem_nil, or_false]
  have cases_ := ungrouped?_cases found
  rcases unwrap_cases text.toList with ⟨body, braced, taken⟩ | ⟨label, body, labelled, own, taken⟩ | taken
  · simp only [taken, Bool.false_eq_true, false_and, or_false] at cases_
    rw [braced, cases_, List.map_cons, List.map_append, grouped]
    exact Or.inr (Or.inr (Or.inl rfl))
  · simp only [taken, Bool.false_eq_true, false_and, or_false] at cases_
    rw [labelled, cases_, List.map_append, own, grouped]
    exact Or.inr (Or.inr (Or.inr rfl))
  · simp only [taken, true_and] at cases_
    rcases cases_ with hyphenated | plain
    · rw [hyphenated, grouped]
      exact Or.inl rfl
    · rw [plain, small]
      exact Or.inr (Or.inl rfl)

/-- Braces are taken off again. -/
theorem unwrap_braces (body : List Char) : unwrap ('{' :: (body ++ ['}'])) = ⟨body, 1, false⟩ := by
  rw [unwrap, if_pos]
  · simp
  · simp [List.getLast?_cons]

/-- A label is taken off again. -/
theorem unwrap_label (body : List Char) : unwrap (urnLabel ++ body) = ⟨body, urnLabel.length, false⟩ := by
  have label : ((urnLabel ++ body).take urnLabel.length).map Char.toLower = urnLabel := by
    rw [List.take_left]
    decide
  rw [unwrap, if_neg (by simp [urnLabel]), if_pos label, List.drop_left]

/-- Digits without hyphens are one group. -/
theorem ungrouped?_digits (id : Uuid)
    : (ungrouped? (id.digits.map digitChar)).bind ofDigits? = some id := by
  have length : (id.digits.map digitChar).length = 32 := by rw [List.length_map, id.length_digits]
  have whole : unwrap (id.digits.map digitChar) = ⟨id.digits.map digitChar, 0, true⟩ := by
    generalize id.digits = digits at length
    cases digits with
    | nil => cases length
    | cons d rest => exact unwrap_digit d _
  have group : groups (id.digits.map digitChar) = [id.digits.map digitChar] := by
    refine groups_plain fun member => ?_
    obtain ⟨d, -, hyphen⟩ := List.mem_map.mp member
    exact (digit?_digitChar d).2.1 hyphen
  rw [ungrouped?, whole]
  simp only [group, List.map_cons, List.map_nil, length, groupLengths]
  simpa using id.ofDigits?_digits

/-- The characters that identifiers are spelled with in small letters. -/
def alphabet : List Char := "0123456789abcdef-\x7b\x7durn:id".toList

theorem digitChar_mem_alphabet : ∀ d : Fin 16, digitChar d ∈ alphabet := by decide

theorem chars_subset_alphabet (id : Uuid) : ∀ c ∈ id.chars, c ∈ alphabet := by
  intro c member
  rcases id.mem_chars member with ⟨d, rfl⟩ | rfl
  · exact digitChar_mem_alphabet d
  · decide

theorem mem_alphabet {chars : List Char} (spells : chars ∈ id.spellings)
    : ∀ c ∈ chars, c ∈ alphabet := by
  have own := id.chars_subset_alphabet
  simp only [spellings, List.mem_cons, List.not_mem_nil, or_false] at spells
  rcases spells with rfl | rfl | rfl | rfl
  · exact own
  · exact List.forall_mem_map.mpr fun d _ => digitChar_mem_alphabet d
  · have closing : ∀ c ∈ ['}'], c ∈ alphabet := List.forall_mem_singleton.mpr (by decide)
    exact List.forall_mem_cons.mpr ⟨by decide, List.forall_mem_append.mpr ⟨own, closing⟩⟩
  · have label : urnLabel ⊆ alphabet := by decide
    exact List.forall_mem_append.mpr ⟨label, own⟩

theorem ascii_of_alphabet : ∀ c ∈ alphabet, c.toNat < 0x80 := by
  intro c member
  have checked : alphabet.all (fun c => decide (c.toNat < 0x80)) = true := by decide
  exact of_decide_eq_true (List.all_eq_true.mp checked c member)

/-- The longest way to write an identifier is the URN. -/
theorem length_of_mem_spellings {chars : List Char} (spells : chars ∈ id.spellings)
    : 0 < chars.length ∧ chars.length ≤ 45 := by
  have length := id.length_chars
  simp only [spellings, List.mem_cons, List.not_mem_nil, or_false] at spells
  rcases spells with rfl | rfl | rfl | rfl
  · omega
  · simp [id.length_digits]
  · simp [length]
  · simp [length, urnLabel]

/-- The four ways to write an identifier are read as that identifier. -/
theorem ofChars_of_mem_spellings {chars : List Char} (spells : chars ∈ id.spellings)
    : ofChars chars = .ok id := by
  obtain ⟨some_, short⟩ := length_of_mem_spellings spells
  have ascii : Text.IsAscii chars := fun c member => ascii_of_alphabet c (mem_alphabet spells c member)
  refine ofChars_eq_ok.mpr ⟨List.ne_nil_of_length_pos some_, ?_, ?_⟩
  · rw [octetLength_of_ascii ascii]
    exact short
  simp only [spellings, List.mem_cons, List.not_mem_nil, or_false] at spells
  rcases spells with rfl | rfl | rfl | rfl
  · exact id.ungrouped?_grouped (by rw [unwrap_chars])
  · exact id.ungrouped?_digits
  · exact id.ungrouped?_grouped (by rw [unwrap_braces])
  · exact id.ungrouped?_grouped (by rw [unwrap_label])

/-- The texts that are read as an identifier are those that spell it. -/
theorem ofText_eq_ok_iff {text : String} : ofText text = .ok id ↔ id.IsSpelled text := by
  constructor
  · exact isSpelled_of_ofText
  · intro spelled
    exact ofChars_toLower.mp (ofChars_of_mem_spellings spelled)

end PersonRegistry.Uuid
