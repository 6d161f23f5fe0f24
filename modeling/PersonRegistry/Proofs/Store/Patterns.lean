import Mathlib.Data.List.TakeWhile
import PersonRegistry.Proofs.Text.Lowercase
import PersonRegistry.Store.Row

/-! The pattern for a start of a name part matches the search keys that start so, as far as matching sees
them.
-/

namespace PersonRegistry.Store

-----------------------------------------------------------------------------------------
-- Patterns of letters
-----------------------------------------------------------------------------------------

theorem escaped_cons (c : Char) (rest : List Char)
    : escaped (c :: rest) = (if isSpecial c then [escapeMark, c] else [c]) ++ escaped rest := rfl

/-- What is escaped stands for itself, by induction on the characters. -/
theorem patternParts_escaped (chars rest : List Char)
    : patternParts (escaped chars ++ rest) = chars.map .letter ++ patternParts rest := by
  induction chars with
  | nil => rfl
  | cons c more ih =>
      rw [escaped_cons, List.append_assoc, List.map_cons, List.cons_append, ← ih]
      cases special : isSpecial c with
      | true => simp [patternParts]
      | false =>
          simp only [isSpecial, Bool.or_eq_false_iff, decide_eq_false_iff_not] at special
          obtain ⟨⟨noMark, noRun⟩, noOne⟩ := special
          simp only [Bool.false_eq_true, if_false, List.singleton_append]
          rw [patternParts.eq_def]
          simp only [noMark, noRun, noOne, if_false]

def Small (chars : List Char) : Prop := ∀ c ∈ chars, c.toLower = c

theorem sameLetter_small {c d : Char} (smallC : c.toLower = c) (smallD : d.toLower = d)
    : sameLetter c d = (c == d) := by
  rw [sameLetter, smallC, smallD]
  rfl

theorem matchesParts_run (text : List Char) : matchesParts [.run] text = true := by
  rw [matchesParts, List.any_eq_true]
  refine ⟨[], ?_, rfl⟩
  induction text with
  | nil => exact List.mem_singleton.mpr rfl
  | cons _ rest ih => exact List.mem_cons_of_mem _ ih

/-- Letters before the wildcard are a start of the text, by induction on them. -/
theorem matchesParts_start {letters text : List Char} (smallLetters : Small letters)
    (smallText : Small text)
    : matchesParts (letters.map .letter ++ [.run]) text = letters.isPrefixOf text := by
  induction letters generalizing text with
  | nil => exact matchesParts_run text
  | cons c rest ih =>
      cases text with
      | nil => rfl
      | cons d more =>
          obtain ⟨smallC, smallRest⟩ := List.forall_mem_cons.mp smallLetters
          obtain ⟨smallD, smallMore⟩ := List.forall_mem_cons.mp smallText
          rw [List.map_cons, List.cons_append, matchesParts, ih smallRest smallMore,
            sameLetter_small smallC smallD, List.isPrefixOf]

/-- Without a wildcard, letters are the whole of the text. -/
theorem matchesParts_whole {letters text : List Char} (smallLetters : Small letters)
    (smallText : Small text)
    : matchesParts (letters.map .letter) text = (letters == text) := by
  induction letters generalizing text with
  | nil => cases text <;> rfl
  | cons c rest ih =>
      cases text with
      | nil => rfl
      | cons d more =>
          obtain ⟨smallC, smallRest⟩ := List.forall_mem_cons.mp smallLetters
          obtain ⟨smallD, smallMore⟩ := List.forall_mem_cons.mp smallText
          rw [List.map_cons, matchesParts, ih smallRest smallMore, sameLetter_small smallC smallD,
            List.cons_beq_cons]

-----------------------------------------------------------------------------------------
-- What matching sees
-----------------------------------------------------------------------------------------

theorem isSpecial_seen (c : Char) : isSpecial (seen c) = isSpecial c := by
  rw [seen]
  split
  next strange =>
    have plain : isSpecial c = false := by
      simp only [Bool.or_eq_true, decide_eq_true_eq] at strange
      simp only [isSpecial, Bool.or_eq_false_iff, decide_eq_false_iff_not]
      refine ⟨⟨?_, ?_⟩, ?_⟩ <;> rintro rfl <;> revert strange <;> decide
    rw [plain]
    rfl
  next => rfl

theorem seen_of_isSpecial {c : Char} (special : isSpecial c = true) : seen c = c := by
  rw [seen]
  split
  next strange =>
    rw [← isSpecial_seen, seen, if_pos strange] at special
    cases special
  next => rfl

/-- What is seen of an escaped text is what is seen of the text, escaped. -/
theorem map_seen_escaped (chars : List Char)
    : (escaped chars).map seen = escaped (chars.map seen) := by
  simp only [escaped, List.map_flatMap, List.flatMap_map, isSpecial_seen]
  refine congrArg (List.flatMap · chars) (funext fun c => ?_)
  cases special : isSpecial c with
  | true => simp [seen_of_isSpecial special, seen_of_isSpecial (c := escapeMark) rfl]
  | false => simp

/-- A pattern goes as far as the null character asked for, if there is one, by induction on what is asked
for.
-/
theorem takeWhile_escaped (chars : List Char)
    : (escaped chars ++ [anyRun]).takeWhile (· ≠ '\x00')
      = escaped (chars.takeWhile (· ≠ '\x00')) ++ if '\x00' ∈ chars then [] else [anyRun] := by
  induction chars with
  | nil => rfl
  | cons c rest ih =>
      by_cases null : c = '\x00'
      · subst null
        simp [escaped, isSpecial, escapeMark, anyRun, anyOne]
      -- neither a character nor its escape mark is the null character
      · have passed : ∀ d ∈ (if isSpecial c then [escapeMark, c] else [c]),
            decide (d ≠ '\x00') = true := by
          intro d member
          refine decide_eq_true ?_
          rintro rfl
          cases special : isSpecial c with
          | true => simp [special, escapeMark, Ne.symm null] at member
          | false => simp [special, Ne.symm null] at member
        rw [escaped_cons, List.append_assoc, List.takeWhile_append_of_pos passed, ih]
        simp [null, escaped_cons, Ne.symm null]

theorem visiblePart_pattern (chars : List Char)
    : visiblePart (escaped chars ++ [anyRun])
      = escaped (visiblePart chars) ++ if '\x00' ∈ chars then [] else [anyRun] := by
  rw [visiblePart, takeWhile_escaped, List.map_append, map_seen_escaped, visiblePart]
  split <;> rfl

/-- What is seen of a search key has no capitals. -/
theorem small_visiblePart_searchKey (part : String) : Small (visiblePart (searchKey part).toList) := by
  intro c member
  obtain ⟨d, kept, rfl⟩ := List.mem_map.mp member
  have small := Text.toLower_of_mem_lowercase ((List.takeWhile_sublist _).subset kept)
  rw [seen]
  split
  next => rfl
  next => exact small

-----------------------------------------------------------------------------------------
-- Starts of name parts
-----------------------------------------------------------------------------------------

/-- A name part starts as asked for, in small letters. -/
def startsAs (start part : String) : Bool :=
  (searchKey start).toList.isPrefixOf (searchKey part).toList

/-- A name part starts as asked for as far as matching sees either. A null character hides what is asked
for behind it and that anything may follow, so that all that is seen of the part must agree.
-/
def startsAsSeen (start part : String) : Bool :=
  let asked := visiblePart (searchKey start).toList
  let there := visiblePart (searchKey part).toList
  if '\x00' ∈ (searchKey start).toList then asked == there else asked.isPrefixOf there

/-- The pattern for a start matches the name parts that start so, as far as matching sees them. -/
theorem isLike_startPattern (start part : String)
    : isLike (startPattern start) (searchKey part) = startsAsSeen start part := by
  have smallStart := small_visiblePart_searchKey start
  have smallPart := small_visiblePart_searchKey part
  rw [isLike, startPattern, String.toList_ofList, visiblePart_pattern, patternParts_escaped,
    startsAsSeen]
  split
  next =>
    rw [patternParts, List.append_nil]
    exact matchesParts_whole smallStart smallPart
  next => exact matchesParts_start smallStart smallPart

/-- A text without the two code points that are no characters. -/
def IsAssigned (text : String) : Prop :=
  ∀ c ∈ text.toList, c.toNat ≠ 0xfffe ∧ c.toNat ≠ 0xffff

instance (text : String) : Decidable (IsAssigned text) :=
  List.decidableBAll (fun c : Char => c.toNat ≠ 0xfffe ∧ c.toNat ≠ 0xffff) text.toList

/-- A search key has no code points that are no characters but those of the text. -/
theorem map_seen_searchKey {text : String} (assigned : IsAssigned text)
    {chars : List Char} (within : chars ⊆ (searchKey text).toList)
    : chars.map seen = chars := by
  refine (List.map_congr_left fun c member => ?_).trans (List.map_id chars)
  have plain : c.toNat ≠ 0xfffe ∧ c.toNat ≠ 0xffff := by
    rcases Text.mem_lowercase (within member) with ⟨old, -⟩ | lowered
    · exact assigned c old
    · exact lowered.assigned.2
  simp [seen, plain]

/-- Nothing is hidden from matching where there is no null character asked for and no code point that is
no character. A null character in the part does no harm, since it is not asked for.
-/
theorem startsAsSeen_eq {start part : String} (noNull : '\x00' ∉ start.toList)
    (assignedStart : IsAssigned start) (assignedPart : IsAssigned part)
    : startsAsSeen start part = startsAs start part := by
  have noNullKey : '\x00' ∉ (searchKey start).toList := by
    intro member
    rcases Text.mem_lowercase member with ⟨old, -⟩ | lowered
    · exact noNull old
    · exact absurd lowered.small (by decide)
  have whole : ∀ c ∈ (searchKey start).toList, decide (c ≠ '\x00') = true := by
    intro c member
    refine decide_eq_true ?_
    rintro rfl
    exact noNullKey member
  have all : (searchKey start).toList.takeWhile (· ≠ '\x00') = (searchKey start).toList :=
    List.takeWhile_eq_self_iff.mpr whole
  rw [startsAsSeen, startsAs, if_neg noNullKey, visiblePart, visiblePart, all,
    map_seen_searchKey assignedStart (List.Subset.refl _),
    map_seen_searchKey assignedPart (List.takeWhile_sublist _).subset, Bool.eq_iff_iff,
    List.isPrefixOf_iff_prefix, List.isPrefixOf_iff_prefix]
  constructor
  -- the start has no null character, so it ends before that of the part
  · exact fun starts => starts.trans (List.takeWhile_prefix _)
  · rintro ⟨rest, same⟩
    rw [← same, List.takeWhile_append_of_pos whole]
    exact List.prefix_append _ _

/-- A condition on a name part asks for the start as it is written, with the characters that are special in
patterns standing for themselves. It never fails, unless the pattern is too long.
-/
theorem keyCondition_literal {start part : String} (noNull : '\x00' ∉ start.toList)
    (assignedStart : IsAssigned start) (assignedPart : IsAssigned part)
    (short : (Text.Utf8.ofString (startPattern start)).length ≤ patternLimit)
    : keyCondition (some (startPattern start)) (some (searchKey part))
      = .ok (decide ((searchKey start).toList <+: (searchKey part).toList)) := by
  have within : ¬isTooLong (startPattern start) = true := by
    intro long
    exact Nat.not_lt.mpr short (of_decide_eq_true long)
  have matched : isLike (startPattern start) (searchKey part)
      = decide ((searchKey start).toList <+: (searchKey part).toList) := by
    rw [isLike_startPattern, startsAsSeen_eq noNull assignedStart assignedPart, startsAs,
      Bool.eq_iff_iff, List.isPrefixOf_iff_prefix, decide_eq_true_iff]
  rw [keyCondition, if_neg within, Option.any_some, matched]

/-- Marks that would match anything stand for themselves, and letters for both of their cases. -/
theorem keyCondition_literal_marks
    : keyCondition (some (startPattern "50%_Я\\K")) (some (searchKey "50%_я\\kn")) = .ok true
      ∧ keyCondition (some (startPattern "5%")) (some (searchKey "50%")) = .ok false := by
  constructor
  · rw [keyCondition_literal (by decide) (by decide) (by decide) (by decide +kernel)]
    exact congrArg Except.ok (by decide +kernel)
  · rw [keyCondition_literal (by decide) (by decide) (by decide) (by decide +kernel)]
    exact congrArg Except.ok (by decide +kernel)

end PersonRegistry.Store
