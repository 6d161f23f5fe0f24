import Mathlib.Data.Bool.AllAny
import PersonRegistry.Proofs.Text.Lowercase
import PersonRegistry.Proofs.Text.WrittenIntegers
import PersonRegistry.Settings.Environment

/-! What the values of environment variables end up as when they are asked for as texts: a value that looks like
a truth value or a number is taken for one, and comes back as that is printed.
-/

namespace PersonRegistry.Settings

open Text (Spells)

variable {value : String}

-----------------------------------------------------------------------------------------
-- What the values of variables are taken for
-----------------------------------------------------------------------------------------

/-- An integer that is taken for one has 64 bits. -/
def SpellsWord (value : String) (n : Int) : Prop :=
  Spells value.toList n ∧ -0x8000000000000000 ≤ n ∧ n < 0x8000000000000000

/-- The text that the value of a variable ends up as: the value itself, unless that is a truth value in either
case, an integer or a real number. Those are printed anew.
-/
inductive EndsUpAs (value : String) : String → Prop
  | truth {word : String} (known : word = "true" ∨ word = "false") (same : Text.lowercase value = word)
      : EndsUpAs value word
  | integer {n : Int} (spells : SpellsWord value n) : EndsUpAs value (String.ofList (Text.decimalInteger n))
  | real {x : ExtendedReal} (noInteger : ∀ n, ¬SpellsWord value n)
      (reads : ExtendedReal.ofChars? value.toList = some x) : EndsUpAs value (String.ofList x.text)
  | verbatim (noTruth : Text.lowercase value ≠ "true" ∧ Text.lowercase value ≠ "false")
      (noInteger : ∀ n, ¬SpellsWord value n) (noReal : ExtendedReal.ofChars? value.toList = none)
      : EndsUpAs value value

theorem readInteger_eq_ok {n : Int}
    : Text.readInteger .signed64 value.toList = .ok n ↔ SpellsWord value n := by
  have reads : (Text.readInteger .signed64 value.toList).toOption = some n
      ↔ Spells value.toList n ∧ Text.IntegerRange.signed64.holds n = true :=
    Text.toOption_readInteger (by decide)
  rw [Text.holds_signed64] at reads
  rw [SpellsWord, ← reads]
  cases Text.readInteger .signed64 value.toList <;> simp [Except.toOption]

/-- Asked for as a text, a variable always has one. -/
theorem exists_endsUpAs (value : String)
    : ∃ text, EndsUpAs value text ∧ (variableSetting value).asText = .ok text := by
  rw [variableSetting]
  split
  next small => exact ⟨"true", .truth (.inl rfl) small, rfl⟩
  next small => exact ⟨"false", .truth (.inr rfl) small, rfl⟩
  next noTrue noFalse =>
    split
    next n reads => exact ⟨_, .integer (readInteger_eq_ok.mp reads), rfl⟩
    next flaw refused =>
      have noInteger (n : Int) (spells : SpellsWord value n) : False := by
        rw [readInteger_eq_ok.mpr spells] at refused
        cases refused
      split
      next x reads => exact ⟨_, .real noInteger reads, rfl⟩
      next noReal => exact ⟨_, .verbatim ⟨noTrue, noFalse⟩ noInteger noReal, rfl⟩

-----------------------------------------------------------------------------------------
-- Values that are taken as they are
-----------------------------------------------------------------------------------------

/-- Characters that stand in addresses and paths, and neither in truth values nor in numbers. -/
def marks : List Char := ['/', '\\', ':', '_', '~']

theorem mem_takeSign {chars : List Char} {c : Char} (member : c ∈ chars)
    : c ∈ ['+', '-'] ∨ c ∈ (DecimalParts.takeSign chars).2 := by
  unfold DecimalParts.takeSign
  split
  next => exact (List.mem_cons.mp member).imp_left fun same => by simp [same]
  next => exact (List.mem_cons.mp member).imp_left fun same => by simp [same]
  next => exact .inr member

theorem mem_digits {chars : List Char} {c : Char} (member : c ∈ chars)
    : DecimalParts.isDigit c = true ∨ c ∈ chars.dropWhile DecimalParts.isDigit := by
  rw [← List.takeWhile_append_dropWhile (p := DecimalParts.isDigit) (l := chars)] at member
  exact (List.mem_append.mp member).imp_left fun digit => List.all_eq_true.mp List.all_takeWhile c digit

theorem mem_takeFraction {chars : List Char} {c : Char} (member : c ∈ chars)
    : c = '.' ∨ DecimalParts.isDigit c = true ∨ c ∈ (DecimalParts.takeFraction chars).2 := by
  unfold DecimalParts.takeFraction
  split
  next => exact (List.mem_cons.mp member).imp_right mem_digits
  next => exact .inr (.inr member)

/-- A decimal has digits, signs, a point and the letter of its exponent, and nothing else. -/
theorem of_mem_decimal {chars : List Char} {parts : DecimalParts} {c : Char}
    (reads : DecimalParts.ofChars? chars = some parts) (member : c ∈ chars)
    : DecimalParts.isDigit c = true ∨ c ∈ ['+', '-', '.', 'e', 'E'] := by
  simp only [DecimalParts.ofChars?] at reads
  rcases mem_takeSign member with sign | member
  · exact .inr (by grind)
  rcases mem_digits member with digit | member
  · exact .inl digit
  rcases mem_takeFraction member with rfl | digit | member
  · exact .inr (by decide)
  · exact .inl digit
  split at reads
  next nothing => rw [nothing] at member; cases member
  next mark rest found =>
    split at reads
    next exponent =>
      simp only [Bool.and_eq_true, Bool.or_eq_true, decide_eq_true_eq] at exponent
      rw [found] at member
      rcases List.mem_cons.mp member with rfl | member
      · exact .inr (by grind)
      rcases mem_takeSign member with sign | member
      · exact .inr (by grind)
      · exact .inl (List.all_eq_true.mp exponent.2 c member)
    next => cases reads

theorem isDigit_eq (c : Char) : DecimalParts.isDigit c = c.isDigit := by
  rw [DecimalParts.isDigit, Text.digitValue?_eq]
  cases c.isDigit <;> rfl

/-- A real number has no mark in it, by cases on its forms. -/
theorem ofChars?_of_mark {chars : List Char} {c : Char} (mark : c ∈ marks) (member : c ∈ chars)
    : ExtendedReal.ofChars? chars = none := by
  have noSign : ∀ c ∈ marks, c ∉ ['+', '-'] := List.all_iff_forall_prop.mp (by decide)
  have inside : c ∈ (DecimalParts.takeSign chars).2 := (mem_takeSign member).resolve_left (noSign c mark)
  have noDecimal : DecimalParts.ofChars? chars = none := by
    have other : ∀ c ∈ marks, ¬(c.isDigit = true ∨ c ∈ ['+', '-', '.', 'e', 'E']) :=
      List.all_iff_forall_prop.mp (by decide)
    refine Option.eq_none_iff_forall_ne_some.mpr fun parts reads => other c mark ?_
    rw [← isDigit_eq]
    exact of_mem_decimal reads member
  have noWord (word : List Char) (letters : (marks.all fun c => c.toLower ∉ word) = true)
      (same : String.ofList ((DecimalParts.takeSign chars).2.map Char.toLower) = String.ofList word)
      : False := by
    refine List.all_iff_forall_prop.mp letters c mark ?_
    rw [← String.ofList_inj.mp same]
    exact List.mem_map_of_mem inside
  rw [ExtendedReal.ofChars?]
  simp only [noDecimal]
  split
  next same => exact (noWord ['i', 'n', 'f'] (by decide) same).elim
  next same => exact (noWord ['i', 'n', 'f', 'i', 'n', 'i', 't', 'y'] (by decide) same).elim
  next same => exact (noWord ['n', 'a', 'n'] (by decide) same).elim
  next => rfl

/-- A mark stays in small letters, by induction on the text. -/
theorem mem_lowercaseAfter_of_mark {before text : List Char} {c : Char} (mark : c ∈ marks) (member : c ∈ text)
    : c ∈ Text.lowercaseAfter before text := by
  have plain : ∀ c ∈ marks, c ≠ 'Σ' ∧ c ≠ 'İ' ∧ Text.lowerChar c = c :=
    List.all_iff_forall_prop.mp (by decide +kernel)
  induction text generalizing before with
  | nil => cases member
  | cons d rest ih =>
      rw [Text.lowercaseAfter]
      rcases List.mem_cons.mp member with rfl | later
      · obtain ⟨noSigma, noDot, same⟩ := plain c mark
        rw [Text.lowerInPlace, if_neg noSigma, if_neg noDot, same]
        exact List.mem_append_left _ List.mem_cons_self
      · exact List.mem_append_right _ (ih later)

/-- A value with a mark in it is taken as it is. -/
theorem EndsUpAs.eq_of_mark {text : String} (endsUp : EndsUpAs value text) {c : Char} (mark : c ∈ marks)
    (member : c ∈ value.toList)
    : text = value := by
  cases endsUp with
  | truth known small =>
      have noLetter : ∀ c ∈ marks, c ∉ "true".toList ∧ c ∉ "false".toList :=
        List.all_iff_forall_prop.mp (by decide)
      have kept : c ∈ (Text.lowercase value).toList := by
        rw [Text.lowercase, String.toList_ofList]
        exact mem_lowercaseAfter_of_mark mark member
      rw [small] at kept
      rcases known with rfl | rfl
      · exact absurd kept (noLetter c mark).1
      · exact absurd kept (noLetter c mark).2
  | integer spells =>
      have noDigit : ∀ c ∈ marks, c.isDigit = false ∧ c ∉ ['+', '-'] :=
        List.all_iff_forall_prop.mp (by decide)
      rcases spells.1.mem member with digit | sign
      · rw [(noDigit c mark).1] at digit
        cases digit
      · exact absurd sign (noDigit c mark).2
  | real noInteger reads =>
      rw [ofChars?_of_mark mark member] at reads
      cases reads
  | verbatim => rfl

end PersonRegistry.Settings
