import PersonRegistry.Proofs.Text.Ascii
import PersonRegistry.Proofs.Time.Timestamps

/-! Texts of instants are sorted as octets: all have one length, and the first octet that differs tells which
instant is earlier.
-/

namespace PersonRegistry.Time

open Text (IsAscii paddedDigits)
open Text.Utf8 (encode ofString)

-----------------------------------------------------------------------------------------
-- Numbers in their layout
-----------------------------------------------------------------------------------------

/-- Digits in front of an ASCII mark are ASCII, by induction on the width of the number. -/
theorem isAscii_paddedDigits {width n : Nat} (wide : 0 < width) (fits : n < 10 ^ width)
    : IsAscii (paddedDigits width n) := by
  have digit {d : Nat} (small : d < 10) : d.digitChar.toNat < 0x80 := by
    rw [Nat.toNat_digitChar_of_lt_ten small]
    omega
  induction wide generalizing n with
  | refl =>
      intro c member
      rw [paddedDigits_one fits] at member
      obtain rfl := List.mem_singleton.mp member
      exact digit fits
  | step wide ih =>
      intro c member
      rw [paddedDigits_succ wide] at member
      rcases List.mem_append.mp member with front | last
      · exact ih (by omega) c front
      · obtain rfl := List.mem_singleton.mp last
        exact digit (Nat.mod_lt n (by decide))

/-- Numbers that fit their layout take up all of it, by induction on the layout. -/
theorem length_written {layout : List (Nat × Char)} {numbers : List Nat} (fits : Fits layout numbers)
    : (written layout numbers).length = (layout.map fun place => place.1 + 1).sum := by
  induction fits with
  | nil => rfl
  | cons fit _ ih =>
      rw [written, List.length_append, List.length_cons, length_paddedDigits fit.1 fit.2, ih,
        List.map_cons, List.sum_cons]
      omega

/-- Numbers between ASCII marks are ASCII, by induction on the layout. -/
theorem isAscii_written {layout : List (Nat × Char)} {numbers : List Nat} (fits : Fits layout numbers)
    (marks : ∀ place ∈ layout, place.2.toNat < 0x80)
    : IsAscii (written layout numbers) := by
  induction fits with
  | nil => exact List.forall_mem_nil _
  | cons fit _ ih =>
      obtain ⟨mark, others⟩ := List.forall_mem_cons.mp marks
      intro c member
      rcases List.mem_append.mp member with digit | later
      · exact isAscii_paddedDigits fit.1 fit.2 c digit
      · rcases List.mem_cons.mp later with rfl | later
        · exact mark
        · exact ih others c later

-----------------------------------------------------------------------------------------
-- Octets of instants
-----------------------------------------------------------------------------------------

namespace Instant

theorem Regular.isAscii {t : Instant} (regular : t.Regular) : IsAscii t.chars := by
  rw [regular.chars_eq]
  exact isAscii_written regular.fits (by decide)

/-- Twenty digits, each number followed by a mark. -/
theorem Regular.length_octets {t : Instant} (regular : t.Regular)
    : (ofString t.text).length = 27 := by
  rw [ofString, text, String.toList_ofList, Text.Utf8.length_encode_of_ascii regular.isAscii,
    regular.chars_eq, length_written regular.fits]
  rfl

/-- The octets of an earlier instant come first. -/
theorem octets_lt {a b : Instant} (regularA : a.Regular) (regularB : b.Regular)
    (before : a.microseconds < b.microseconds)
    : ofString a.text < ofString b.text := by
  have texts := text_lt regularA regularB before
  simp only [text, String.lt_iff, String.toList_ofList] at texts
  simp only [ofString, text, String.toList_ofList]
  exact Text.Utf8.encode_lt_encode regularA.isAscii regularB.isAscii texts

/-- Instants that differ to the microsecond differ in their octets. -/
theorem octets_ne {a b : Instant} (regularA : a.Regular) (regularB : b.Regular)
    (before : a.microseconds < b.microseconds)
    : ofString a.text ≠ ofString b.text := by
  intro same
  have octets := octets_lt regularA regularB before
  rw [same] at octets
  exact List.lt_irrefl _ octets

/-- Nothing is left of an instant behind whole microseconds. -/
theorem eq_of_microseconds {a b : Instant} (regularA : a.Regular) (regularB : b.Regular)
    (wholeA : a.nanoseconds % 1000 = 0) (wholeB : b.nanoseconds % 1000 = 0)
    (same : a.microseconds = b.microseconds)
    : a = b := by
  obtain ⟨secondsA, nanosecondsA⟩ := a
  obtain ⟨secondsB, nanosecondsB⟩ := b
  have shortA := regularA.nanoseconds
  have shortB := regularB.nanoseconds
  simp only [microseconds] at *
  obtain ⟨rfl, rfl⟩ : secondsA = secondsB ∧ nanosecondsA = nanosecondsB := by omega
  rfl

/-- Texts of instants are as long as each other, and their octets come in the order of the instants to the
microsecond. Either way round, since of two instants one is earlier or both are the same to the
microsecond.
-/
theorem octets_ordered {a b : Instant} (regularA : a.Regular) (regularB : b.Regular)
    : (ofString a.text).length = (ofString b.text).length
      ∧ (ofString a.text < ofString b.text ↔ a.microseconds < b.microseconds)
      ∧ (ofString a.text = ofString b.text ↔ a.microseconds = b.microseconds)
      ∧ (a.nanoseconds % 1000 = 0 → b.nanoseconds % 1000 = 0 → a.text = b.text → a = b) := by
  have apart (same : ofString a.text = ofString b.text) : a.microseconds = b.microseconds := by
    rcases Int.lt_trichotomy a.microseconds b.microseconds with less | alike | greater
    · exact absurd same (octets_ne regularA regularB less)
    · exact alike
    · exact absurd same.symm (octets_ne regularB regularA greater)
  refine ⟨regularA.length_octets.trans regularB.length_octets.symm, ⟨?_, octets_lt regularA regularB⟩,
    ⟨apart, ?_⟩, ?_⟩
  · intro octets
    rcases Int.lt_trichotomy a.microseconds b.microseconds with less | alike | greater
    · exact less
    · rw [text_eq regularA regularB alike] at octets
      exact absurd octets (List.lt_irrefl _)
    · exact absurd octets (List.lt_asymm (octets_lt regularB regularA greater))
  · intro alike
    rw [text_eq regularA regularB alike]
  · intro wholeA wholeB texts
    exact eq_of_microseconds regularA regularB wholeA wholeB (apart (congrArg ofString texts))

/-- The last microsecond of a leap day of a century, which is earlier than the first of March. -/
theorem octets_ordered_leap_day
    : let a : Instant := ⟨951868799, 999999999⟩
      let b : Instant := ⟨951868800, 0⟩
      a.text = "2000-02-29T23:59:59.999999Z" ∧ b.text = "2000-03-01T00:00:00.000000Z"
        ∧ ofString a.text < ofString b.text := by
  intro a b
  have regularA : a.Regular := by decide +kernel
  have regularB : b.Regular := by decide +kernel
  have ordered := octets_ordered regularA regularB
  exact ⟨by decide +kernel, by decide +kernel, ordered.2.1.mpr (by decide +kernel)⟩

end Instant
end PersonRegistry.Time
