import Mathlib.Algebra.Ring.Nat
import Mathlib.Data.List.Forall2
import Mathlib.Order.Monotone.Basic
import PersonRegistry.Time.Instant

/-! Dates and the texts of instants come in the order of time. -/

namespace PersonRegistry.Time

-----------------------------------------------------------------------------------------
-- The calendar
-----------------------------------------------------------------------------------------

/-- A later day of the era lies in no earlier year. -/
theorem yearOfEra_mono : Monotone yearOfEra := by
  refine monotone_nat_of_le_succ fun day => ?_
  refine Nat.div_le_div_right ?_
  omega

/-- Each year of the era starts right behind its days before, and the day before lies in an earlier
year.
-/
theorem yearOfEra_daysBefore
    : ∀ year < 400,
        yearOfEra (daysBefore year) = year
        ∧ (0 < year → yearOfEra (daysBefore year - 1) < year) := by
  decide +kernel

theorem yearOfEra_lt {day : Nat} (within : day < 146097) : yearOfEra day < 400 := by
  rw [yearOfEra]
  omega

theorem dayOfEra_lt (days : Int) : (days % daysOfEra).toNat < 146097 := by
  rw [daysOfEra]
  omega

theorem daysBefore_le {day : Nat} (within : day < 146097) : daysBefore (yearOfEra day) ≤ day := by
  refine Nat.le_of_not_lt fun early => ?_
  have positive : 0 < yearOfEra day := by
    refine Nat.pos_of_ne_zero fun zero => ?_
    rw [zero] at early
    exact Nat.not_lt_zero day early
  have earlier := (yearOfEra_daysBefore _ (yearOfEra_lt within)).2 positive
  exact absurd (yearOfEra_mono (Nat.le_sub_one_of_lt early)) (Nat.not_le.mpr earlier)

theorem dayOfYear_le {day : Nat} (within : day < 146097)
    : day - daysBefore (yearOfEra day) ≤ 365 := by
  have small := yearOfEra_lt within
  by_cases last : yearOfEra day = 399
  · rw [last, daysBefore]
    omega
  · have next : day < daysBefore (yearOfEra day + 1) := by
      refine Nat.lt_of_not_le fun late => ?_
      have later := yearOfEra_mono late
      rw [(yearOfEra_daysBefore _ (by omega)).1] at later
      omega
    rw [daysBefore] at next ⊢
    omega

def Date.Before (a b : Date) : Prop :=
  a.year < b.year
  ∨ a.year = b.year ∧ (a.month < b.month ∨ a.month = b.month ∧ a.day < b.day)

/-- The days of years from March come in order: January and February belong to the year after. -/
theorem Date.ofMarch_before {yearA yearB : Int} {dayA dayB : Nat} (endA : dayA ≤ 365)
    (before : yearA < yearB ∨ yearA = yearB ∧ dayA < dayB)
    : (ofMarch yearA dayA).Before (ofMarch yearB dayB) := by
  simp only [ofMarch, Before]
  split <;> split <;> simp only <;> omega

theorem Date.ofDays_before {a b : Int} (before : a < b) : (ofDays a).Before (ofDays b) := by
  have eras : (a + 719468) / daysOfEra < (b + 719468) / daysOfEra
      ∨ (a + 719468) / daysOfEra = (b + 719468) / daysOfEra
        ∧ ((a + 719468) % daysOfEra).toNat < ((b + 719468) % daysOfEra).toNat := by
    rw [daysOfEra]
    omega
  have withinA := dayOfEra_lt (a + 719468)
  have withinB := dayOfEra_lt (b + 719468)
  simp only [ofDays]
  generalize ((a + 719468) % daysOfEra).toNat = dayA at *
  generalize ((b + 719468) % daysOfEra).toNat = dayB at *
  refine ofMarch_before (dayOfYear_le withinA) ?_
  rcases eras with earlier | ⟨same, earlier⟩
  -- a year of an earlier era is earlier, as an era has 400 years
  · have yearA := yearOfEra_lt withinA
    omega
  · have startA := daysBefore_le withinA
    rcases Nat.lt_or_eq_of_le (yearOfEra_mono (Nat.le_of_lt earlier)) with less | equal
    · omega
    -- within a year, days are counted from its start
    · rw [equal] at startA ⊢
      omega

theorem Date.ofDays_fits (days : Int) : (ofDays days).month < 100 ∧ (ofDays days).day < 100 := by
  have length := dayOfYear_le (dayOfEra_lt (days + 719468))
  simp only [ofDays, ofMarch]
  split <;> simp only <;> omega

-----------------------------------------------------------------------------------------
-- Numbers of a fixed width
-----------------------------------------------------------------------------------------

theorem append_lt_append {a b : List Char} (before : a < b) (even : a.length = b.length)
    (s t : List Char)
    : a ++ s < b ++ t := by
  induction a generalizing b with
  | nil =>
      rw [List.eq_nil_of_length_eq_zero even.symm] at before
      cases before
  | cons c rest ih =>
      cases b with
      | nil => cases even
      | cons d more =>
          rw [List.cons_append, List.cons_append, List.cons_lt_cons_iff]
          rcases List.cons_lt_cons_iff.mp before with less | ⟨same, less⟩
          · exact Or.inl less
          · exact Or.inr ⟨same, ih less (Nat.succ.inj even)⟩

theorem digitChar_lt {a b : Nat} (before : a < b) (digit : b < 10)
    : a.digitChar < b.digitChar := by
  rw [Char.lt_def, UInt32.lt_iff_toNat_lt]
  have valueA := Nat.toNat_digitChar_of_lt_ten (Nat.lt_trans before digit)
  have valueB := Nat.toNat_digitChar_of_lt_ten digit
  simp only [Char.toNat] at valueA valueB
  omega

theorem paddedDigits_one {n : Nat} (digit : n < 10) : Text.paddedDigits 1 n = [n.digitChar] := by
  rw [Text.paddedDigits, Text.decimalDigits, Nat.toDigits_of_lt_base digit]
  rfl

/-- The last digit of a number stands behind the digits of its tenth. -/
theorem paddedDigits_succ {width : Nat} (wide : 0 < width) (n : Nat)
    : Text.paddedDigits (width + 1) n
      = Text.paddedDigits width (n / 10) ++ [Nat.digitChar (n % 10)] := by
  simp only [Text.paddedDigits, Text.decimalDigits]
  by_cases small : n < 10
  · rw [Nat.toDigits_of_lt_base small, Nat.div_eq_of_lt small, Nat.toDigits_zero,
      Nat.mod_eq_of_lt small]
    obtain ⟨fewer, rfl⟩ := Nat.exists_eq_succ_of_ne_zero (Nat.ne_of_gt wide)
    simp [List.replicate_succ']
  · rw [Nat.toDigits_of_base_le (by decide) (Nat.le_of_not_lt small)]
    simp

theorem length_paddedDigits {width n : Nat} (wide : 0 < width) (fits : n < 10 ^ width)
    : (Text.paddedDigits width n).length = width := by
  induction wide generalizing n with
  | refl =>
      rw [paddedDigits_one fits]
      rfl
  | step wide ih =>
      rw [paddedDigits_succ wide, List.length_append, ih (by omega)]
      rfl

/-- Numbers of the same width come in order as texts, by induction on the width. -/
theorem paddedDigits_lt {width a b : Nat} (wide : 0 < width) (before : a < b)
    (fits : b < 10 ^ width)
    : Text.paddedDigits width a < Text.paddedDigits width b := by
  induction wide generalizing a b with
  | refl =>
      rw [paddedDigits_one fits, paddedDigits_one (Nat.lt_trans before fits)]
      exact List.cons_lt_cons_iff.mpr (Or.inl (digitChar_lt before fits))
  | step wide ih =>
      rw [paddedDigits_succ wide, paddedDigits_succ wide]
      rcases Nat.lt_or_eq_of_le (Nat.div_le_div_right (c := 10) (Nat.le_of_lt before)) with less | same
      · refine append_lt_append (ih less (by omega)) ?_ _ _
        rw [length_paddedDigits wide (by omega), length_paddedDigits wide (by omega)]
      · rw [same]
        refine List.append_left_lt (List.cons_lt_cons_iff.mpr (Or.inl ?_))
        exact digitChar_lt (by omega) (Nat.mod_lt b (by decide))

-----------------------------------------------------------------------------------------
-- Texts of instants
-----------------------------------------------------------------------------------------

/-- The widths of the numbers in the text of an instant, and the marks behind them. -/
def layout : List (Nat × Char) :=
  [(4, '-'), (2, '-'), (2, 'T'), (2, ':'), (2, ':'), (2, '.'), (6, 'Z')]

/-- Numbers written in their widths, each with its mark. -/
def written : List (Nat × Char) → List Nat → List Char
  | (width, mark) :: layout, n :: numbers =>
      Text.paddedDigits width n ++ mark :: written layout numbers
  | _, _ => []

def Fits : List (Nat × Char) → List Nat → Prop :=
  List.Forall₂ fun place n => 0 < place.1 ∧ n < 10 ^ place.1

/-- The first number that differs decides, in the texts as in the numbers, by induction on the
layout.
-/
theorem written_lt {layout : List (Nat × Char)} {a b : List Nat} (fitsA : Fits layout a)
    (fitsB : Fits layout b) (before : a < b)
    : written layout a < written layout b := by
  induction fitsA generalizing b with
  | nil =>
      cases fitsB
      cases before
  | cons fitA _ ih =>
      cases fitsB with
      | cons fitB fitsB =>
          rcases List.cons_lt_cons_iff.mp before with less | ⟨rfl, less⟩
          · refine append_lt_append (paddedDigits_lt fitA.1 less fitB.2) ?_ _ _
            rw [length_paddedDigits fitA.1 fitA.2, length_paddedDigits fitA.1 fitB.2]
          · exact List.append_left_lt (List.cons_lt_cons_iff.mpr (Or.inr ⟨rfl, ih fitsB less⟩))

namespace Instant

/-- An instant of a year in four digits that is no leap second. -/
structure Regular (t : Instant) : Prop where
  nanoseconds : t.nanoseconds < 1000000000
  year : 0 ≤ t.date.year ∧ t.date.year ≤ 9999

instance (t : Instant) : Decidable t.Regular :=
  decidable_of_iff (t.nanoseconds < 1000000000 ∧ 0 ≤ t.date.year ∧ t.date.year ≤ 9999)
    ⟨fun ⟨short, year⟩ => ⟨short, year⟩, fun regular => ⟨regular.nanoseconds, regular.year⟩⟩

def microseconds (t : Instant) : Int := t.seconds * 1000000 + t.nanoseconds / 1000

def numbers (t : Instant) : List Nat :=
  [t.date.year.natAbs, t.date.month, t.date.day, t.secondOfDay / 3600, t.secondOfDay / 60 % 60,
    t.secondOfDay % 60, t.nanoseconds / 1000]

theorem Regular.chars_eq {t : Instant} (regular : t.Regular)
    : t.chars = written layout t.numbers := by
  obtain ⟨short, first, last⟩ := regular
  simp only [chars, yearChars, first, last, decide_true, Bool.and_self, if_true, written, layout, numbers,
    Nat.mod_eq_of_lt short, Nat.div_eq_of_lt short, Nat.add_zero, List.append_assoc, List.cons_append]

theorem Regular.fits {t : Instant} (regular : t.Regular) : Fits layout t.numbers := by
  obtain ⟨short, first, last⟩ := regular
  have day := Date.ofDays_fits (t.seconds / 86400)
  have second : t.secondOfDay < 86400 := by
    rw [secondOfDay]
    omega
  simp only [Fits, layout, numbers, List.forall₂_cons, List.forall₂_nil_left_iff, and_true]
  simp only [date] at *
  omega

/-- The hours, minutes and seconds of a day come in order. -/
theorem clock_lt {a b : Nat} (before : a < b)
    : a / 3600 < b / 3600
      ∨ a / 3600 = b / 3600
        ∧ (a / 60 % 60 < b / 60 % 60 ∨ a / 60 % 60 = b / 60 % 60 ∧ a % 60 < b % 60) := by
  have hours (n : Nat) : n / 3600 = n / 60 / 60 := (Nat.div_div_eq_div_mul n 60 60).symm
  rw [hours, hours]
  omega

/-- The numbers of instants come in order. The day decides first, then the second of the day. -/
theorem numbers_lt {a b : Instant} (regularA : a.Regular) (regularB : b.Regular)
    (before : a.microseconds < b.microseconds)
    : a.numbers < b.numbers := by
  obtain ⟨shortA, firstA, -⟩ := regularA
  obtain ⟨shortB, firstB, -⟩ := regularB
  simp only [numbers, List.cons_lt_cons_iff, List.lt_irrefl, and_false, or_false]
  by_cases same : a.seconds / 86400 = b.seconds / 86400
  · have seconds : a.secondOfDay < b.secondOfDay
        ∨ a.secondOfDay = b.secondOfDay ∧ a.nanoseconds / 1000 < b.nanoseconds / 1000 := by
      rw [microseconds, microseconds] at before
      rw [secondOfDay, secondOfDay]
      omega
    simp only [date, same, Nat.lt_irrefl, false_or, true_and]
    rcases seconds with less | ⟨equal, less⟩
    · have clock := clock_lt less
      omega
    · rw [equal]
      omega
  · have days : a.seconds / 86400 < b.seconds / 86400 := by
      rw [microseconds, microseconds] at before
      omega
    have dates := Date.ofDays_before days
    simp only [Date.Before] at dates
    simp only [date] at firstA firstB ⊢
    omega

/-- The texts of instants come in the order of the instants. -/
theorem text_lt {a b : Instant} (regularA : a.Regular) (regularB : b.Regular)
    (before : a.microseconds < b.microseconds)
    : a.text < b.text := by
  rw [text, text, String.lt_iff, String.toList_ofList, String.toList_ofList, regularA.chars_eq,
    regularB.chars_eq]
  exact written_lt regularA.fits regularB.fits (numbers_lt regularA regularB before)

/-- The text of an instant keeps no more of it than the microseconds. -/
theorem text_eq {a b : Instant} (regularA : a.Regular) (regularB : b.Regular)
    (same : a.microseconds = b.microseconds)
    : a.text = b.text := by
  have shortA := regularA.nanoseconds
  have shortB := regularB.nanoseconds
  rw [microseconds, microseconds] at same
  obtain ⟨seconds, fraction⟩ : a.seconds = b.seconds
      ∧ a.nanoseconds / 1000 = b.nanoseconds / 1000 := by omega
  have equal : a.numbers = b.numbers := by
    rw [numbers, numbers, date, date, secondOfDay, secondOfDay, seconds, fraction]
  rw [text, text, regularA.chars_eq, regularB.chars_eq, equal]

theorem text_le {a b : Instant} (regularA : a.Regular) (regularB : b.Regular)
    (ordered : a.microseconds ≤ b.microseconds)
    : a.text ≤ b.text := by
  rcases Int.lt_or_eq_of_le ordered with less | same
  · exact String.not_lt.mp (String.lt_asymm (text_lt regularA regularB less))
  · exact text_eq regularA regularB same ▸ String.le_refl a.text

/-- An instant is another one or lies before it. -/
def NotAfter (a b : Instant) : Prop :=
  a.seconds < b.seconds ∨ a.seconds = b.seconds ∧ a.nanoseconds ≤ b.nanoseconds

instance (a b : Instant) : Decidable (a.NotAfter b) := inferInstanceAs (Decidable (_ ∨ _))

theorem NotAfter.text_le {a b : Instant} (notAfter : a.NotAfter b) (regularA : a.Regular)
    (regularB : b.Regular)
    : a.text ≤ b.text := by
  refine Instant.text_le regularA regularB ?_
  have shortA := regularA.nanoseconds
  rw [NotAfter] at notAfter
  rw [microseconds, microseconds]
  omega

end Instant
end PersonRegistry.Time
