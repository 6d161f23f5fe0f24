import PersonRegistry.Json.Printer
import PersonRegistry.Json.Scalar
import PersonRegistry.Proofs.Text.Utf8

/-! Texts between quotes are read back. Readers are followed step by step: each lemma tells what one of
them gives on the octets that a printer wrote.
-/

namespace PersonRegistry.Json

open Text (Octets)

-----------------------------------------------------------------------------------------
-- Readers, one step at a time
-----------------------------------------------------------------------------------------

namespace Reader

variable {α β : Type} {rest : Octets}

@[simp] theorem run_pure (a : α) : (pure a : Reader α) rest = .ok (a, rest) := rfl

@[simp] theorem run_bind (read : Reader α) (next : α → Reader β)
    : (read >>= next) rest
      = match read rest with
        | .ok (a, rest) => next a rest
        | .error failure => .error failure := by
  cases h : read rest <;> simp [bind, StateT.bind, Except.bind, h]

@[simp] theorem run_map (f : α → β) (read : Reader α)
    : (f <$> read) rest
      = match read rest with
        | .ok (a, rest) => .ok (f a, rest)
        | .error failure => .error failure := by
  cases h : read rest <;> simp [Functor.map, StateT.map, bind, Except.bind, pure, Except.pure, h]

@[simp] theorem run_get : (get : Reader Octets) rest = .ok (rest, rest) := rfl

@[simp] theorem run_set (octets : Octets) : (set octets : Reader PUnit) rest = .ok (⟨⟩, octets) :=
  rfl

end Reader

@[simp] theorem look_cons (b : UInt8) (rest : Octets) : look (b :: rest) = .ok (some b, b :: rest) :=
  rfl

@[simp] theorem advance_cons (b : UInt8) (rest : Octets) : advance (b :: rest) = .ok ((), rest) := rfl

@[simp] theorem token_nil : token [] = .ok (none, []) := rfl

/-- An octet that is no space is the next token. -/
theorem token_cons {b : UInt8} (solid : isSpace b = false) (rest : Octets)
    : token (b :: rest) = .ok (some b, b :: rest) := by
  simp [token, skipSpace, solid]

/-- A value starts with the next octet that is no space. -/
theorem valueStart_cons {b : UInt8} (solid : isSpace b = false) (rest : Octets)
    : valueStart (b :: rest) = .ok (b, b :: rest) := by
  simp [valueStart, token_cons solid]

-----------------------------------------------------------------------------------------
-- Characters between quotes
-----------------------------------------------------------------------------------------

def isPlain (b : UInt8) : Prop := b ≠ Octet.quote ∧ b ≠ Octet.backslash ∧ ¬b < 0x20

/-- Plain octets are gathered as they come, by induction on them. -/
theorem contentsAfter_plain {octets : Octets} (plain : ∀ b ∈ octets, isPlain b)
    (gathered rest : Octets)
    : contentsAfter gathered 0 (octets ++ rest)
      = contentsAfter (octets.reverse ++ gathered) 0 rest := by
  induction octets generalizing gathered with
  | nil => rfl
  | cons b more ih =>
      obtain ⟨noQuote, noBackslash, noControl⟩ := plain b (by simp)
      rw [List.cons_append, contentsAfter, if_neg noQuote, if_neg noBackslash, if_neg noControl,
        ih (fun next member => plain next (by simp [member]))]
      simp

theorem contentsAfter_pass (gathered octets rest : Octets)
    : contentsAfter gathered octets.length (octets ++ rest) = contentsAfter gathered 0 rest := by
  induction octets with
  | nil => rfl
  | cons b more ih => simpa [contentsAfter] using ih

theorem contentsAfter_escape {c : Char} {octets rest : Octets} (gathered : Octets)
    (spelled : escape (octets ++ rest) = .ok (c, rest))
    : contentsAfter gathered 0 (Octet.backslash :: octets ++ rest)
      = contentsAfter ((String.utf8EncodeChar c).reverse ++ gathered) 0 rest := by
  have passed : (octets ++ rest).length - rest.length = octets.length := by simp
  rw [List.cons_append, contentsAfter, if_neg (by decide), if_pos rfl, spelled]
  simp only [passed, contentsAfter_pass]

/-- The octets of a character that needs no escape are plain: an octet of a longer character is never
below 0x80.
-/
theorem isPlain_of_mem_encodeChar {c : Char} (noQuote : c ≠ '"') (noBackslash : c ≠ '\\')
    (noControl : ¬c.toNat < 0x20) {b : UInt8} (member : b ∈ String.utf8EncodeChar c)
    : isPlain b := by
  have code : c.val.toNat = c.toNat := rfl
  have quote : c.toNat ≠ 0x22 := fun same => noQuote (Char.toNat_inj.mp same)
  have backslash : c.toNat ≠ 0x5c := fun same => noBackslash (Char.toNat_inj.mp same)
  have plain {n : Nat} (below : n < 0x100) (noQuote : n ≠ 0x22) (noBackslash : n ≠ 0x5c)
      (noControl : 0x20 ≤ n) : isPlain (UInt8.ofNat n) := by
    have value : (UInt8.ofNat n).toNat = n := by simp [Nat.mod_eq_of_lt below]
    refine ⟨fun same => noQuote ?_, fun same => noBackslash ?_, fun less => ?_⟩
    · exact value.symm.trans (congrArg UInt8.toNat same)
    · exact value.symm.trans (congrArg UInt8.toNat same)
    · rw [UInt8.lt_iff_toNat_lt, value] at less
      exact absurd less (Nat.not_lt.mpr noControl)
  simp only [String.utf8EncodeChar, code] at member
  split at member
  · obtain rfl := List.mem_singleton.mp member
    exact plain (by omega) quote backslash (by omega)
  · split at member
    · simp only [List.mem_cons, List.not_mem_nil, or_false] at member
      rcases member with rfl | rfl <;> apply plain <;> omega
    · split at member <;> simp only [List.mem_cons, List.not_mem_nil, or_false] at member
      · rcases member with rfl | rfl | rfl <;> apply plain <;> omega
      · rcases member with rfl | rfl | rfl | rfl <;> apply plain <;> omega

theorem hexDigit?_hexDigit
    : ∀ n < 16, String.utf8EncodeChar (hexDigit n) = [UInt8.ofNat (hexDigit n).toNat]
      ∧ hexDigit? (UInt8.ofNat (hexDigit n).toNat) = some n := by
  decide

/-- The four digits of an escape by code are read back. -/
theorem hexEscape_codeEscapeOf {c : Char} (control : c.toNat < 0x20) (rest : Octets)
    : ∃ octets, Text.Utf8.encode (codeEscapeOf c) = Octet.backslash :: Octet.letterU :: octets
      ∧ hexEscape (octets ++ rest) = .ok (c.toNat, rest) := by
  obtain ⟨oneHigh, readHigh⟩ := hexDigit?_hexDigit (c.toNat / 16) (by omega)
  obtain ⟨oneLow, readLow⟩ := hexDigit?_hexDigit (c.toNat % 16) (by omega)
  have code : c.toNat / 16 * 16 + c.toNat % 16 = c.toNat := by omega
  refine ⟨0x30 :: 0x30 :: UInt8.ofNat (hexDigit (c.toNat / 16)).toNat
    :: UInt8.ofNat (hexDigit (c.toNat % 16)).toNat :: [], ?_, ?_⟩
  · simp only [codeEscapeOf, Text.Utf8.encode_cons, Text.Utf8.encode_nil, oneHigh, oneLow]
    rfl
  · have zero : hexDigit? 0x30 = some 0 := rfl
    have four : hexFour? 0x30 0x30 (UInt8.ofNat (hexDigit (c.toNat / 16)).toNat)
        (UInt8.ofNat (hexDigit (c.toNat % 16)).toNat) = some c.toNat := by
      simp [hexFour?, zero, readHigh, readLow, code]
    simp only [List.cons_append, List.nil_append, hexEscape, four]

/-- An escape by code is read back; the code of a control character is no half of a pair. -/
theorem escape_codeEscapeOf {c : Char} (control : c.toNat < 0x20) (rest : Octets)
    : ∃ octets, Text.Utf8.encode (codeEscapeOf c) = Octet.backslash :: octets
      ∧ escape (octets ++ rest) = .ok (c, rest) := by
  obtain ⟨octets, spelled, read⟩ := hexEscape_codeEscapeOf control rest
  have noTrailing : isTrailing c.toNat = false := by simp [isTrailing]; omega
  have noLeading : isLeading c.toNat = false := by simp [isLeading]; omega
  have start : escape (Octet.letterU :: (octets ++ rest)) = codeEscape (octets ++ rest) := rfl
  refine ⟨_, spelled, ?_⟩
  simp only [List.cons_append, start, codeEscape, read, bind, Except.bind, noTrailing, noLeading,
    Bool.false_eq_true, if_false, Char.ofNat_toNat]

theorem contentsAfter_printChar (c : Char) (gathered rest : Octets)
    : contentsAfter gathered 0 (Text.Utf8.encode (printChar c) ++ rest)
      = contentsAfter ((String.utf8EncodeChar c).reverse ++ gathered) 0 rest := by
  have short {letter c : Char} {b : UInt8} (one : String.utf8EncodeChar letter = [b])
      (noCode : b ≠ Octet.letterU) (spelled : shortEscape? b = some c)
      : contentsAfter gathered 0 (Text.Utf8.encode ['\\', letter] ++ rest)
        = contentsAfter ((String.utf8EncodeChar c).reverse ++ gathered) 0 rest := by
    have start : Text.Utf8.encode ['\\', letter] = Octet.backslash :: [b] := by
      simp only [Text.Utf8.encode_cons, Text.Utf8.encode_nil, one]
      rfl
    have read : escape ([b] ++ rest) = .ok (c, rest) := by
      simp only [List.cons_append, List.nil_append]
      rw [escape]
      · rw [spelled]
      · exact noCode
    rw [start, contentsAfter_escape gathered read]
  unfold printChar
  split
  -- seven characters have a short escape; of the others, controls are escaped by code
  case h_1 => exact short rfl (by decide) rfl
  case h_2 => exact short rfl (by decide) rfl
  case h_3 => exact short rfl (by decide) rfl
  case h_4 => exact short rfl (by decide) rfl
  case h_5 => exact short rfl (by decide) rfl
  case h_6 => exact short rfl (by decide) rfl
  case h_7 => exact short rfl (by decide) rfl
  case h_8 noQuote noBackslash _ _ _ _ _ =>
    split
    next control =>
      obtain ⟨octets, start, read⟩ := escape_codeEscapeOf control rest
      rw [start, contentsAfter_escape gathered read]
    next noControl =>
      have one : Text.Utf8.encode [c] = String.utf8EncodeChar c := by simp
      rw [one]
      exact contentsAfter_plain
        (fun b member => isPlain_of_mem_encodeChar noQuote noBackslash noControl member) _ _

/-- Printed characters are read as their octets, by induction on them. -/
theorem contentsAfter_printed (chars : List Char) (gathered rest : Octets)
    : contentsAfter gathered 0 (Text.Utf8.encode (chars.flatMap printChar) ++ rest)
      = contentsAfter ((Text.Utf8.encode chars).reverse ++ gathered) 0 rest := by
  induction chars generalizing gathered with
  | nil => rfl
  | cons c more ih =>
      rw [List.flatMap_cons, Text.Utf8.encode_append, List.append_assoc, contentsAfter_printChar,
        ih, Text.Utf8.encode_cons, List.reverse_append, List.append_assoc]

-----------------------------------------------------------------------------------------
-- Texts
-----------------------------------------------------------------------------------------

/-- A printed text starts with a quote; the rest is read back by `textBody_printed`. -/
def printedBody (s : String) : Octets :=
  Text.Utf8.encode (s.toList.flatMap printChar) ++ [Octet.quote]

theorem encode_printText (s : String)
    : Text.Utf8.encode (printText s) = Octet.quote :: printedBody s := by
  simp only [printText, printedBody, Text.Utf8.encode_cons, Text.Utf8.encode_append,
    Text.Utf8.encode_nil]
  rfl

/-- What stands behind the opening quote of a printed text is read back. -/
theorem textBody_printed (s : String) (rest : Octets)
    : textBody (printedBody s ++ rest) = .ok (s, rest) := by
  have gathered : contentsAfter [] 0 (printedBody s ++ rest)
      = .ok (Text.Utf8.encode s.toList, rest) := by
    rw [printedBody, List.append_assoc, contentsAfter_printed, List.cons_append, contentsAfter,
      if_pos rfl]
    simp
  simp only [textBody, gathered, Text.Utf8.decode_encode, String.ofList_toList]

/-- A printed text is read back as what it stands for. -/
theorem textAs_printText {α : Type} {expected : Expected} {convert : String → Except String α}
    {s : String} {a : α} (converted : convert s = .ok a) (rest : Octets)
    : textAs expected convert (Text.Utf8.encode (printText s) ++ rest) = .ok (a, rest) := by
  have solid : isSpace Octet.quote = false := rfl
  simp [encode_printText, textAs, valueStart_cons solid, textBody_printed, converted]

theorem text_printText (s : String) (rest : Octets)
    : text (Text.Utf8.encode (printText s) ++ rest) = .ok (s, rest) :=
  textAs_printText rfl rest

end PersonRegistry.Json
