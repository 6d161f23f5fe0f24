import PersonRegistry.Proofs.Json.DecodedValues
import PersonRegistry.Proofs.Json.Grammar

/-! What readers make of values, however they are spelled: the characters of a text, the integer of a
number, and a failure where a value is of another kind.
-/

namespace PersonRegistry.Json

open Text (Octets)

-----------------------------------------------------------------------------------------
-- What is left of a reading when failures are not told apart
-----------------------------------------------------------------------------------------

namespace Reader

variable {α β : Type} (rest : Octets)

theorem toOption_bind (read : Reader α) (next : α → Reader β)
    : ((read >>= next) rest).toOption = (read rest).toOption.bind fun r => (next r.1 r.2).toOption := by
  rw [run_bind]
  cases read rest <;> rfl

theorem toOption_map (f : α → β) (read : Reader α)
    : ((f <$> read) rest).toOption = (read rest).toOption.map fun r => (f r.1, r.2) := by
  rw [run_map]
  cases read rest <;> rfl

end Reader

theorem ok_of_toOption {α ε : Type} {result : Except ε α} {a : α} (gives : result.toOption = some a)
    : result = .ok a := by
  cases result with
  | ok b => exact congrArg Except.ok (Option.some.inj gives)
  | error failure => cases gives

/-- A reader that never gives anything fails. -/
theorem Yields.toOption_eq_none {α : Type} {read : Reader α} (never : Yields (fun _ => False) read)
    (octets : Octets)
    : (read octets).toOption = none := by
  cases reads : read octets with
  | ok result => exact (never octets result.1 result.2 reads).elim
  | error failure => rfl

-----------------------------------------------------------------------------------------
-- Texts
-----------------------------------------------------------------------------------------

/-- The character that a pair of codes stands for. -/
def pairedChar (leading trailing : Nat) : Char :=
  Char.ofNat ((leading - 0xd800) * 0x400 + (trailing - 0xdc00) + 0x10000)

/-- The characters that glyphs stand for. Half of a pair stands for none without the other half. -/
def chars? : List Glyph → Option (List Char)
  | [] => some []
  | .plain c _ :: more => (chars? more).map (c :: ·)
  | .short _ c _ :: more => (chars? more).map (c :: ·)
  | .code _ _ _ _ n _ :: more =>
      if isTrailing n then none
      else if isLeading n then
        match more with
        | .code _ _ _ _ m _ :: others =>
            if isTrailing m then (chars? others).map (pairedChar n m :: ·) else none
        | _ => none
      else (chars? more).map (Char.ofNat n :: ·)

/-- Characters that need no escape, each standing for itself. -/
def plainGlyphs : (chars : List Char) → (∀ c ∈ chars, c ≠ '"' ∧ c ≠ '\\' ∧ ¬c.toNat < 0x20) → List Glyph
  | [], _ => []
  | c :: more, proper =>
      .plain c (proper c List.mem_cons_self)
        :: plainGlyphs more fun d member => proper d (List.mem_cons_of_mem c member)

theorem chars?_plainGlyphs (chars : List Char) (proper : ∀ c ∈ chars, c ≠ '"' ∧ c ≠ '\\' ∧ ¬c.toNat < 0x20)
    : chars? (plainGlyphs chars proper) = some chars := by
  induction chars with
  | nil => rfl
  | cons c more ih => rw [plainGlyphs, chars?, ih, Option.map_some]

/-- The character of a pair whose first half came before, and the glyphs behind it. -/
def paired? (leading : Nat) : List Glyph → Option (Char × List Glyph)
  | .code _ _ _ _ m _ :: others => if isTrailing m then some (pairedChar leading m, others) else none
  | _ => none

/-- The character of a code with the glyphs that follow, and those that are left. -/
def coded? (n : Nat) (more : List Glyph) : Option (Char × List Glyph) :=
  if isTrailing n then none
  else if isLeading n then paired? n more
  else some (Char.ofNat n, more)

/-- A pair takes one glyph, any other code none. -/
theorem eq_append_of_coded? {n : Nat} {more left : List Glyph} {c : Char}
    (coded : coded? n more = some (c, left))
    : ∃ taken, more = taken ++ left := by
  rw [coded?] at coded
  split at coded
  next => cases coded
  next =>
    split at coded
    next =>
      unfold paired? at coded
      split at coded
      next first second third fourth m hex others =>
        split at coded
        next =>
          obtain ⟨-, rfl⟩ := Prod.mk.inj (Option.some.inj coded)
          exact ⟨[.code first second third fourth m hex], rfl⟩
        next => cases coded
      next => cases coded
    next =>
      obtain ⟨-, rfl⟩ := Prod.mk.inj (Option.some.inj coded)
      exact ⟨[], rfl⟩

theorem chars?_code (first second third fourth : UInt8) (n : Nat)
    (hex : hexFour? first second third fourth = some n) (more : List Glyph)
    : chars? (.code first second third fourth n hex :: more)
      = (coded? n more).bind fun r => (chars? r.2).map (r.1 :: ·) := by
  by_cases trailing : isTrailing n
  · cases more with
    | nil => simp [chars?, coded?, trailing]
    | cons glyph others => cases glyph <;> simp [chars?, coded?, trailing]
  by_cases leading : isLeading n
  · cases more with
    | nil => simp [chars?, coded?, paired?, trailing, leading]
    | cons glyph others =>
        cases glyph with
        | plain | short => simp [chars?, coded?, paired?, trailing, leading]
        | code _ _ _ _ m =>
            by_cases pair : isTrailing m <;> simp [chars?, coded?, paired?, trailing, leading, pair]
  · cases more with
    | nil => simp [chars?, coded?, trailing, leading]
    | cons glyph others => cases glyph <;> simp [chars?, coded?, trailing, leading]

theorem quoted_append (glyphs more : List Glyph) (rest : Octets)
    : quoted (glyphs ++ more) ++ rest = glyphs.flatMap Glyph.octets ++ (quoted more ++ rest) := by
  simp only [quoted, List.flatMap_append, List.append_assoc]

theorem quoted_cons (glyph : Glyph) (more : List Glyph) (rest : Octets)
    : quoted (glyph :: more) ++ rest = glyph.octets ++ (quoted more ++ rest) := by
  simpa using quoted_append [glyph] more rest

/-- No backslash starts a glyph that stands for itself. -/
theorem Glyph.octets_plain {c : Char} (proper : c ≠ '"' ∧ c ≠ '\\' ∧ ¬c.toNat < 0x20)
    : ∃ b more, (Glyph.plain c proper).octets = b :: more ∧ b ≠ Octet.backslash := by
  obtain ⟨noQuote, noBackslash, noControl⟩ := proper
  obtain ⟨b, more, octets⟩ := List.exists_cons_of_ne_nil (String.utf8EncodeChar_ne_nil (c := c))
  have plain := isPlain_of_mem_encodeChar noQuote noBackslash noControl (octets ▸ List.mem_cons_self)
  exact ⟨b, more, octets, plain.2.1⟩

theorem ne_letterU_of_shortEscape? {letter : UInt8} {c : Char} (known : shortEscape? letter = some c)
    : letter ≠ Octet.letterU := by
  rintro rfl
  cases known

/-- The second half of a pair must follow at once. By cases on what follows. -/
theorem toOption_trailingEscape (leading : Nat) (glyphs : List Glyph) (rest : Octets)
    : (trailingEscape leading (quoted glyphs ++ rest)).toOption
      = (paired? leading glyphs).map fun r => (r.1, quoted r.2 ++ rest) := by
  cases glyphs with
  | nil => rfl
  | cons glyph others =>
      rw [quoted_cons]
      cases glyph with
      | plain c proper =>
          obtain ⟨b, more, octets, noBackslash⟩ := Glyph.octets_plain proper
          rw [octets, List.cons_append]
          unfold trailingEscape
          split
          next same => exact absurd (List.cons.inj same).1 noBackslash
          next same => cases same
          next same => exact absurd (List.cons.inj same).1 noBackslash
          next same => exact absurd (List.cons.inj same).1 noBackslash
          next => rfl
      | short letter c known =>
          have noCode := ne_letterU_of_shortEscape? known
          simp only [Glyph.octets, List.cons_append, List.nil_append]
          unfold trailingEscape
          split
          next same => exact absurd (List.cons.inj (List.cons.inj same).2).1 noCode
          next same => cases same
          next same => cases (List.cons.inj same).2
          next => rfl
          next => rfl
      | code first second third fourth m hex =>
          have behind (octets : Octets)
              : trailingEscape leading (Octet.backslash :: Octet.letterU :: octets)
                = (hexEscape octets).bind fun r =>
                    if isTrailing r.1 then .ok (pairedChar leading r.1, r.2)
                    else .error ⟨.loneSurrogate, r.2.length, []⟩ := rfl
          simp only [Glyph.octets, List.cons_append, List.nil_append]
          rw [behind, hexEscape_of_hexFour hex, Except.bind, paired?]
          by_cases pair : isTrailing m <;> simp [pair, Except.toOption]

theorem toOption_codeEscape {first second third fourth : UInt8} {n : Nat}
    (hex : hexFour? first second third fourth = some n) (more : List Glyph) (rest : Octets)
    : (escape (Octet.letterU :: first :: second :: third :: fourth :: (quoted more ++ rest))).toOption
      = (coded? n more).map fun r => (r.1, quoted r.2 ++ rest) := by
  have behind (octets : Octets) : escape (Octet.letterU :: octets) = codeEscape octets := rfl
  rw [behind, codeEscape, hexEscape_of_hexFour hex, coded?]
  by_cases trailing : isTrailing n
  · simp only [bind, Except.bind, trailing, if_true]
    rfl
  by_cases leading : isLeading n
  · simp only [bind, Except.bind, trailing, leading, Bool.false_eq_true, if_true, if_false]
    exact toOption_trailingEscape n more rest
  · simp only [bind, Except.bind, trailing, leading, Bool.false_eq_true, if_false, Option.map_some]
    rfl

theorem contentsAfter_of_escape {octets : Octets} (gathered : Octets)
    (fails : (escape octets).toOption = none)
    : (contentsAfter gathered 0 (Octet.backslash :: octets)).toOption = none := by
  rw [contentsAfter, if_neg (by decide), if_pos rfl]
  cases spelled : escape octets with
  | error failure => rfl
  | ok result => rw [spelled] at fails; cases fails

/-- Glyphs are gathered as the characters they stand for, by induction on how many there are: a pair takes
two at once.
-/
theorem toOption_contentsAfter (glyphs : List Glyph) (gathered rest : Octets)
    : (contentsAfter gathered 0 (quoted glyphs ++ rest)).toOption
      = (chars? glyphs).map fun chars => (gathered.reverse ++ Text.Utf8.encode chars, rest) := by
  -- what a character adds is in front of what the glyphs behind it stand for
  have ahead (c : Char) (more : Option (List Char))
      : (more.map fun chars =>
          (((String.utf8EncodeChar c).reverse ++ gathered).reverse ++ Text.Utf8.encode chars, rest))
        = (more.map (c :: ·)).map fun chars => (gathered.reverse ++ Text.Utf8.encode chars, rest) := by
    rw [Option.map_map]
    congr 1
    funext chars
    simp
  match glyphs with
  | [] =>
      rw [chars?, Option.map_some, Text.Utf8.encode_nil, List.append_nil]
      rfl
  | .plain c proper :: more =>
      obtain ⟨noQuote, noBackslash, noControl⟩ := proper
      rw [quoted_cons, Glyph.octets, contentsAfter_plain fun b member =>
        isPlain_of_mem_encodeChar noQuote noBackslash noControl member, toOption_contentsAfter more, ahead,
        chars?]
  | .short letter c known :: more =>
      have spelled : escape ([letter] ++ (quoted more ++ rest)) = .ok (c, quoted more ++ rest) := by
        rw [List.singleton_append, escape, known]
        exact ne_letterU_of_shortEscape? known
      rw [quoted_cons, Glyph.octets, contentsAfter_escape gathered spelled, toOption_contentsAfter more,
        ahead, chars?]
  | .code first second third fourth n hex :: more =>
      have escaped := toOption_codeEscape hex more rest
      rw [quoted_cons, chars?_code]
      cases coded : coded? n more with
      | none =>
          rw [coded] at escaped
          exact contentsAfter_of_escape gathered escaped
      | some result =>
          obtain ⟨c, left⟩ := result
          obtain ⟨taken, rfl⟩ := eq_append_of_coded? coded
          rw [coded, quoted_append] at escaped
          have spelled : escape ((Octet.letterU :: first :: second :: third :: fourth
                :: taken.flatMap Glyph.octets) ++ (quoted left ++ rest)) = .ok (c, quoted left ++ rest) :=
            ok_of_toOption escaped
          have octets : (Glyph.code first second third fourth n hex).octets
                ++ (quoted (taken ++ left) ++ rest)
              = Octet.backslash :: (Octet.letterU :: first :: second :: third :: fourth
                :: taken.flatMap Glyph.octets) ++ (quoted left ++ rest) := by
            rw [quoted_append]
            simp only [Glyph.octets, List.cons_append, List.nil_append]
          rw [octets, contentsAfter_escape gathered spelled, toOption_contentsAfter left, ahead]
          rfl
termination_by glyphs.length

/-- A text is read as the characters that its glyphs stand for. -/
theorem toOption_textBody (glyphs : List Glyph) (rest : Octets)
    : (textBody (quoted glyphs ++ rest)).toOption
      = (chars? glyphs).map fun chars => (String.ofList chars, rest) := by
  have contents := toOption_contentsAfter glyphs [] rest
  rw [textBody]
  cases gathered : contentsAfter [] 0 (quoted glyphs ++ rest) with
  | error failure =>
      rw [gathered] at contents
      cases chars : chars? glyphs with
      | none => rfl
      | some chars' => rw [chars] at contents; cases contents
  | ok result =>
      rw [gathered] at contents
      cases chars : chars? glyphs with
      | none => rw [chars] at contents; cases contents
      | some characters =>
          rw [chars] at contents
          obtain rfl := Option.some.inj contents
          simp only [List.reverse_nil, List.nil_append, Text.Utf8.decode_encode, Option.map_some]
          rfl

-----------------------------------------------------------------------------------------
-- Numbers
-----------------------------------------------------------------------------------------

/-- What the digits of the whole part come to. -/
def Number.size (n : Number) : Nat := Nat.ofDigitChars 10 n.whole 0

/-- The integer that a number spells, if it has neither a fraction nor an exponent. Zero with a minus is
none.
-/
def Number.integer? (n : Number) : Option Int :=
  if n.fraction = [] ∧ n.exponent = [] then
    if n.negative then (if n.size = 0 then none else some (-n.size)) else some n.size
  else none

/-- Digits beyond 64 bits are left over. By induction on the digits. -/
theorem startsWithDigit_takeDigits {digits : List Char} (all : ∀ c ∈ digits, c.isDigit) (rest : Octets)
    {significand : Nat} (taken : Nat) (fits : significand < 0x10000000000000000)
    (beyond : 0x10000000000000000 ≤ Nat.ofDigitChars 10 digits significand)
    : startsWithDigit (takeDigits significand taken (Text.Utf8.encode digits ++ rest)).2.2 = true := by
  induction digits generalizing significand taken with
  | nil => exact absurd beyond (Nat.not_le.mpr fits)
  | cons c more ih =>
      obtain ⟨one, value⟩ := digit?_of_isDigit (all c (by simp))
      rw [Nat.ofDigitChars_cons, Nat.mul_comm] at beyond
      rw [Text.Utf8.encode_cons, one, List.append_assoc, List.cons_append, List.nil_append, takeDigits, value]
      simp only
      split
      next => simp [startsWithDigit, isDigit, value]
      next small => exact ih (fun d member => all d (by simp [member])) _ (Nat.not_le.mp small) beyond

section

variable {whole : List Char} {octets left : Octets} {x : Numeral} (positive : Bool)

/-- A whole part beyond 64 bits makes the number a floating-point one. -/
theorem isFloat_of_beyond (isWhole : IsWhole whole)
    (beyond : 0x10000000000000000 ≤ Nat.ofDigitChars 10 whole 0)
    (reads : unsignedNumeral positive (Text.Utf8.encode whole ++ octets) = .ok (x, left))
    : x.IsFloat := by
  cases isWhole with
  | zero => exact absurd beyond (by decide)
  | digits nonzero all =>
      next c more =>
      have isDigit := all c (by simp)
      have bounds := toNat_bounds_of_isDigit isDigit
      obtain ⟨one, value⟩ := digit?_of_isDigit isDigit
      have zero : '0'.toNat = 48 := rfl
      have first : c.toNat - '0'.toNat ≠ 0 := by
        have other : c.toNat ≠ '0'.toNat := fun same => nonzero (Char.toNat_inj.mp same)
        omega
      rw [Nat.ofDigitChars_cons, Nat.mul_zero, Nat.zero_add] at beyond
      have further := startsWithDigit_takeDigits (fun d member => all d (by simp [member])) octets 0
        (by omega) beyond
      have some : ((takeDigits (c.toNat - '0'.toNat) 0 (Text.Utf8.encode more ++ octets)).2.2.takeWhile
          Json.isDigit).length ≠ 0 := by
        generalize (takeDigits (c.toNat - '0'.toNat) 0 (Text.Utf8.encode more ++ octets)).2.2 = left
          at further ⊢
        cases left with
        | nil => cases further
        | cons b more => simp [List.takeWhile_cons_of_pos (show Json.isDigit b = true from further)]
      rw [Text.Utf8.encode_cons, one, List.append_assoc, List.cons_append, List.nil_append,
        unsignedNumeral] at reads
      simp only [Reader.run_bind, look_cons, advance_cons, value] at reads
      generalize c.toNat - '0'.toNat = d at first some reads
      cases d with
      | zero => exact absurd rfl first
      | succ d =>
          simp only [Reader.run_bind, Reader.run_get, Reader.run_set, some, if_false] at reads
          split at reads
          next seen rest _ =>
            split at reads
            next => exact isFloat_fractionPart _ _ _ _ x left reads
            next => exact isFloat_afterDigits _ _ _ _ x left reads
          next => cases reads

/-- So does a fraction or an exponent. -/
theorem isFloat_of_behind {fraction exponent : List Char} (isFraction : IsFraction fraction)
    (isExponent : IsExponent exponent) (behind : ¬(fraction = [] ∧ exponent = [])) (significand : Nat)
    (reads : afterWhole positive significand (Text.Utf8.encode (fraction ++ exponent) ++ octets)
      = .ok (x, left))
    : x.IsFloat := by
  cases isFraction with
  | digits all => exact isFloat_fractionPart positive significand 0 _ x left reads
  | none =>
      cases isExponent with
      | none => exact absurd ⟨rfl, rfl⟩ behind
      | digits lettered =>
          rcases lettered with rfl | rfl <;> exact isFloat_exponentPart positive significand 0 _ x left reads

/-- So does a minus in front of zero, or of more than 63 bits. -/
theorem isFloat_of_minus {significand : Nat}
    (noWhole : ¬(0 < significand ∧ significand ≤ 0x8000000000000000))
    (reads : afterWhole false significand octets = .ok (x, left))
    : x.IsFloat := by
  have noWhole : (decide (0 < significand) && decide (significand ≤ 0x8000000000000000)) = false := by
    simpa [Bool.and_eq_false_iff] using noWhole
  rw [afterWhole, Reader.run_bind] at reads
  split at reads
  next seen rest _ =>
    split at reads
    next => exact isFloat_fractionPart _ _ _ _ x left reads
    next => exact isFloat_exponentPart _ _ _ _ x left reads
    next => exact isFloat_exponentPart _ _ _ _ x left reads
    next =>
      simp only [noWhole, Bool.false_eq_true, if_false] at reads
      exact isFloat_scaledNumeral false significand 0 _ x left reads
  next => cases reads

end

/-- The integers that are read as whole numbers. -/
def IsWord64 (i : Int) : Prop := -0x8000000000000000 ≤ i ∧ i < 0x10000000000000000

namespace Number

variable (n : Number) {rest : Octets}

theorem encode_unsigned (rest : Octets)
    : Text.Utf8.encode n.unsigned ++ rest
      = Text.Utf8.encode n.whole ++ (Text.Utf8.encode (n.fraction ++ n.exponent) ++ rest) := by
  rw [Number.unsigned, Text.Utf8.encode_append, List.append_assoc]

/-- The integer that a number spells is read, if it has 64 bits. -/
theorem unsignedNumeral_word (ends : EndsNumeral rest) {i : Int} (spells : n.integer? = some i)
    (word : IsWord64 i)
    : unsignedNumeral (!n.negative) (Text.Utf8.encode n.unsigned ++ rest) = .ok (.whole i, rest) := by
  have stops := startsWithDigit_fraction ends n.isFraction n.isExponent
  obtain ⟨least, most⟩ := word
  rw [integer?] at spells
  split at spells
  next plain =>
    have nothing : Text.Utf8.encode (n.fraction ++ n.exponent) ++ rest = rest := by
      rw [plain.1, plain.2]
      rfl
    split at spells
    next negative =>
      split at spells
      next => cases spells
      next some =>
        obtain rfl := Option.some.inj spells
        have fits : n.size < 0x10000000000000000 := by omega
        rw [encode_unsigned, unsignedNumeral_whole _ stops n.isWhole fits, nothing, negative, ← Number.size]
        exact afterWhole_ends ends false (.inr ⟨by omega, by omega⟩)
    next positive =>
      obtain rfl := Option.some.inj spells
      have fits : n.size < 0x10000000000000000 := by omega
      rw [encode_unsigned, unsignedNumeral_whole _ stops n.isWhole fits, nothing, ← Number.size,
        Bool.eq_false_iff.mpr positive]
      exact afterWhole_ends ends true (.inl rfl)
  next => cases spells

/-- Any other number is read as a floating-point one, by cases on its parts. -/
theorem isFloat_of_unsignedNumeral (ends : EndsNumeral rest) (other : ∀ i, n.integer? = some i → ¬IsWord64 i)
    {x : Numeral} {left : Octets}
    (reads : unsignedNumeral (!n.negative) (Text.Utf8.encode n.unsigned ++ rest) = .ok (x, left))
    : x.IsFloat := by
  have stops := startsWithDigit_fraction ends n.isFraction n.isExponent
  rw [encode_unsigned] at reads
  by_cases beyond : 0x10000000000000000 ≤ n.size
  · exact isFloat_of_beyond _ n.isWhole beyond reads
  rw [unsignedNumeral_whole _ stops n.isWhole (Nat.not_le.mp beyond), ← Number.size] at reads
  by_cases plain : n.fraction = [] ∧ n.exponent = []
  · rw [integer?, if_pos plain] at other
    by_cases negative : n.negative
    · rw [negative] at reads
      refine isFloat_of_minus (fun signed => ?_) reads
      refine other (-(n.size : Int)) ?_ ⟨by omega, by omega⟩
      rw [if_pos negative, if_neg (by omega)]
    · exact absurd ⟨by omega, by omega⟩ (other n.size (if_neg negative))
  · exact isFloat_of_behind _ n.isFraction n.isExponent plain _ reads

end Number

-----------------------------------------------------------------------------------------
-- Values of a kind
-----------------------------------------------------------------------------------------

/-- A reader takes what is meant by a value out of any spelling of it, and nothing behind it. -/
def Takes {α : Type} (read : Reader α) (taken : Tree → Option α) : Prop :=
  ∀ (gap : Gap) (tree : Tree) (rest : Octets), EndsNumeral rest →
    (read (gap.octets ++ (tree.octets ++ rest))).toOption = (taken tree).map (·, rest)

/-- A value of another kind is refused. -/
theorem never_mismatch {α : Type} (expected : Expected)
    : Yields (fun _ : α => False) (mismatch expected) := by
  refine .bind fun next => ?_
  split
  next => exact .bind fun _ => .bind fun _ => .fail _
  next => exact .bind fun _ => .bind fun _ => .fail _
  next => exact .bind fun _ => .bind fun _ => .fail _
  next => exact .bind fun _ => .bind fun _ => .fail _
  next => exact .fail _
  next => exact .fail _
  next =>
    split
    next => exact .bind fun _ => .fail _
    next => exact .failNext _
  next => exact .failNext _

/-- The text that a value spells. -/
def Tree.text? : Tree → Option String
  | .text glyphs => (chars? glyphs).map String.ofList
  | _ => none

def Tree.integer? : Tree → Option Int
  | .number n => n.integer?
  | _ => none

/-- The value is null, or what it is taken for. -/
def Tree.orNull {α : Type} (taken : Tree → Option α) : Tree → Option (Option α)
  | .word .null => some none
  | tree => (taken tree).map some

/-- The integer of 32 bits that a value spells. -/
def Tree.signed32? (tree : Tree) : Option Int32 :=
  (tree.integer?.filter Text.IntegerRange.signed32.holds).map Int32.ofInt

theorem takes_text : Takes text Tree.text? := by
  intro gap tree rest _
  have space (octets : Octets) : text (gap.octets ++ octets) = text octets := by
    rw [text, textAs, Reader.run_bind, Reader.run_bind, gap.valueStart_append]
  obtain ⟨b, more, octets, starts⟩ := tree.octets_eq_cons
  rw [space]
  by_cases quote : b = Octet.quote
  · obtain ⟨glyphs, rfl⟩ := starts.text quote
    have start (octets : Octets) : text (Octet.quote :: octets) = (textBody >>= pure) octets := rfl
    rw [Tree.octets, List.cons_append, start, Reader.toOption_bind, toOption_textBody, Tree.text?]
    cases chars? glyphs <;> rfl
  · have other : tree.text? = none := by
      cases tree with
      | text glyphs => exact absurd (List.cons.inj octets).1.symm quote
      | _ => rfl
    rw [octets, List.cons_append, text, textAs, Reader.run_bind, valueStart_cons starts.solid]
    simp only [quote, if_false, other, Option.map_none]
    exact (never_mismatch _).toOption_eq_none _

/-- The integer that a number is read as. -/
def Numeral.integer? : Numeral → Option Int
  | .whole i => some i
  | .float _ => none

/-- An integer is read from a number where the number is read as a whole one in range. -/
theorem toOption_integer_octets (expected : Expected) (range : Text.IntegerRange) (n : Number) (rest : Octets)
    : (integer expected range (n.octets ++ rest)).toOption
      = (unsignedNumeral (!n.negative) (Text.Utf8.encode n.unsigned ++ rest)).toOption.bind fun r =>
          (r.1.integer?.filter range.holds).map (·, r.2) := by
  obtain ⟨b, more, octets, numeric, read⟩ := n.octets_eq_cons
  have opens : valueStart (n.octets ++ rest) = .ok (b, n.octets ++ rest) := by
    rw [octets, List.cons_append]
    exact valueStart_cons (solid_of_startsNumeral numeric).1 _
  rw [integer, numeralAs, Reader.run_bind, opens]
  simp only [numeric, if_true]
  rw [Reader.toOption_bind, read]
  congr 1
  funext r
  obtain ⟨x, left⟩ := r
  cases x with
  | whole i => cases holds : range.holds i <;> simp [Numeral.integer?, Option.filter, holds] <;> rfl
  | float x => rfl

theorem toOption_integer_number (expected : Expected) {range : Text.IntegerRange}
    (fits : ∀ i, range.holds i = true → IsWord64 i) (n : Number) {rest : Octets} (ends : EndsNumeral rest)
    : (integer expected range (n.octets ++ rest)).toOption
      = (n.integer?.filter range.holds).map (·, rest) := by
  rw [toOption_integer_octets]
  by_cases word : ∃ i, n.integer? = some i ∧ IsWord64 i
  · obtain ⟨i, spells, word⟩ := word
    rw [n.unsignedNumeral_word ends spells word, spells]
    rfl
  · have other (i : Int) (spells : n.integer? = some i) : ¬IsWord64 i := fun held => word ⟨i, spells, held⟩
    have noInteger : n.integer?.filter range.holds = none := by
      cases spelled : n.integer? with
      | none => rfl
      | some i =>
          refine Option.filter_eq_none_iff.mpr fun j same holds => ?_
          obtain rfl := Option.some.inj same
          exact other i spelled (fits i holds)
    rw [noInteger]
    cases found : unsignedNumeral (!n.negative) (Text.Utf8.encode n.unsigned ++ rest) with
    | error failure => rfl
    | ok result =>
        obtain ⟨x, left⟩ := result
        have isFloat := n.isFloat_of_unsignedNumeral ends other found
        cases x with
        | whole i => exact isFloat.elim
        | float x => rfl

theorem takes_integer (expected : Expected) {range : Text.IntegerRange}
    (fits : ∀ i, range.holds i = true → IsWord64 i)
    : Takes (integer expected range) fun tree => tree.integer?.filter range.holds := by
  intro gap tree rest ends
  have space (octets : Octets)
      : integer expected range (gap.octets ++ octets) = integer expected range octets := by
    rw [integer, numeralAs, Reader.run_bind, Reader.run_bind, gap.valueStart_append]
  obtain ⟨b, more, octets, starts⟩ := tree.octets_eq_cons
  rw [space]
  by_cases numeric : startsNumeral b = true
  · obtain ⟨n, rfl⟩ := starts.number numeric
    exact toOption_integer_number expected fits n ends
  · have other : tree.integer? = none := by
      cases tree with
      | number n =>
          obtain ⟨b', more', octets', starts', -⟩ := n.octets_eq_cons
          obtain ⟨rfl, -⟩ := List.cons.inj (octets.symm.trans octets')
          exact absurd starts' numeric
      | _ => rfl
    rw [octets, List.cons_append, integer, numeralAs, Reader.run_bind, valueStart_cons starts.solid]
    simp only [numeric, Bool.false_eq_true, if_false, other, Option.filter_none, Option.map_none]
    exact (never_mismatch _).toOption_eq_none _

theorem Takes.map {α β : Type} {read : Reader α} {taken : Tree → Option α} (takes : Takes read taken)
    (f : α → β)
    : Takes (f <$> read) fun tree => (taken tree).map f := by
  intro gap tree rest ends
  simp only [Reader.toOption_map, takes gap tree rest ends, Option.map_map]
  rfl

theorem takes_signed32 : Takes signed32 Tree.signed32? := by
  refine (takes_integer .signed32 fun i holds => ?_).map Int32.ofInt
  rw [Text.IntegerRange.holds, Bool.and_eq_true, decide_eq_true_eq, decide_eq_true_eq] at holds
  obtain ⟨least, most⟩ := holds
  simp only [Text.IntegerRange.signed32] at least most
  exact ⟨by omega, by omega⟩

/-- A value that may be null is taken as it is, or as null. -/
theorem Takes.orNull {α : Type} {read : Reader α} {taken : Tree → Option α} (takes : Takes read taken)
    : Takes (orNull read) (Tree.orNull taken) := by
  intro gap tree rest ends
  have space (octets : Octets) : Json.orNull read (gap.octets ++ octets) = Json.orNull read octets := by
    rw [Json.orNull, Reader.run_bind, Reader.run_bind, gap.token_append]
  obtain ⟨b, more, octets, starts⟩ := tree.octets_eq_cons
  rw [space]
  by_cases null : b = Octet.letterN
  · obtain rfl := starts.null null
    rfl
  · have value : Tree.orNull taken tree = (taken tree).map some := by
      cases tree with
      | word w =>
          cases w with
          | null => exact absurd (List.cons.inj octets).1.symm null
          | true_ | false_ => rfl
      | _ => rfl
    have plain := takes.map some .none tree rest ends
    have start : Json.orNull read (tree.octets ++ rest) = (some <$> read) (tree.octets ++ rest) := by
      rw [octets, List.cons_append, Json.orNull, Reader.run_bind, token_cons starts.solid]
      simp only
      generalize same : some b = seen
      split
      next => exact absurd (Option.some.inj same) null
      next => rfl
    rw [start, value]
    exact plain

end PersonRegistry.Json
