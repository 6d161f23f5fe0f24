import PersonRegistry.Text.Utf8

/-! What is encoded is read back: the octets of characters fall into exactly these characters, whatever
follows them.
-/

namespace PersonRegistry.Text.Utf8

-----------------------------------------------------------------------------------------
-- Octets by their value
-----------------------------------------------------------------------------------------

/-- The ranges of the first octet, read on its value. -/
theorem opening_ofNat {n : Nat} (small : n < 256)
    : opening (UInt8.ofNat n)
      = if n < 0x80 then .whole (Char.ofNat n)
        else if n < 0xc2 then .stray
        else if n < 0xe0 then .begun ⟨n % 32, 1, [(0x80, 0xbf)]⟩
        else if n = 0xe0 then .begun ⟨0, 1, [(0xa0, 0xbf), (0x80, 0xbf)]⟩
        else if n = 0xed then .begun ⟨13, 1, [(0x80, 0x9f), (0x80, 0xbf)]⟩
        else if n < 0xf0 then .begun ⟨n % 16, 1, [(0x80, 0xbf), (0x80, 0xbf)]⟩
        else if n = 0xf0 then .begun ⟨0, 1, [(0x90, 0xbf), (0x80, 0xbf), (0x80, 0xbf)]⟩
        else if n < 0xf4 then .begun ⟨n % 8, 1, [(0x80, 0xbf), (0x80, 0xbf), (0x80, 0xbf)]⟩
        else if n = 0xf4 then .begun ⟨4, 1, [(0x80, 0x8f), (0x80, 0xbf), (0x80, 0xbf)]⟩
        else .stray := by
  have value : (UInt8.ofNat n).toNat = n := by
    simp only [UInt8.toNat_ofNat']
    omega
  simp only [opening, UInt8.lt_iff_toNat_lt, ← UInt8.toNat_inj, value]
  rfl

/-- An octet in the awaited range adds its six payload bits to the character. -/
theorem Begun.next_tail {code width n : Nat} {low high : UInt8}
    {awaited : List (UInt8 × UInt8)}
    (above : low.toNat ≤ n % 0x40 + 0x80) (below : n % 0x40 + 0x80 ≤ high.toNat)
    : Begun.next ⟨code, width, (low, high) :: awaited⟩ (UInt8.ofNat (n % 0x40 + 0x80))
      = if awaited.isEmpty then .whole (Char.ofNat (code * 64 + n % 0x40))
        else .begun ⟨code * 64 + n % 0x40, width + 1, awaited⟩ := by
  have value : (UInt8.ofNat (n % 0x40 + 0x80)).toNat = n % 0x40 + 0x80 := by
    simp only [UInt8.toNat_ofNat']
    omega
  have inRange : low ≤ UInt8.ofNat (n % 0x40 + 0x80)
      ∧ UInt8.ofNat (n % 0x40 + 0x80) ≤ high := by
    simp only [UInt8.le_iff_toNat_le, value]
    exact ⟨above, below⟩
  have payload : (n % 0x40 + 0x80) % 64 = n % 0x40 := by omega
  simp only [Begun.next, inRange, decide_true, Bool.and_self, if_true, value, payload]

/-- The last octet of a character ends its piece. -/
theorem piecesAfter_last {code width n : Nat} {low high : UInt8} {rest : Octets}
    (above : low.toNat ≤ n % 0x40 + 0x80) (below : n % 0x40 + 0x80 ≤ high.toNat)
    : piecesAfter (some ⟨code, width, [(low, high)]⟩) (UInt8.ofNat (n % 0x40 + 0x80) :: rest)
      = .char (Char.ofNat (code * 64 + n % 0x40)) :: piecesAfter none rest := by
  rw [piecesAfter, Begun.next_tail above below]
  rfl

/-- An octet before the last one leaves the character begun. -/
theorem piecesAfter_inner {code width n : Nat} {low high : UInt8} {range : UInt8 × UInt8}
    {awaited : List (UInt8 × UInt8)} {rest : Octets}
    (above : low.toNat ≤ n % 0x40 + 0x80) (below : n % 0x40 + 0x80 ≤ high.toNat)
    : piecesAfter (some ⟨code, width, (low, high) :: range :: awaited⟩)
        (UInt8.ofNat (n % 0x40 + 0x80) :: rest)
      = piecesAfter (some ⟨code * 64 + n % 0x40, width + 1, range :: awaited⟩) rest := by
  rw [piecesAfter, Begun.next_tail above below]
  rfl

-----------------------------------------------------------------------------------------
-- Characters by the number of their octets
-----------------------------------------------------------------------------------------

/-- A code point of two octets is put together from five and six payload bits. -/
private theorem piecesAfter_two {v : Nat} {rest : Octets} (above : 0x80 ≤ v) (below : v ≤ 0x7ff)
    : piecesAfter none
        (UInt8.ofNat (v / 64 % 0x20 + 0xc0) :: UInt8.ofNat (v % 0x40 + 0x80) :: rest)
      = .char (Char.ofNat v) :: piecesAfter none rest := by
  have begun : opening (UInt8.ofNat (v / 64 % 0x20 + 0xc0))
      = .begun ⟨v / 64, 1, [(0x80, 0xbf)]⟩ := by
    rw [opening_ofNat (by omega), if_neg (by omega), if_neg (by omega), if_pos (by omega)]
    have payload : (v / 64 % 0x20 + 0xc0) % 32 = v / 64 := by omega
    rw [payload]
  have all : v / 64 * 64 + v % 0x40 = v := by omega
  rw [piecesAfter, begun]
  simp only
  rw [piecesAfter_last (by simp) (by simp; omega), all]

/-- A code point of three octets is put together from four and twice six payload bits. The range of
the second octet leaves out overlong forms and surrogates, which no character has.
-/
private theorem piecesAfter_three {v : Nat} {rest : Octets} (above : 0x800 ≤ v)
    (below : v ≤ 0xffff) (noSurrogate : v < 0xd800 ∨ 0xdfff < v)
    : piecesAfter none
        (UInt8.ofNat (v / 4096 % 0x10 + 0xe0) :: UInt8.ofNat (v / 64 % 0x40 + 0x80)
          :: UInt8.ofNat (v % 0x40 + 0x80) :: rest)
      = .char (Char.ofNat v) :: piecesAfter none rest := by
  have begun : ∃ low high : UInt8,
      opening (UInt8.ofNat (v / 4096 % 0x10 + 0xe0))
        = .begun ⟨v / 4096, 1, [(low, high), (0x80, 0xbf)]⟩
      ∧ low.toNat ≤ v / 64 % 0x40 + 0x80 ∧ v / 64 % 0x40 + 0x80 ≤ high.toNat := by
    rw [opening_ofNat (by omega), if_neg (by omega), if_neg (by omega), if_neg (by omega)]
    by_cases first : v / 4096 % 0x10 + 0xe0 = 0xe0
    · have payload : v / 4096 = 0 := by omega
      rw [if_pos first, payload]
      refine ⟨0xa0, 0xbf, rfl, ?_, ?_⟩ <;> simp <;> omega
    by_cases last : v / 4096 % 0x10 + 0xe0 = 0xed
    · have payload : v / 4096 = 13 := by omega
      rw [if_neg first, if_pos last, payload]
      refine ⟨0x80, 0x9f, rfl, ?_, ?_⟩ <;> simp
      omega
    · have payload : (v / 4096 % 0x10 + 0xe0) % 16 = v / 4096 := by omega
      rw [if_neg first, if_neg last, if_pos (by omega), payload]
      refine ⟨0x80, 0xbf, rfl, ?_, ?_⟩ <;> simp
      omega
  obtain ⟨low, high, begun, aboveLow, belowHigh⟩ := begun
  have all : (v / 4096 * 64 + v / 64 % 0x40) * 64 + v % 0x40 = v := by omega
  rw [piecesAfter, begun]
  simp only
  rw [piecesAfter_inner aboveLow belowHigh, piecesAfter_last (by simp) (by simp; omega), all]

/-- A code point of four octets is put together from three and three times six payload bits. -/
private theorem piecesAfter_four {v : Nat} {rest : Octets} (above : 0x10000 ≤ v)
    (below : v < 0x110000)
    : piecesAfter none
        (UInt8.ofNat (v / 262144 % 0x08 + 0xf0) :: UInt8.ofNat (v / 4096 % 0x40 + 0x80)
          :: UInt8.ofNat (v / 64 % 0x40 + 0x80) :: UInt8.ofNat (v % 0x40 + 0x80) :: rest)
      = .char (Char.ofNat v) :: piecesAfter none rest := by
  have begun : ∃ low high : UInt8,
      opening (UInt8.ofNat (v / 262144 % 0x08 + 0xf0))
        = .begun ⟨v / 262144, 1, [(low, high), (0x80, 0xbf), (0x80, 0xbf)]⟩
      ∧ low.toNat ≤ v / 4096 % 0x40 + 0x80 ∧ v / 4096 % 0x40 + 0x80 ≤ high.toNat := by
    rw [opening_ofNat (by omega), if_neg (by omega), if_neg (by omega), if_neg (by omega),
      if_neg (by omega), if_neg (by omega), if_neg (by omega)]
    by_cases first : v / 262144 % 0x08 + 0xf0 = 0xf0
    · have payload : v / 262144 = 0 := by omega
      rw [if_pos first, payload]
      refine ⟨0x90, 0xbf, rfl, ?_, ?_⟩ <;> simp <;> omega
    by_cases last : v / 262144 % 0x08 + 0xf0 < 0xf4
    · have payload : (v / 262144 % 0x08 + 0xf0) % 8 = v / 262144 := by omega
      rw [if_neg first, if_pos last, payload]
      refine ⟨0x80, 0xbf, rfl, ?_, ?_⟩ <;> simp
      omega
    · have payload : v / 262144 = 4 := by omega
      rw [if_neg first, if_neg last, if_pos (by omega), payload]
      refine ⟨0x80, 0x8f, rfl, ?_, ?_⟩ <;> simp
      omega
  obtain ⟨low, high, begun, aboveLow, belowHigh⟩ := begun
  have all : ((v / 262144 * 64 + v / 4096 % 0x40) * 64 + v / 64 % 0x40) * 64 + v % 0x40 = v := by
    omega
  rw [piecesAfter, begun]
  simp only
  rw [piecesAfter_inner aboveLow belowHigh, piecesAfter_inner (by simp) (by simp; omega),
    piecesAfter_last (by simp) (by simp; omega), all]

-----------------------------------------------------------------------------------------
-- Texts
-----------------------------------------------------------------------------------------

/-- The octets of a character are one piece, whatever follows; by the ranges of its code point. -/
theorem piecesAfter_encodeChar (c : Char) (rest : Octets)
    : piecesAfter none (String.utf8EncodeChar c ++ rest) = .char c :: piecesAfter none rest := by
  have valid : c.toNat < 0xd800 ∨ 0xdfff < c.toNat ∧ c.toNat < 0x110000 := c.valid
  have whole : Char.ofNat c.toNat = c := Char.ofNat_toNat c
  have code : c.val.toNat = c.toNat := rfl
  simp only [String.utf8EncodeChar, code]
  by_cases one : c.toNat ≤ 0x7f
  · rw [if_pos one, List.cons_append, piecesAfter, opening_ofNat (by omega), if_pos (by omega),
      whole, List.nil_append]
  rw [if_neg one]
  by_cases two : c.toNat ≤ 0x7ff
  · rw [if_pos two, List.cons_append, List.cons_append, List.nil_append,
      piecesAfter_two (by omega) two, whole]
  rw [if_neg two]
  by_cases three : c.toNat ≤ 0xffff
  · rw [if_pos three, List.cons_append, List.cons_append, List.cons_append, List.nil_append,
      piecesAfter_three (by omega) three (by omega), whole]
  · rw [if_neg three, List.cons_append, List.cons_append, List.cons_append, List.cons_append,
      List.nil_append, piecesAfter_four (by omega) (by omega), whole]

@[simp] theorem encode_nil : encode [] = [] := rfl

@[simp] theorem encode_cons (c : Char) (chars : List Char)
    : encode (c :: chars) = String.utf8EncodeChar c ++ encode chars := by
  simp [encode]

@[simp] theorem encode_append (left right : List Char)
    : encode (left ++ right) = encode left ++ encode right := by
  simp [encode]

/-- A character of the first half of an octet's range is that one octet. -/
theorem encodeChar_small {c : Char} (small : c.toNat < 0x80)
    : String.utf8EncodeChar c = [UInt8.ofNat c.toNat] := by
  have code : c.val.toNat = c.toNat := rfl
  simp only [String.utf8EncodeChar, code]
  rw [if_pos (Nat.le_of_lt_succ small)]

/-- A character takes one octet at least, by induction on the text. -/
theorem length_le_encode (chars : List Char) : chars.length ≤ (encode chars).length := by
  induction chars with
  | nil => exact Nat.le_refl 0
  | cons c rest ih =>
      rw [encode_cons, List.length_append, String.length_utf8EncodeChar, List.length_cons, Nat.add_comm]
      exact Nat.add_le_add c.utf8Size_pos ih

/-- A text falls into its characters, by induction on them. -/
theorem pieces_encode (chars : List Char) : pieces (encode chars) = chars.map .char := by
  induction chars with
  | nil => rfl
  | cons c rest ih =>
      rw [pieces] at ih ⊢
      rw [encode_cons, piecesAfter_encodeChar, ih, List.map_cons]

theorem lossy_encode (chars : List Char) : lossy (encode chars) = chars := by
  rw [lossy, pieces_encode, List.map_map]
  exact List.map_id chars

theorem flawAfter_chars (sound : Nat) (chars : List Char)
    : flawAfter sound (chars.map .char) = none := by
  induction chars generalizing sound with
  | nil => rfl
  | cons c rest ih => exact ih _

/-- Encoding loses nothing: the octets of a text are read back as the text. -/
theorem decode_encode (chars : List Char) : decode (encode chars) = .ok (String.ofList chars) := by
  simp only [decode, flaw?, lossy_encode, pieces_encode, flawAfter_chars]

/-- The octets of different texts differ, since they are read back. -/
theorem encode_injective {left right : List Char} (same : encode left = encode right)
    : left = right := by
  have read := (decode_encode left).symm.trans ((congrArg decode same).trans (decode_encode right))
  exact String.ofList_injective (Except.ok.inj read)

-----------------------------------------------------------------------------------------
-- Octets that are characters of their own
-----------------------------------------------------------------------------------------

/-- All octets awaited lie beyond those that are characters of their own. -/
def Begun.IsProper (part : Begun) : Prop := ∀ range ∈ part.awaited, 0x80 ≤ range.1

theorem isProper_of_opening {b : UInt8} {part : Begun} (begun : opening b = .begun part)
    : part.IsProper := by
  rw [opening] at begun
  repeat' split at begun
  all_goals cases begun <;> simp [Begun.IsProper]

theorem Begun.IsProper.next {b : UInt8} {part longer : Begun} (proper : part.IsProper)
    (begun : part.next b = .begun longer)
    : longer.IsProper := by
  rw [Begun.next] at begun
  split at begun
  next => cases begun
  next awaits =>
    simp only at begun
    repeat' split at begun
    all_goals cases begun
    exact fun range member => proper range (awaits ▸ List.mem_cons_of_mem _ member)

/-- An octet that is a character of its own goes on with no other. -/
theorem Begun.IsProper.next_single {b : UInt8} {part : Begun} (proper : part.IsProper)
    (single : b < 0x80)
    : part.next b = .stray := by
  rw [Begun.next]
  split
  next => rfl
  next low high awaited awaits =>
    have above : 0x80 ≤ low := proper (low, high) (awaits ▸ List.mem_cons_self)
    have below : ¬low ≤ b := UInt8.not_le.mpr (UInt8.lt_of_lt_of_le single above)
    simp [below]

/-- A piece as it is when other octets follow: it no longer stands at the end. -/
def Piece.followed : Piece → Piece
  | .cut width => .stray width
  | piece => piece

@[simp] theorem Piece.shown_char (c : Char) : (Piece.char c).shown = c := rfl

@[simp] theorem Piece.shown_followed (piece : Piece) : piece.followed.shown = piece.shown := by
  cases piece <;> rfl

theorem Piece.char_shown_followed (piece : Piece)
    : .char piece.shown = piece.followed ↔ .char piece.shown = piece := by
  cases piece <;> simp [followed]

/-- An octet that is a character of its own ends whatever was begun before it, by induction on that. -/
theorem piecesAfter_single {b : UInt8} (single : b < 0x80) (octets rest : Octets)
    (part : Option Begun) (proper : ∀ begun ∈ part, begun.IsProper)
    : piecesAfter part (octets ++ b :: rest)
      = (piecesAfter part octets).map Piece.followed
        ++ .char (Char.ofNat b.toNat) :: piecesAfter none rest := by
  have opens : opening b = .whole (Char.ofNat b.toNat) := by rw [opening, if_pos single]
  induction octets generalizing part with
  | nil =>
      cases part with
      | none => simp only [List.nil_append, piecesAfter, opens, List.map_nil]
      | some begun =>
          have ends := (proper begun rfl).next_single single
          simp only [List.nil_append, piecesAfter, ends, opens, List.map_cons, List.map_nil,
            Piece.followed, List.cons_append]
  | cons a octets ih =>
      have fresh := ih none (by simp)
      have opened (longer : Begun) (begun : opening a = .begun longer) :=
        ih (some longer) (by simpa using isProper_of_opening begun)
      cases part with
      | none =>
          rw [List.cons_append, piecesAfter, piecesAfter]
          cases reading : opening a with
          | whole c => simp only [fresh]; rfl
          | begun longer => simp only [opened longer reading]
          | stray => simp only [fresh]; rfl
      | some begun =>
          have own : begun.IsProper := proper begun rfl
          rw [List.cons_append, piecesAfter, piecesAfter]
          cases goesOn : begun.next a with
          | whole c => simp only [fresh]; rfl
          | begun longer => simp only [ih (some longer) (by simpa using own.next goesOn)]
          | stray =>
              cases reading : opening a with
              | whole c => simp only [fresh]; rfl
              | begun other => simp only [opened other reading]; rfl
              | stray => simp only [fresh]; rfl

/-- There is no flaw just if all pieces are characters, by induction on them. -/
theorem flawAfter_eq_none {sound : Nat} {ps : List Piece}
    : flawAfter sound ps = none ↔ ∀ piece ∈ ps, .char piece.shown = piece := by
  induction ps generalizing sound with
  | nil => simp [flawAfter]
  | cons piece rest ih =>
      cases piece with
      | char c => simp [flawAfter, ih, Piece.shown]
      | stray | cut => simp [flawAfter, Piece.shown]

/-- A text stays one when such an octet is put behind it, and what is none becomes none. -/
theorem decode_concat {b : UInt8} (single : b < 0x80) (octets : Octets)
    : match decode octets with
      | .ok text =>
          decode (octets ++ [b]) = .ok (String.ofList (text.toList ++ [Char.ofNat b.toNat]))
      | .error _ => ∃ flaw, decode (octets ++ [b]) = .error flaw := by
  have split_ : pieces (octets ++ [b])
      = (pieces octets).map Piece.followed ++ [.char (Char.ofNat b.toNat)] :=
    piecesAfter_single single octets [] none (by simp)
  have flawless : flaw? (octets ++ [b]) = none ↔ flaw? octets = none := by
    simp [flaw?, flawAfter_eq_none, split_, Piece.char_shown_followed, or_imp, forall_and]
  have shown : lossy (octets ++ [b]) = lossy octets ++ [Char.ofNat b.toNat] := by
    simp [lossy, split_, Function.comp_def]
  rw [decode, decode]
  cases found : flaw? octets with
  | none => simp [flawless.mpr found, shown]
  | some flaw =>
      obtain ⟨other, found⟩ : ∃ other, flaw? (octets ++ [b]) = some other :=
        Option.ne_none_iff_exists'.mp fun none_ => by simp [flawless.mp none_] at found
      exact ⟨other, by rw [found]⟩

end PersonRegistry.Text.Utf8
