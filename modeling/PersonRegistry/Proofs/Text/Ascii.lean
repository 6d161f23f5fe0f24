import PersonRegistry.Proofs.Text.Utf8

/-! Texts of ASCII characters: each is one octet, so that octets have the length and the order of the
characters.
-/

namespace PersonRegistry.Text

def IsAscii (chars : List Char) : Prop := ∀ c ∈ chars, c.toNat < 0x80

namespace Utf8

/-- The octet of an ASCII character. -/
def asciiOctet (c : Char) : UInt8 := UInt8.ofNat c.toNat

theorem toNat_asciiOctet {c : Char} (ascii : c.toNat < 0x80) : (asciiOctet c).toNat = c.toNat := by
  simp only [asciiOctet, UInt8.toNat_ofNat']
  omega

/-- Every ASCII character is its one octet, by induction on the text. -/
theorem encode_of_ascii {chars : List Char} (ascii : IsAscii chars)
    : encode chars = chars.map asciiOctet := by
  induction chars with
  | nil => rfl
  | cons c rest ih =>
      obtain ⟨small, others⟩ := List.forall_mem_cons.mp ascii
      rw [encode_cons, encodeChar_small small, ih others]
      rfl

theorem length_encode_of_ascii {chars : List Char} (ascii : IsAscii chars)
    : (encode chars).length = chars.length := by
  rw [encode_of_ascii ascii, List.length_map]

/-- Octets compare as their characters do, by induction on the text that comes first. -/
theorem encode_lt_encode {a b : List Char} (asciiA : IsAscii a) (asciiB : IsAscii b) (before : a < b)
    : encode a < encode b := by
  rw [encode_of_ascii asciiA, encode_of_ascii asciiB]
  induction a generalizing b with
  | nil =>
      cases b with
      | nil => exact absurd before (List.lt_irrefl [])
      | cons d more => exact List.nil_lt_cons _ _
  | cons c rest ih =>
      cases b with
      | nil => cases before
      | cons d more =>
          obtain ⟨smallC, smallRest⟩ := List.forall_mem_cons.mp asciiA
          obtain ⟨smallD, smallMore⟩ := List.forall_mem_cons.mp asciiB
          apply List.cons_lt_cons_iff.mpr
          rcases List.cons_lt_cons_iff.mp before with less | ⟨rfl, later⟩
          · have values : (asciiOctet c).toNat < (asciiOctet d).toNat := by
              rw [toNat_asciiOctet smallC, toNat_asciiOctet smallD]
              exact less
            exact Or.inl (UInt8.lt_iff_toNat_lt.mpr values)
          · exact Or.inr ⟨rfl, ih smallRest smallMore later⟩

end Utf8
end PersonRegistry.Text
