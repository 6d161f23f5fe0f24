import PersonRegistry.Text.Parts
import PersonRegistry.Text.Utf8

/-! Texts as web addresses carry them: with percent escapes, and in forms with a plus for each space. -/

namespace PersonRegistry.Web

open Text (Octets)

/-- The value of a hexadecimal digit of either case. -/
def hexValue? (b : UInt8) : Option Nat :=
  if 0x30 ≤ b && b ≤ 0x39 then some (b.toNat - 0x30)
  else if 0x61 ≤ b && b ≤ 0x66 then some (b.toNat - 0x61 + 10)
  else if 0x41 ≤ b && b ≤ 0x46 then some (b.toNat - 0x41 + 10)
  else none

def hexPair? (high low : UInt8) : Option UInt8 :=
  match hexValue? high, hexValue? low with
  | some high, some low => some (UInt8.ofNat (high * 16 + low))
  | _, _ => none

/-- Octets with their percent escapes undone; a percent sign that starts none stands for itself. -/
def percentDecode : Octets → Octets
  | [] => []
  | 0x25 :: high :: low :: rest =>
      match hexPair? high low with
      | some b => b :: percentDecode rest
      | none => 0x25 :: percentDecode (high :: low :: rest)
  | b :: rest => b :: percentDecode rest

/-- A field of a form as text: a plus is a space, and octets that are no UTF-8 are replaced. -/
def formDecode (octets : Octets) : String :=
  String.ofList
    (Text.Utf8.lossy (percentDecode (octets.map fun b => if b = 0x2b then 0x20 else b)))

/-- A field of a form: what stands before and after the first equals sign. -/
def formField (octets : Octets) : String × String :=
  let name := octets.takeWhile (· != 0x3d)
  (formDecode name, formDecode (octets.drop (name.length + 1)))

/-- The fields of a form, in order. Empty ones count for nothing. -/
def formFields (octets : Octets) : List (String × String) :=
  ((Text.partsAt 0x26 octets).filter (!·.isEmpty)).map formField

/-- An octet that a form holds as it is. -/
def isFormPlain (b : UInt8) : Bool :=
  (0x30 ≤ b && b ≤ 0x39) || (0x41 ≤ b && b ≤ 0x5a) || (0x61 ≤ b && b ≤ 0x7a)
    || b = 0x2a || b = 0x2d || b = 0x2e || b = 0x5f

def capitalHex (n : Nat) : Char := (Nat.digitChar n).toUpper

def formEncode (s : String) : String :=
  String.ofList <| (Text.Utf8.ofString s).flatMap fun b =>
    if isFormPlain b then [Char.ofNat b.toNat]
    else if b = 0x20 then ['+']
    else ['%', capitalHex (b.toNat / 16), capitalHex (b.toNat % 16)]

end PersonRegistry.Web
