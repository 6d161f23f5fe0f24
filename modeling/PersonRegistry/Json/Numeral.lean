import PersonRegistry.Json.Reader
import PersonRegistry.Number.Scaled

/-! Numbers in JSON texts. A whole number that fits 64 bits stays whole; any other becomes a
floating-point number, from a significand of at most 64 bits and one multiplication or division by a
power of ten.
-/

namespace PersonRegistry.Json

open Text (Octets)

inductive Numeral
  | whole (n : Int)
  | float (x : Binary64)
  deriving DecidableEq, Repr

def digit? (b : UInt8) : Option Nat :=
  if 0x30 ≤ b && b ≤ 0x39 then some (b.toNat - 0x30) else none

def isDigit (b : UInt8) : Bool := (digit? b).isSome

def startsWithDigit : Octets → Bool
  | [] => false
  | b :: _ => isDigit b

/-- Takes digits into a significand as long as it stays within 64 bits. Gives the significand, how many
digits were taken and what is left.
-/
def takeDigits : (significand taken : Nat) → Octets → Nat × Nat × Octets
  | significand, taken, [] => (significand, taken, [])
  | significand, taken, b :: rest =>
      match digit? b with
      | none => (significand, taken, b :: rest)
      | some d =>
          if 0x10000000000000000 ≤ significand * 10 + d then (significand, taken, b :: rest)
          else takeDigits (significand * 10 + d) (taken + 1) rest

/-- The floating-point number of a significand and an exponent of ten. -/
def scaledNumeral (positive : Bool) (significand : Nat) (exponent : Int) : Reader Numeral :=
  match Binary64.scaled? significand exponent with
  | some x => pure (.float (x.withSign (!positive)))
  | none => fail .numberOutOfRange

/-- Adds digits to an exponent. It must stay within 31 bits; beyond them the number is too large, or
zero if the exponent is negative or the significand zero.
-/
def exponentDigits (positive : Bool) (significand : Nat) (start : Int) (upwards : Bool) :
    Nat → Octets → Except Failure (Numeral × Octets)
  | size, [] => scaledNumeral positive significand (if upwards then start + size else start - size) []
  | size, b :: rest =>
      match digit? b with
      | none =>
          scaledNumeral positive significand (if upwards then start + size else start - size)
            (b :: rest)
      | some d =>
          if 0x80000000 ≤ size * 10 + d then
            if significand ≠ 0 && upwards then .error ⟨.numberOutOfRange, rest.length, []⟩
            else .ok (.float (Binary64.zero.withSign (!positive)), rest.dropWhile isDigit)
          else exponentDigits positive significand start upwards (size * 10 + d) rest

/-- Passes over a sign, if there is one, and tells whether it was no minus. -/
def exponentSign : Reader Bool := do
  match ← look with
  | some Octet.plus => advance; pure true
  | some Octet.minus => advance; pure false
  | _ => pure true

/-- Reads an exponent, whose letter is still to come. -/
def exponentPart (positive : Bool) (significand : Nat) (start : Int) : Reader Numeral := do
  advance
  let upwards ← exponentSign
  match ← look with
  | none => fail .endInValue
  | some b =>
      advance
      match digit? b with
      | none => fail .invalidNumber
      | some d => exponentDigits positive significand start upwards d

/-- Reads what may follow the digits: an exponent, or nothing. -/
def afterDigits (positive : Bool) (significand : Nat) (exponent : Int) : Reader Numeral := do
  match ← look with
  | some Octet.letterE | some Octet.capitalE => exponentPart positive significand exponent
  | _ => scaledNumeral positive significand exponent

/-- Reads a fraction, whose point is still to come. At least one digit must follow; digits beyond 64
bits are dropped.
-/
def fractionPart (positive : Bool) (significand : Nat) (exponent : Int) : Reader Numeral := do
  advance
  let (significand, taken, rest) := takeDigits significand 0 (← get)
  set rest
  if taken = 0 && !startsWithDigit rest then
    match ← look with
    | none => fail .endInValue
    | some _ => failNext .invalidNumber
  else
    set (rest.dropWhile isDigit)
    afterDigits positive significand (exponent - taken)

/-- Reads what may follow a whole part of at most 64 bits. A negative number below -2 to the power 63
is no whole number, nor is -0.
-/
def afterWhole (positive : Bool) (significand : Nat) : Reader Numeral := do
  match ← look with
  | some Octet.point => fractionPart positive significand 0
  | some Octet.letterE | some Octet.capitalE => exponentPart positive significand 0
  | _ =>
      if positive then pure (.whole significand)
      else if 0 < significand && significand ≤ 0x8000000000000000 then pure (.whole (-(significand : Int)))
      else scaledNumeral false significand 0

/-- Reads a number without its minus. A whole part has no leading zero; digits beyond 64 bits only
raise the exponent.
-/
def unsignedNumeral (positive : Bool) : Reader Numeral := do
  match ← look with
  | none => fail .endInValue
  | some b =>
      advance
      match digit? b with
      | none => fail .invalidNumber
      | some 0 =>
          if startsWithDigit (← get) then failNext .invalidNumber else afterWhole positive 0
      | some d =>
          let (significand, _, rest) := takeDigits d 0 (← get)
          let beyond := (rest.takeWhile isDigit).length
          set (rest.drop beyond)
          if beyond = 0 then afterWhole positive significand
          else
            match ← look with
            | some Octet.point => fractionPart positive significand beyond
            | _ => afterDigits positive significand beyond

/-- Reads a number that starts with the given octet. -/
def numeral (start : UInt8) : Reader Numeral := do
  if start = Octet.minus then
    advance
    unsignedNumeral false
  else unsignedNumeral true

end PersonRegistry.Json
