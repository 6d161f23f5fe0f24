/-! Lengths of time in whole milliseconds, as messages show them. -/

namespace PersonRegistry.Time

abbrev Span := Nat

namespace Span

def withoutTrailingZeros (digits : List Char) : List Char :=
  (digits.reverse.dropWhile (· = '0')).reverse

/-- The three digits of a fraction of a second, and no more than needed. -/
def fractionDigits (milliseconds : Nat) : List Char :=
  withoutTrailingZeros
    [Nat.digitChar (milliseconds / 100 % 10), Nat.digitChar (milliseconds / 10 % 10),
      Nat.digitChar (milliseconds % 10)]

/-- A length of time in the largest of seconds and milliseconds that it reaches. -/
def text (span : Span) : String :=
  if span = 0 then "0ns"
  else if span < 1000 then s!"{span}ms"
  else
    match fractionDigits (span % 1000) with
    | [] => s!"{span / 1000}s"
    | digits => s!"{span / 1000}." ++ String.ofList digits ++ "s"

end Span
end PersonRegistry.Time
