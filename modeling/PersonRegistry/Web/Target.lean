import PersonRegistry.Text.Utf8

/-! What a request asks for: a path and a query, given alone or behind the name of a server. -/

namespace PersonRegistry.Web

open Text (Octets)

structure Target where
  path : Octets
  query : Option Octets := none
  deriving DecidableEq, Repr

namespace Target

def sizeLimit : Nat := 65534

def isAlphanumeric (b : UInt8) : Bool :=
  (0x30 ≤ b && b ≤ 0x39) || (0x41 ≤ b && b ≤ 0x5a) || (0x61 ≤ b && b ≤ 0x7a)

def isPathOctet (b : UInt8) : Bool :=
  b = 0x21 || b = 0x22 || (0x24 ≤ b && b ≤ 0x3b) || b = 0x3d || (0x40 ≤ b && b ≤ 0x5f)
    || (0x61 ≤ b && b ≤ 0x7e) || 0x7f ≤ b

def isQueryOctet (b : UInt8) : Bool :=
  b = 0x21 || (0x24 ≤ b && b ≤ 0x3b) || b = 0x3d || (0x3f ≤ b && b ≤ 0x7e) || 0x7f ≤ b

/-- An octet other than a percent sign that may stand in the name of a server. -/
def isAuthorityOctet (b : UInt8) : Bool :=
  isAlphanumeric b || [0x21, 0x23, 0x24, 0x26, 0x27, 0x28, 0x29, 0x2a, 0x2b, 0x2c, 0x2d, 0x2e, 0x2f, 0x3a,
    0x3b, 0x3d, 0x3f, 0x40, 0x5b, 0x5d, 0x5f, 0x7e].contains b

/-- Reads a path and a query; a fragment behind them is left out. -/
def ofPath (octets : Octets) : Option Target :=
  let path := octets.takeWhile fun b => b != 0x3f && b != 0x23
  let behind := octets.drop path.length
  if !path.all isPathOctet then none
  else if behind.head? = some 0x3f then
    let query := behind.tail.takeWhile (· != 0x23)
    if query.all isQueryOctet then some ⟨path, some query⟩ else none
  else some ⟨path, none⟩

/-- What is known while the name of a server is read: colons since the last mark that starts them
anew, brackets, and a percent sign that no at sign followed.
-/
structure AuthorityScan where
  colons : Nat := 0
  opened : Bool := false
  closed : Bool := false
  percent : Bool := false
  lastIsAt : Bool := false

/-- Takes one octet of the name of a server. -/
def AuthorityScan.next (s : AuthorityScan) (b : UInt8) : Option AuthorityScan :=
  let s' := { s with lastIsAt := b = 0x40 }
  if b = 0x3a then if 8 ≤ s.colons then none else some { s' with colons := s.colons + 1 }
  else if b = 0x5b then if s.percent || s.opened then none else some { s' with opened := true }
  else if b = 0x5d then
    if !s.opened || s.closed then none
    else some { s' with closed := true, colons := 0, percent := false }
  else if b = 0x40 then some { s' with colons := 0, percent := false }
  else if b = 0x25 then some { s' with percent := true }
  else if isAuthorityOctet b then some s'
  else none

/-- The name of a server is in order once it is read. -/
def AuthorityScan.isComplete (s : AuthorityScan) : Bool :=
  s.opened == s.closed && s.colons ≤ 1 && !s.lastIsAt && !s.percent

/-- Splits octets at the end of the name of a server, if that is in order. -/
def splitAuthority (octets : Octets) : Option (Octets × Octets) := do
  let authority := octets.takeWhile fun b => b != 0x2f && b != 0x3f && b != 0x23
  let scan ← authority.foldlM AuthorityScan.next {}
  if scan.isComplete then some (authority, octets.drop authority.length) else none

def isSchemeOctet (b : UInt8) : Bool :=
  isAlphanumeric b || b = 0x2b || b = 0x2d || b = 0x2e

def schemeLimit : Nat := 64

/-- What follows a scheme, a colon and two slashes; nothing if a target has no scheme. -/
def afterScheme? (octets : Octets) : Option (Nat × Octets) :=
  let scheme := octets.takeWhile isSchemeOctet
  match octets.drop scheme.length with
  | 0x3a :: 0x2f :: 0x2f :: rest => some (scheme.length, rest)
  | _ => none

/-- Reads a target. Without a scheme it is a path, an asterisk, or the name of a server alone; behind a
scheme, the name of a server must stand.
-/
def ofText (text : String) : Option Target :=
  let octets := Text.Utf8.ofString text
  if octets = [] || sizeLimit < octets.length then none
  else if octets = [0x2a] then some ⟨octets, none⟩
  else if octets.head? = some 0x2f then ofPath octets
  else
    match afterScheme? octets with
    | some (size, rest) => do
        let (authority, rest) ← splitAuthority rest
        let target ← ofPath rest
        if schemeLimit < size || authority = [] then none
        else if target.path = [] then some { target with path := [0x2f] }
        else some target
    | none => do
        let (_, rest) ← splitAuthority octets
        if rest = [] then some ⟨[], none⟩ else none

end Target
end PersonRegistry.Web
