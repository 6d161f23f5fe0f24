import PersonRegistry.Text.Utf8

/-! A queue that messages are written to, one on each line. A message and its newline are written one
after the other, so a call that stops between the two leaves a line without an end.
-/

namespace PersonRegistry.Queue

open Text (Octets)

def newline : UInt8 := 0x0a

structure LineSink where
  written : Octets := []
  deriving DecidableEq, Repr

namespace LineSink

instance : Inhabited LineSink := ⟨{}⟩

def framed (message : Octets) : Octets := message ++ [newline]

def produce (sink : LineSink) (message : Octets) : LineSink :=
  ⟨sink.written ++ framed message⟩

/-- Writes a message up to some number of octets, as a call does that fails or is given up. -/
def produceUpTo (sink : LineSink) (message : Octets) (size : Nat) : LineSink :=
  ⟨sink.written ++ (framed message).take size⟩

end LineSink
end PersonRegistry.Queue
