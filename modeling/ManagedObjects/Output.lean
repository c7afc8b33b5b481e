import ManagedObjects.Fault
import ManagedObjects.Text.Utf8

namespace ManagedObjects

structure Capture where
  bytes : List UInt8
  deriving DecidableEq

namespace Capture

def empty : Capture := ⟨[]⟩

def write (c : Capture) (chunk : List UInt8) : Capture :=
  ⟨c.bytes ++ chunk⟩

def contents (c : Capture) : String :=
  Text.decodeLossy c.bytes

end Capture

/-- The captures of a program, numbered in the order in which they are made, and the buffers they
write to. A clone has the buffer of its original. -/
structure Captures where
  buffers : List Capture
  targets : List Nat
  deriving DecidableEq

namespace Captures

def empty : Captures := ⟨[], []⟩

def make (cs : Captures) : Captures where
  buffers := cs.buffers ++ [.empty]
  targets := cs.targets ++ [cs.buffers.length]

def clone? (cs : Captures) (capture : Nat) : Option Captures := do
  let target ← cs.targets[capture]?
  some { cs with targets := cs.targets ++ [target] }

def write? (cs : Captures) (capture : Nat) (chunk : List UInt8) : Option (Nat × Captures) := do
  let target ← cs.targets[capture]?
  some (chunk.length, { cs with buffers := cs.buffers.modify target (·.write chunk) })

def contents? (cs : Captures) (capture : Nat) : Option String := do
  let target ← cs.targets[capture]?
  let buffer ← cs.buffers[target]?
  some buffer.contents

end Captures

inductive SinkUse
  | write (chunk : List UInt8)
  | flush
  deriving DecidableEq

/-- An output of any kind. Whether it refuses what it is asked, and with which error, may depend on
all that it was asked before. -/
structure Sink where
  refusal? : List SinkUse → SinkUse → Option String
  uses : List SinkUse

def Capture.use (c : Capture) : SinkUse → Capture
  | .write chunk => c.write chunk
  | .flush => c

namespace Sink

def reliable : Sink := ⟨fun _ _ => none, []⟩

def captured (s : Sink) : Capture :=
  s.uses.foldl Capture.use .empty

def use (s : Sink) (what : SinkUse) : Except Fault Unit × Sink :=
  ((s.refusal? s.uses what).elim (.ok ()) fun text => .error (.io text),
    { s with uses := s.uses ++ [what] })

def useAll (s : Sink) : List SinkUse → Except Fault Unit × Sink
  | [] => (.ok (), s)
  | what :: later =>
      match s.use what with
      | (.error f, s) => (.error f, s)
      | (.ok _, s) => s.useAll later

def writeLine (s : Sink) (line : String) : Except Fault Unit × Sink :=
  s.useAll [.write (Text.encode line), .write (Text.encode "\n"), .flush]

end Sink
end ManagedObjects
