import Ryll.Foundation.Outcome

/-!
# Outgoing streams

A channel writes its messages to one stream, and the first write that fails ends the channel.
Which write that will be is not known beforehand, so a stream carries how many more it takes.
-/

namespace Ryll

/-- A stream of messages that may fail. -/
structure Outgoing (μ : Type) where
  sent : List μ
  /-- How many more writes succeed, or `none` if every one does. -/
  room : Option Nat

namespace Outgoing

variable {ε μ : Type}

def opened (room : Option Nat) : Outgoing μ := ⟨[], room⟩

def write (closed : ε) (stream : Outgoing μ) (message : μ) : Outcome ε (Outgoing μ) :=
  match stream.room with
  | none => .ok { stream with sent := stream.sent ++ [message] }
  | some 0 => .error closed
  | some (room + 1) => .ok ⟨stream.sent ++ [message], some room⟩

theorem write_ensures (closed : ε) (stream : Outgoing μ) (message : μ) :
    (stream.write closed message).Ensures fun stream' =>
      stream'.sent = stream.sent ++ [message] := by
  unfold write
  split <;> simp

end Outgoing

end Ryll
