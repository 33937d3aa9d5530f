/-
# Reasons to stop

Why a replay is over, as its summary tells it.
-/
import TrafficReplay.Text.Quoted

namespace TrafficReplay

/-- Why a replay is over. -/
inductive StopReason
  /-- All captures were replayed. -/
  | exhausted
  /-- A stop was requested. -/
  | cancelled
  /-- Nobody is left to read. -/
  | disconnected
  /-- An error ended the replay; the message is the one that the reader was told. -/
  | failed (message : String)
  deriving Repr, DecidableEq

def StopReason.name : StopReason → String
  | exhausted => "Exhausted"
  | cancelled => "Cancelled"
  | disconnected => "Disconnected"
  | failed message => "Failed(" ++ Text.quoted message ++ ")"

end TrafficReplay
