/-
# Errors of a replay

Why a replay cannot start, or cannot go on. Each error keeps its cause; `ReplayError.message` is
what a reader is told, and `ReplayError.causes` is the same followed by the cause in its own words.
-/
import TrafficReplay.Decimal.Layout
import TrafficReplay.Fault
import TrafficReplay.Glob.Pattern
import TrafficReplay.Text.Quoted

namespace TrafficReplay

/-- Why a replay fails. -/
inductive ReplayError
  /-- The source pattern is no pattern. -/
  | invalidPattern (pattern : String) (cause : Glob.PatternError)
  /-- The pattern matches no file. -/
  | noSources (pattern : String)
  /-- A capture cannot be opened. -/
  | cannotOpen (path : String) (cause : Fault)
  /-- A compressed capture does not start like one. -/
  | cannotDecompress (path : String) (cause : Fault)
  /-- A capture cannot be read any further. -/
  | cannotRead (path : String) (cause : Fault)
  /-- The speed factor is not a positive finite number. -/
  | invalidSpeed (factor : Float)

namespace ReplayError

/-- What went wrong underneath, where there is something underneath. -/
def cause? : ReplayError → Option String
  | invalidPattern _ cause => some cause.message
  | cannotOpen _ cause | cannotDecompress _ cause | cannotRead _ cause => some cause.message
  | noSources _ | invalidSpeed _ => none

def headline : ReplayError → String
  | invalidPattern pattern _ => "invalid source pattern '" ++ pattern ++ "'"
  | noSources pattern => "no files match pattern '" ++ pattern ++ "'"
  | cannotOpen path _ => "cannot open capture " ++ Text.quoted path
  | cannotDecompress path _ => "cannot initialize gzip decoder for " ++ Text.quoted path
  | cannotRead path _ => "read error in " ++ Text.quoted path
  | invalidSpeed factor =>
    "speed factor must be finite and greater than zero, got " ++ Decimal.plain factor

/-- The whole message: what the error says of itself, and its cause. -/
def message (e : ReplayError) : String :=
  match e.cause? with
  | some cause => e.headline ++ ": " ++ cause
  | none => e.headline

/-- The message, and after it the cause on its own. -/
def causes (e : ReplayError) : List String :=
  e.message :: e.cause?.toList

end ReplayError

end TrafficReplay
