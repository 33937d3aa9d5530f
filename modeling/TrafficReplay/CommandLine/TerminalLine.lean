/-
# Log lines on a terminal

How a program shows an event to the person in front of it. A pattern can bring characters into what
an event says that a terminal obeys instead of showing; those are shown by their code
(`TerminalLine.guardChar`). The fields of an event stand behind as they are.
-/
import TrafficReplay.CommandLine.LogFilter

namespace TrafficReplay.CommandLine.TerminalLine

/-- The characters below 128 that a terminal obeys, with their codes. -/
def controls : List (Char × String) :=
  [('\x1b', "\\x1b"), ('\x07', "\\x07"), ('\x08', "\\x08"), ('\x0c', "\\x0c"), ('\x7f', "\\x7f")]

/-- A character of what an event says, as a terminal can show it. -/
def guardChar (c : Char) : List Char :=
  match controls.lookup c with
  | some code => code.toList
  | none => if 0x80 ≤ c.toNat ∧ c.toNat ≤ 0x9F then Text.codeEscape c else [c]

def guarded (text : String) : String :=
  String.ofList (text.toList.flatMap guardChar)

def levelWidth : Nat := 5

/-- The event as a line, behind its time: level, origin, and what it says. -/
def ofEvent (time : String) (event : Event) : String :=
  let level := event.level.name
  time ++ " " ++ String.ofList (List.replicate (levelWidth - level.length) ' ') ++ level ++ " " ++
    event.origin ++ ": " ++ guarded event.headline ++ event.fieldText Decimal.pointed ++ "\n"

/-- The lines of the events that a filter shows; `time` stands in front of each. -/
def ofLog (filter : LogFilter) (time : String) (log : List Event) : String :=
  String.join ((log.filter filter.shows).map (ofEvent time))

end TrafficReplay.CommandLine.TerminalLine
