/-
# Outcomes of programs

What a program leaves behind: its exit code, what it has written, and the files as they are then. A
program that fails says in what it failed, and lists the causes from the outermost to the innermost
one.
-/
import TrafficReplay.CommandLine.Arguments
import TrafficReplay.Error

namespace TrafficReplay.CommandLine

/-- What a program leaves behind. -/
structure Outcome where
  code : Nat
  /-- What it has written to its standard output. -/
  output : Bytes
  /-- What it has written to its standard error. -/
  diagnostics : Bytes
  tree : FileTree

/-- Why a program fails: what it was about, and the causes, the outermost one first. -/
structure Failure where
  context : String
  causes : List String
  deriving Repr, DecidableEq

namespace Failure

def ofFault (context : String) (fault : Fault) : Failure :=
  ⟨context, [fault.message]⟩

def ofError (context : String) (e : ReplayError) : Failure :=
  ⟨context, e.causes⟩

/-- A text with `first` in front of its first line and `others` in front of each later one. -/
def indented (first others : List Char) (text : List Char) : List Char :=
  match pieces (· = '\n') text with
  | [] => first
  | line :: lines => first ++ line ++ lines.flatMap fun line => '\n' :: others ++ line

def single (cause : String) : List Char :=
  indented (List.replicate 4 ' ') (List.replicate 4 ' ') cause.toList

def label (number : Nat) : List Char :=
  let digits := Nat.toDigits 10 number
  List.replicate (5 - digits.length) ' ' ++ digits ++ [':', ' ']

def numbered (number : Nat) (cause : String) : List Char :=
  indented (label number) (List.replicate 7 ' ') cause.toList

def causeLines : List String → List (List Char)
  | [] => []
  | [cause] => [single cause]
  | causes => causes.mapIdx numbered

def report (failure : Failure) : String :=
  let heading : List Char := if failure.causes = [] then [] else "\n\nCaused by:".toList
  String.ofList ("Error: ".toList ++ failure.context.toList ++ heading ++
    ((causeLines failure.causes).flatMap fun lines => '\n' :: lines) ++ ['\n'])

end Failure

namespace Outcome

def done (output diagnostics : Bytes) (tree : FileTree) : Outcome :=
  ⟨0, output, diagnostics, tree⟩

/-- A program that has failed; `diagnostics` is what it has said before. -/
def failed (output diagnostics : Bytes) (failure : Failure) (tree : FileTree) : Outcome :=
  ⟨1, output, diagnostics ++ Utf8.encode failure.report, tree⟩

def refused (e : UsageError) (tree : FileTree) : Outcome :=
  ⟨2, [], Utf8.encode ("error: " ++ e.message ++ "\n"), tree⟩

def told (text : String) (tree : FileTree) : Outcome :=
  ⟨0, Utf8.encode text, [], tree⟩

end Outcome

end TrafficReplay.CommandLine
