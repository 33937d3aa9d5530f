/-
# Sources of a pattern

The captures that a pattern stands for: all files that match it, opened in the order of the search.
Directories are passed over. The first file that cannot be opened is an error whatever comes after
it, so is the first directory in the way of the search that cannot be listed, and so is a pattern
that no file matches.
-/
import TrafficReplay.Glob.Search
import TrafficReplay.Source

namespace TrafficReplay

/-- Opens all files among what a search has found, in order. -/
def openSources (tree : FileTree) : List Glob.Finding → Logged (Except ReplayError (List Source))
  | [] => pure (.ok [])
  | .unlisted path fault :: _ => pure (.error (.cannotOpen path (.unlisted path fault)))
  | .path path :: findings =>
    if tree.isDirectory path then do
      Logged.report [.skippedDirectory path]
      openSources tree findings
    else do
      match ← Source.openAt tree path with
      | .error e => return .error e
      | .ok source =>
        match ← openSources tree findings with
        | .error e => return .error e
        | .ok sources => return .ok (source :: sources)

/-- Opens the captures that the search for a pattern has come to, whichever that search is. -/
def openFound (tree : FileTree) (pattern : String) :
    Except Glob.PatternError (List Glob.Finding) → Logged (Except ReplayError (List Source))
  | .error e => pure (.error (.invalidPattern pattern e))
  | .ok findings => do
    match ← openSources tree findings with
    | .error e => return .error e
    | .ok [] => return .error (.noSources pattern)
    | .ok sources => return .ok sources

/-- Opens the captures that a pattern stands for. -/
def resolveSources (tree : FileTree) (pattern : String) :
    Logged (Except ReplayError (List Source)) :=
  openFound tree pattern (Glob.search tree pattern)

end TrafficReplay
