/-
# Merging sources

Of all records in hand, a response goes first, so that nobody who waits for it is kept waiting;
among requests and others the oldest does. Where several are equally good, the source that was
opened first goes first.
-/
import TrafficReplay.Source

namespace TrafficReplay.Merge

/-- What decides which source goes next: the kinds and times of the records in hand. -/
structure Candidate where
  index : Nat
  timestamp : Int
  deriving Repr, DecidableEq

/-- The better one of the best so far and a new candidate: the new one only if it is older. -/
def older (best : Option Candidate) (candidate : Candidate) : Candidate :=
  match best with
  | some best => if best.timestamp ≤ candidate.timestamp then best else candidate
  | none => candidate

/-- The index of the source that goes next among sources numbered from `index` on, `best` being the
best one in front of them. -/
def selectFrom (best : Option Candidate) (index : Nat) : List Source → Option Nat
  | [] => best.map (·.index)
  | source :: sources =>
    match source.lookahead with
    | none => selectFrom best (index + 1) sources
    | some record =>
      if record.kind = .response then some index
      else selectFrom (some (older best ⟨index, record.timestamp⟩)) (index + 1) sources

/-- The index of the source that goes next, if any of them has a record in hand. -/
def select (sources : List Source) : Option Nat :=
  selectFrom none 0 sources

end TrafficReplay.Merge
