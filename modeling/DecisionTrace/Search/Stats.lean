/-!
# Counters of a search

Each frame of a search counts its own steps; the counters of a run are those of its frames put
together. Counts add up, and of two depths the larger remains.
-/

namespace DecisionTrace

/-- How often a search took each kind of step, and how deep it went. -/
structure Stats where
  decisions : Nat := 0
  backtracks : Nat := 0
  propagations : Nat := 0
  conflicts : Nat := 0
  maxDepth : Nat := 0
deriving DecidableEq, Repr

/-- The counters of two parts of a run together. -/
def Stats.merge (s t : Stats) : Stats where
  decisions := s.decisions + t.decisions
  backtracks := s.backtracks + t.backtracks
  propagations := s.propagations + t.propagations
  conflicts := s.conflicts + t.conflicts
  maxDepth := max s.maxDepth t.maxDepth

end DecisionTrace
