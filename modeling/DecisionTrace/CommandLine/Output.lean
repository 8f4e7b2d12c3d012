import DecisionTrace.CommandLine.Grammar

/-!
# What a program leaves behind

A program run as a value: the texts it prints and the status it ends with. A program that ends on
its own without naming a status has none.
-/

namespace DecisionTrace

/-- The printed texts and the exit status of a program. -/
structure ProgramOutput where
  stdout : String := ""
  stderr : String := ""
  status : Option Nat := none
deriving DecidableEq, Repr

/-- The output of a program that stops at its command line. -/
def Grammar.stopOutput (g : Grammar) : CommandLineStop → ProgramOutput
  | .help => { stdout := g.helpText, status := some 0 }
  | .refused reason => { stderr := g.refusalText reason, status := some 2 }

end DecisionTrace
