import StorageFeatures.Cli.Run

/-!
# The program

Runs the command line on the real environment. No way to an API server is configured here, so
only what needs none gets far.
-/

namespace StorageFeatures.Cli

/-- The variables of the environment that parameters name. -/
def variableNames : List String :=
  (Parameter.common ++ CommandName.all.flatMap CommandName.parameters).filterMap Parameter.env

/-- Asks the environment for every variable that a parameter names. -/
def readEnvironment : IO (String → Option String) := do
  let values ← variableNames.mapM fun name => return (name, ← IO.getEnv name)
  return fun name => (values.lookup name).join

end StorageFeatures.Cli

open StorageFeatures.Cli in
def main (arguments : List String) : IO UInt32 := do
  let environment ← readEnvironment
  match run { environment, server := none } arguments with
  | none =>
    IO.eprintln "Error: no plugin can be reached"
    return 1
  | some ending =>
    IO.print ending.stdout
    IO.eprint ending.stderr
    return UInt32.ofNat ending.code
