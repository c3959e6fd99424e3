import MovieCatalog.Log.Filter
import MovieCatalog.Startup

/-!
# The command line

Decides how the program starts, and shows what there is to be shown. Listening is left to a server
in front of the service.
-/

namespace MovieCatalog

/-- The variables of the environment that are set, among those the program reads. -/
def readEnvironment : IO (List (String × String)) := do
  let mut found := []
  for s in Setting.all do
    if let some value ← IO.getEnv s.variableName then
      found := found ++ [(s.variableName, value)]
  return found

end MovieCatalog

open MovieCatalog in
def main (arguments : List String) : IO UInt32 := do
  let start := Startup.ofArguments arguments (← readEnvironment)
  IO.print start.output
  IO.eprint start.errorOutput
  if let .listening settings service := start then
    let filter := Log.Filter.choose (← IO.getEnv Log.Filter.variableName) settings.logLevel
    IO.eprintln (filter.text ++ ": " ++ String.ofList settings.bind.text ++ " -> "
      ++ String.ofList service.searchUrl.text)
  return start.exitCode?.getD 0
