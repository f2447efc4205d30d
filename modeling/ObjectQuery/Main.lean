import ObjectQuery.Query.Command

/-!
The command line.
-/

open ObjectQuery

namespace ObjectQuery.Command

def usage : String :=
  "usage: --query FILE --candidates FILE [--alias NAME] [--debug]"

/-- Prints an error and what lies behind it. -/
def report (error : CommandError) : IO UInt32 := do
  IO.eprintln ("Error: " ++ error.message)
  if let some cause := error.cause? then
    IO.eprintln ("\nCaused by:\n    " ++ cause)
  return 1

/-- Reads a file. -/
def readText (what path : String) : IO (Except CommandError String) := do
  try return .ok (← IO.FS.readFile path)
  catch _ => return .error (.unreadable what path)

/-- Runs the query of one file over the candidates of another. -/
def runFiles (options : Options) : IO UInt32 := do
  match ← readText "query" options.query with
  | .error error => report error
  | .ok document =>
    let (loaded, supply) := (loadQuery document options.candidateName).run ⟨0, 0, 0⟩
    match loaded with
    | .error error => report error
    | .ok query =>
      match ← readText "candidates" options.candidates with
      | .error error => report error
      | .ok text =>
        let (candidates, supply) := (readCandidates text).run supply
        match candidates with
        | .error error => report error
        | .ok candidates =>
          let ((lines, warnings), _) := (execute query candidates).run supply
          for warning in warnings do
            IO.eprintln ("warning: " ++ warning.message)
          match lines with
          | .error error => report error
          | .ok lines =>
            for line in lines do
              IO.println line
            return 0

end ObjectQuery.Command

def main (args : List String) : IO UInt32 := do
  match Command.options? args with
  | some options => Command.runFiles options
  | none =>
    IO.eprintln Command.usage
    return 2
