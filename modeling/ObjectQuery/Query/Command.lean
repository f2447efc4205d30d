import ObjectQuery.Query.Document

/-!
The command that runs a query document over a JSON array of candidates and prints each row as JSON.
-/

namespace ObjectQuery

/-- Why the command ends without rows. -/
inductive CommandError where
  | unreadable (what path : String)
  | document (cause : DocumentError)
  | malformedCandidates
  | candidatesNotArray
  | execution (cause : QueryError)
deriving DecidableEq, Repr

namespace CommandError

def message : CommandError → String
  | unreadable what path => s!"Failed to read {what} from {path}"
  | document _ => "Failed to load query"
  | malformedCandidates => "Failed to parse candidates"
  | candidatesNotArray => "Candidates must be a JSON array"
  | execution _ => "Query execution failed"

/-- What lies behind an error, if that is told. -/
def cause? : CommandError → Option String
  | document cause => some cause.message
  | execution cause => some cause.message
  | unreadable .. | malformedCandidates | candidatesNotArray => none

end CommandError

namespace Command

/-- Loads a query document; a name for candidates that is given here counts before that of the
document. -/
def loadQuery (document : String) (candidateName : Option String) :
    Naming (Except CommandError Query) := do
  match ← Query.ofDocument document with
  | .ok query =>
    return .ok { query with candidateName := candidateName.getD query.candidateName }
  | .error cause => return .error (.document cause)

/-- Reads the candidates, which must be an array. -/
def readCandidates (text : String) : Naming (Except CommandError (List Value)) := do
  match Json.readAll? text with
  | none => return .error .malformedCandidates
  | some (.array items) => return .ok (← Value.ofJsonItems items)
  | some _ => return .error .candidatesNotArray

/-- Runs a query: the lines to be printed, and the warnings. -/
def execute (query : Query) (candidates : List Value) :
    Naming (Except CommandError (List String) × List Warning) := do
  let outcome ← query.execute .builtin .detached candidates
  match outcome.rows with
  | .ok rows => return (.ok (rows.map fun row => row.toJson.render), outcome.trace.warnings)
  | .error cause => return (.error (.execution cause), outcome.trace.warnings)

/-- Runs the command on the texts of a document and of candidates, which are read in this order. -/
def run (document candidates : String) (candidateName : Option String) :
    Naming (Except CommandError (List String)) := do
  match ← loadQuery document candidateName with
  | .error error => return .error error
  | .ok query =>
    match ← readCandidates candidates with
    | .error error => return .error error
    | .ok values => return (← execute query values).1

/-! ### Options -/

/-- The options of the command. -/
structure Options where
  query : String
  candidates : String
  candidateName : Option String
  debug : Bool
deriving DecidableEq, Repr

/-- Options while they are read; each of those with a value may be given once. -/
structure PartialOptions where
  query : Option String
  candidates : Option String
  candidateName : Option String
  debug : Bool

/-- The options if none that is needed is missing. -/
def PartialOptions.complete? (options : PartialOptions) : Option Options := do
  return ⟨← options.query, ← options.candidates, options.candidateName, options.debug⟩

/-- Sets an option by its name, if it is not set already. -/
def PartialOptions.set? (options : PartialOptions) (name value : String) : Option PartialOptions :=
  match name with
  | "q" | "query" =>
    if options.query.isSome then none else some { options with query := value }
  | "c" | "candidates" =>
    if options.candidates.isSome then none else some { options with candidates := value }
  | "a" | "alias" =>
    if options.candidateName.isSome then none else some { options with candidateName := value }
  | _ => none

/-- Reads the options of the command: `-q`, `-c` and `-a` with a value and `-d` without, or their
long forms. A value may also follow an equals sign, and that of a short form the letter itself. -/
def readOptions : List String → PartialOptions → Option PartialOptions
  | [], options => some options
  | "-d" :: rest, options | "--debug" :: rest, options =>
    if options.debug then none else readOptions rest { options with debug := true }
  | word :: rest, options =>
    match word.toList with
    | '-' :: '-' :: name =>
      match name.span (· != '=') with
      | (name, '=' :: value) => do
        readOptions rest (← options.set? (String.ofList name) (String.ofList value))
      | (name, _) =>
        match rest with
        | value :: rest => do readOptions rest (← options.set? (String.ofList name) value)
        | [] => none
    | ['-', c] =>
      match rest with
      | value :: rest => do readOptions rest (← options.set? c.toString value)
      | [] => none
    | '-' :: c :: '=' :: value | '-' :: c :: value => do
      readOptions rest (← options.set? c.toString (String.ofList value))
    | _ => none

def options? (words : List String) : Option Options := do
  (← readOptions words ⟨none, none, none, false⟩).complete?

end Command

end ObjectQuery
