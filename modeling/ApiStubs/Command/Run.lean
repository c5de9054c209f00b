-- SUMMARY: One run of the command line as a function of its arguments, environment and files.
import ApiStubs.Command.Arguments
import ApiStubs.Generate

/-!
# Runs

A run reads its arguments, generates the client and writes it, either to the
standard output or to a file. It leaves the files as they were unless it writes
one.

The variables of the environment are octets. A client that is generated from them may hold
octets that are no text, and such a client cannot be written to a file. By then the file has
been opened, so that it stays empty.
-/

namespace ApiStubs.Command

open Files Text

/-- Why a run breaks off. -/
inductive Interruption where
  /-- A path cannot be followed or the output cannot be written. -/
  | file (failure : Files.Failure)
  /-- A template holds a number that is too long to read. -/
  | indexTooLong (digits : Nat)
  /-- There is a client to write and no file is named for it. -/
  | outputUnnamed
  /-- The client that is to be written to a file is not text. -/
  | unencodable (failure : Utf8.Unencodable)
deriving DecidableEq, Repr

def Interruption.message : Interruption → String
  | .file failure => failure.message
  | .indexTooLong digits => (Source.LocatedFault.indexTooLong digits).message ""
  | .outputUnnamed => "'list' object has no attribute 'parent'"
  | .unencodable failure => failure.message

/-- What a run shows. -/
inductive Outcome where
  /-- The arguments do not ask for a run. -/
  | refused (refusal : Refusal)
  | finished (exitCode : Nat) (stdout : RawText) (stderr : String)
  | interrupted (cause : Interruption)
deriving DecidableEq, Repr

/-- The log as it is written: events of `threshold` and above, one a line. -/
def logText (threshold : Level) (events : List Event) : String :=
  .join ((events.filter (threshold.weight ≤ ·.level.weight)).map fun e =>
    s!"{e.level.name}: {e.message}\n")

/-- Writes the client to a file, with the directories above it. -/
def writeOutput (w : Workspace) (path : Path) (text : RawText) :
    Except Interruption Unit × Workspace :=
  match w.makeDirectories path.parent with
  | (.error failure, w) => (.error (.file failure), w)
  | (.ok (), w) =>
    match w.openEmpty path with
    | .error failure => (.error (.file failure), w)
    | .ok (location, w) =>
      match Utf8.encode text with
      | .error failure => (.error (.unencodable failure), w)
      | .ok octets => (.ok (), w.fill location octets)

/-- Delivers a generated client. -/
def deliver (w : Workspace) (output : Output) (log : String) (g : Generated RawText) :
    Outcome × Workspace :=
  match output with
  | .standard => (.finished 0 g.text log, w)
  | .unnamed => (.interrupted .outputUnnamed, w)
  | .file path =>
    match writeOutput w path g.text with
    | (.error cause, w) => (.interrupted cause, w)
    | (.ok (), w) =>
      (.finished 0 (RawText.ofString s!"Generated {path.render} ({g.count} endpoints)\n") log, w)

/-- Runs with arguments that have been read. -/
def execute (w : Workspace) (env : Environment (List UInt8)) (arguments : Arguments) :
    Outcome × Workspace :=
  let result := (generate w arguments.templates.render (arguments.overrides.map (·.render))
    (.ofEnvironment env.decode)).run
  let log := logText (if arguments.verbose then .info else .warning) result.events
  match result.value with
  | .ok g => deliver w arguments.output log g
  | .error (.template _ (.indexTooLong digits)) => (.interrupted (.indexTooLong digits), w)
  | .error (.unreachable failure) => (.interrupted (.file failure), w)
  | .error error => (.finished 1 [] (log ++ error.message ++ "\n"), w)

/-- Runs the command line. -/
def run (w : Workspace) (env : Environment (List UInt8)) (arguments : List String) :
    Outcome × Workspace :=
  match Arguments.parse arguments with
  | .error refusal => (.refused refusal, w)
  | .ok arguments => execute w env arguments

end ApiStubs.Command
