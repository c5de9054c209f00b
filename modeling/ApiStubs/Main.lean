-- SUMMARY: The command line program.
import ApiStubs.Command.Run

/-!
# The program

The program takes a picture of the files that a run may read, runs on it, and
carries out what the run writes. Everything else is in the run itself.
-/

namespace ApiStubs.Program

open Files Command

def usage : String :=
  "usage: clientgen [-h] [-o OUTPUT] [-v] template_dir [override_dir]\n"

/-- The variables of the environment that matter. -/
def environment : IO (Environment (List UInt8)) := do
  let values ← Settings.environmentKeys.mapM fun key => return (key, ← IO.getEnv key)
  return values.filterMap fun (key, value) => value.map fun s => (key, s.toUTF8.toList)

/-- The location of a path, as it is written. -/
def locate (current : Location) (p : Path) : Location :=
  p.parts.foldl (fun location part => if part = ".." then location.dropLast else location ++ [part])
    (if p.root = "" then current else [])

/-- The entry at a path, with the files of a directory and without what is deeper. -/
def entryAt (path : String) : IO (Option Entry) := do
  let here := (← IO.currentDir) / path
  if ← here.isDir then
    let entries ← (← here.readDir).toList.mapM fun child => do
      if ← child.path.isDir then return (child.fileName, Entry.directory [])
      else return (child.fileName, Entry.file (← IO.FS.readBinFile child.path).toList)
    return some (.directory entries)
  else if ← here.pathExists then
    return some (.file (← IO.FS.readBinFile here).toList)
  else
    return none

/-- The paths above a path, from the top. -/
def above (p : Path) : List Path :=
  (List.range p.parts.length).map fun n => { p with parts := p.parts.take n }

/-- The workspace with the directory at a path, if there is one. -/
def withDirectory (w : Workspace) (p : Path) : IO Workspace := do
  let location := locate w.current p
  if (w.root.get? location).isSome then return w
  else if ← ((← IO.currentDir) / p.render).isDir then return w.set location (.directory [])
  else return w

/-- The workspace with the entry at a path, and the directories above it. -/
def withEntry (w : Workspace) (p : Path) : IO Workspace := do
  let w ← (above p).foldlM withDirectory w
  match ← entryAt p.render with
  | none => return w
  | some e => return w.set (locate w.current p) e

/-- The workspace that a run with these arguments may read. Of two entries the one
    nearer to the root comes first, so that the other one is put into it. -/
def workspace (arguments : Arguments) : IO Workspace := do
  let current := (Path.parse (← IO.currentDir).toString).parts
  let start : Workspace := { root := Entry.set (.directory []) current (.directory []), current }
  let paths := arguments.output.file?.toList ++ arguments.overrides.toList ++ [arguments.templates]
  let depth (p : Path) : Nat := (locate current p).length
  (paths.mergeSort fun p q => depth p ≤ depth q).foldlM withEntry start

/-- Writes the output file of a run. -/
def commit (after : Workspace) (output : Option Path) : IO Unit := do
  let some path := output | return
  let .ok octets := after.read path | return
  let here := (← IO.currentDir) / path.render
  if let some parent := here.parent then IO.FS.createDirAll parent
  IO.FS.writeBinFile here ⟨octets.toArray⟩

/-- Writes a text to the standard output, if it is one. -/
def display (text : Text.RawText) : IO Bool := do
  match Text.Utf8.encode text with
  | .ok octets =>
    (← IO.getStdout).write ⟨octets.toArray⟩
    return true
  | .error failure =>
    IO.eprintln failure.message
    return false

def runWith (arguments : Arguments) : IO UInt32 := do
  let (outcome, after) := execute (← workspace arguments) (← environment) arguments
  match outcome with
  | .finished code stdout stderr =>
    IO.eprint stderr
    if code = 0 then commit after arguments.output.file?
    return if ← display stdout then code.toUInt32 else 1
  | .interrupted cause =>
    -- The output file has been opened before its text turns out not to be one.
    if let .unencodable _ := cause then commit after arguments.output.file?
    IO.eprintln cause.message
    return 1
  | .refused refusal => return refusal.exitCode.toUInt32

end ApiStubs.Program

open ApiStubs Command in
def main (arguments : List String) : IO UInt32 := do
  match Arguments.parse arguments with
  | .ok arguments => Program.runWith arguments
  | .error refusal =>
    if refusal = .help then IO.print Program.usage else IO.eprint Program.usage
    return refusal.exitCode.toUInt32
