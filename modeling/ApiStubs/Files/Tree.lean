-- SUMMARY: A tree of files, and what reading and writing through paths does to it.
import ApiStubs.Files.Path
import ApiStubs.Text.Quoted

/-!
# File trees

A workspace is a tree of directories and files together with the directory in
which relative paths begin. A path is followed part by part from there: every
part needs a directory to start from, and `..` goes up, but not above the root.
Names and paths have a greatest size, and a path with a null character leads
nowhere at all.

All operations are functions. Reading answers with content or with the kind of
failure, and writing also with the changed workspace.
-/

namespace ApiStubs.Files

open Text

/-- A file with its octets, or a directory with its entries. Of two entries with
    one name the first one counts. -/
inductive Entry where
  | file (octets : List UInt8)
  | directory (entries : List (String × Entry))
deriving Repr

/-- The names on the way from the root of a tree to an entry. -/
abbrev Location := List String

namespace Entry

def isDirectory : Entry → Bool
  | .directory _ => true
  | .file _ => false

/-- The entry at a location. -/
def get? : Entry → Location → Option Entry
  | e, [] => some e
  | .file _, _ :: _ => none
  | .directory entries, name :: names =>
    match entries.lookup name with
    | some e => e.get? names
    | none => none

/-- Puts an entry among others, in the place of one with the same name. -/
def put (name : String) (e : Entry) : List (String × Entry) → List (String × Entry)
  | [] => [(name, e)]
  | (other, f) :: rest =>
    if other = name then (name, e) :: rest else (other, f) :: put name e rest

/-- The tree with `e` at a location. Directories on the way are made if they are
    missing. -/
def set (e : Entry) : Location → Entry → Entry
  | [], _ => e
  | _ :: _, .file octets => .file octets
  | name :: names, .directory entries =>
    .directory (put name (set e names ((entries.lookup name).getD (.directory []))) entries)

mutual

/-- Every file of the tree with its location. -/
def files : Entry → List (Location × List UInt8)
  | .file octets => [([], octets)]
  | .directory entries => filesOf entries

/-- Every file below some entries with its location. -/
def filesOf : List (String × Entry) → List (Location × List UInt8)
  | [] => []
  | (name, e) :: rest =>
    e.files.map (fun (location, octets) => (name :: location, octets)) ++ filesOf rest

end

end Entry

/-! ## Failures -/

inductive FailureKind where
  | notFound
  | alreadyExists
  | notDirectory
  | isDirectory
  /-- A name or a whole path is longer than a file system takes. -/
  | tooLong
  /-- The path holds a null character. -/
  | unnameable
deriving DecidableEq, Repr

def FailureKind.message : FailureKind → String
  | .notFound => "[Errno 2] No such file or directory"
  | .alreadyExists => "[Errno 17] File exists"
  | .notDirectory => "[Errno 20] Not a directory"
  | .isDirectory => "[Errno 21] Is a directory"
  | .tooLong => "[Errno 36] File name too long"
  | .unnameable => "embedded null byte"

/-- What went wrong with which path. -/
structure Failure where
  kind : FailureKind
  path : Path
deriving DecidableEq, Repr

/-- The text of a failure. A path that cannot be named is not shown. -/
def Failure.message (f : Failure) : String :=
  match f.kind with
  | .unnameable => f.kind.message
  | _ => s!"{f.kind.message}: {quoted f.path.render}"

/-! ## Limits -/

/-- The greatest number of octets in a name. -/
def maxNameSize : Nat := 255

/-- The greatest number of octets in a path. -/
def maxPathSize : Nat := 4095

/-- Why a path cannot be followed, whatever the files are. -/
def Path.obstacle? (p : Path) : Option FailureKind :=
  if p.render.toList.contains '\x00' then some .unnameable
  else if maxPathSize < p.render.utf8ByteSize then some .tooLong
  else none

/-! ## Workspaces -/

structure Workspace where
  root : Entry
  current : Location := []
deriving Repr

namespace Workspace

/-- One part further from the directory at a location. -/
def enter (w : Workspace) (location : Location) (part : String) : Except FailureKind Location :=
  match w.root.get? location with
  | none => .error .notFound
  | some (.file _) => .error .notDirectory
  | some (.directory entries) =>
    if part = ".." then .ok location.dropLast
    else if maxNameSize < part.utf8ByteSize then .error .tooLong
    else if (entries.lookup part).isSome then .ok (location ++ [part])
    else .error .notFound

/-- The location where a path begins. -/
def origin (w : Workspace) (p : Path) : Location := if p.root = "" then w.current else []

/-- The location of the entry that a path leads to. -/
def resolve (w : Workspace) (p : Path) : Except FailureKind Location :=
  match p.obstacle? with
  | some kind => .error kind
  | none => p.parts.foldlM w.enter (w.origin p)

/-- The entry that a path leads to. -/
def entry (w : Workspace) (p : Path) : Except FailureKind Entry :=
  match w.resolve p with
  | .error kind => .error kind
  | .ok location =>
    match w.root.get? location with
    | some e => .ok e
    | none => .error .notFound

/-- Asks about the entry that a path leads to. Of a path that leads to no entry the
    answer is no, and only of one that is too long there is none. -/
def ask (w : Workspace) (p : Path) (question : Entry → Bool) : Except Failure Bool :=
  match w.entry p with
  | .ok e => .ok (question e)
  | .error .tooLong => .error ⟨.tooLong, p⟩
  | .error _ => .ok false

def isFile (w : Workspace) (p : Path) : Except Failure Bool := w.ask p (!·.isDirectory)

def isDirectory (w : Workspace) (p : Path) : Except Failure Bool := w.ask p (·.isDirectory)

/-- The octets of a file. -/
def read (w : Workspace) (p : Path) : Except Failure (List UInt8) :=
  match w.entry p with
  | .error kind => .error ⟨kind, p⟩
  | .ok (.directory _) => .error ⟨.isDirectory, p⟩
  | .ok (.file octets) => .ok octets

/-- The names in a directory, in the order of their characters. -/
def names (w : Workspace) (p : Path) : Except Failure (List String) :=
  match w.entry p with
  | .error kind => .error ⟨kind, p⟩
  | .ok (.file _) => .error ⟨.notDirectory, p⟩
  | .ok (.directory entries) =>
    .ok ((entries.map (·.1)).eraseDups.mergeSort fun a b => !decide (b < a))

/-! ## Writing -/

/-- Where a path leads to: an entry, or a free place in a directory. -/
inductive Place where
  | taken (location : Location)
  | free (location : Location)
deriving DecidableEq, Repr

/-- The place that a path leads to. All parts but the last have to exist. -/
def place (w : Workspace) (p : Path) : Except FailureKind Place :=
  match w.resolve p with
  | .ok location => .ok (.taken location)
  | .error kind =>
    match kind, w.entry p.parent with
    | .notFound, .ok (.directory _) =>
      match w.resolve p.parent with
      | .ok location => .ok (.free (location ++ [p.name]))
      | .error kind => .error kind
    | _, _ => .error kind

/-- Puts an entry at a location. -/
def set (w : Workspace) (location : Location) (e : Entry) : Workspace :=
  { w with root := e.set location w.root }

/-- Makes one directory. -/
def makeDirectory (w : Workspace) (p : Path) : Except FailureKind Workspace :=
  match w.place p with
  | .error kind => .error kind
  | .ok (.taken _) => .error .alreadyExists
  | .ok (.free location) => .ok (w.set location (.directory []))

/-- Passes over a failure to make a directory if the directory is there. -/
def unlessDirectory (w : Workspace) (p : Path) (kind : FailureKind) : Except Failure Unit :=
  match w.isDirectory p with
  | .ok true => .ok ()
  | .ok false => .error ⟨kind, p⟩
  | .error failure => .error failure

/-- Makes one directory, if it is not there. -/
def ensureDirectory (w : Workspace) (p : Path) : Except Failure Workspace :=
  match w.makeDirectory p with
  | .ok w' => .ok w'
  | .error kind => (w.unlessDirectory p kind).map fun _ => w

/-- Makes a directory and, if they are missing, the directories above it. What is
    made stays, also if a later step fails. -/
def makeDirectories (w : Workspace) (p : Path) : Except Failure Unit × Workspace :=
  match w.makeDirectory p with
  | .ok w' => (.ok (), w')
  | .error .notFound =>
    if _h : p.parts = [] then (.error ⟨.notFound, p⟩, w)
    else
      match makeDirectories w p.parent with
      | (.error failure, w') => (.error failure, w')
      | (.ok (), w') =>
        match w'.ensureDirectory p with
        | .ok w'' => (.ok (), w'')
        | .error failure => (.error failure, w')
  | .error kind => (w.unlessDirectory p kind, w)
termination_by p.parts.length
decreasing_by
  have := List.length_pos_iff.2 _h
  simp only [Path.parent, List.length_dropLast]
  omega

/-- Opens a file to write to it, new or in place of the one that is there. At first it is
    empty. -/
def openEmpty (w : Workspace) (p : Path) : Except Failure (Location × Workspace) :=
  match w.place p with
  | .error kind => .error ⟨kind, p⟩
  | .ok (.free location) => .ok (location, w.set location (.file []))
  | .ok (.taken location) =>
    match w.root.get? location with
    | some (.directory _) => .error ⟨.isDirectory, p⟩
    | _ => .ok (location, w.set location (.file []))

/-- Writes to a file that has been opened. -/
def fill (w : Workspace) (location : Location) (octets : List UInt8) : Workspace :=
  w.set location (.file octets)

/-- Every file below the current directory with its location there. -/
def currentFiles (w : Workspace) : List (Location × List UInt8) :=
  match w.root.get? w.current with
  | some e => e.files
  | none => []

end Workspace

end ApiStubs.Files
