-- SUMMARY: Templates from the files of a directory.
import ApiStubs.Event
import ApiStubs.Files.Tree
import ApiStubs.Template.OfSource
import ApiStubs.Text.Line
import ApiStubs.Text.Utf8

/-!
# Loading templates

The template files of a directory are its files, in the order of their names,
without those on the deny list. Loading stops at the first one that cannot be
read.
-/

namespace ApiStubs

open Files Text

/-- Why templates cannot be loaded. -/
inductive LoadError where
  | file (failure : Files.Failure)
  /-- A path that cannot be followed, so that nothing is known of what is there. -/
  | unreachable (failure : Files.Failure)
  | undecodable (path : String) (failure : Utf8.Failure)
  | template (path : String) (fault : Source.LocatedFault)
deriving DecidableEq, Repr

def LoadError.message : LoadError → String
  | .file failure => failure.message
  | .unreachable failure => failure.message
  | .undecodable path failure => s!"{path}: {failure.message}"
  | .template path fault => fault.message path

/-- The error of a failure to open a file or a directory. -/
def LoadError.ofFailure (failure : Files.Failure) : LoadError :=
  if failure.kind = .unnameable then .unreachable failure else .file failure

/-- A value or an error, and the events on the way to it. -/
abbrev Loading := ExceptT LoadError Logged

/-- The paths that lead to files and are not on the deny list. -/
def allowed (w : Workspace) (denyList : List String) : List Path → Loading (List Path)
  | [] => return []
  | p :: ps =>
    match w.isFile p with
    | .error failure => throw (.unreachable failure)
    | .ok false => allowed w denyList ps
    | .ok true => do
      if denyList.contains p.name then
        Logged.log (.templateSkipped p.render)
        allowed w denyList ps
      else
        return p :: (← allowed w denyList ps)

/-- The template files of a directory. -/
def templateFiles (w : Workspace) (directory : Path) (denyList : List String) :
    Loading (List Path) :=
  match w.names directory with
  | .error failure => throw (.ofFailure failure)
  | .ok names => allowed w denyList (names.map directory.child)

/-- The template in the text of a file. -/
def Template.ofText (path : String) (text : List Char) : Except LoadError Template :=
  match Template.parse (.ofList text) with
  | .ok template => .ok template
  | .error fault => .error (.template path fault)

/-- Loads the template of a file. -/
def loadTemplate (w : Workspace) (path : Path) : Loading Template :=
  match w.read path with
  | .error failure => throw (.ofFailure failure)
  | .ok octets =>
    match Utf8.decode octets with
    | .error failure => throw (.undecodable path.render failure)
    | .ok text => do
      Logged.log (.templateRead path.render)
      ExceptT.mk (return Template.ofText path.render (unifyLineEnds text))

/-- Loads the templates of a directory. -/
def loadTemplates (w : Workspace) (directory : Path) (denyList : List String) :
    Loading (List Template) := do
  (← templateFiles w directory denyList).mapM (loadTemplate w)

end ApiStubs
