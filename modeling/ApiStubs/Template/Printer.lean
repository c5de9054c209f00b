-- SUMMARY: Templates written as template files.
import ApiStubs.Template.Basic

/-!
# Printing templates

`Template.print` writes a template in the form in which files declare it. Every
parameter name gets the mark that lets it be a reserved word. A template whose
texts hold no characters that end them early is read back as it was.
-/

namespace ApiStubs

/-- A block of lines under a keyword. -/
def printBlock (keyword : String) (lines : List String) : String :=
  s!"{keyword}\n\x7b\n" ++ .join (lines.map (· ++ "\n")) ++ "\x7d\n"

namespace Param

/-- The kind of a parameter line, with the index of an `either` line. -/
def printKind (p : Param) : String :=
  match p.kind with
  | .required => "required"
  | .optional => "optional"
  | .either => s!"either[{p.group}]"

def printPair (p : TypedName) : String := s!" {p.type} @{p.name}"

def printGuard (guard : Option String) : String :=
  match guard with
  | none => ""
  | some condition => s!" when {condition}"

def print (p : Param) : String :=
  p.printKind ++ ",".intercalate (p.pairs.map printPair) ++ printGuard p.guard

end Param

namespace Endpoint

/-- Where the calls of an endpoint go. -/
def printTarget (e : Endpoint) : String :=
  match e.method with
  | .impl => e.method.keyword
  | _ => e.method.keyword ++ " " ++ e.url.getD ""

/-- The entries of the `with` block. -/
def printEntries (e : Endpoint) : List String :=
  (e.jsonPath.map fun path => s!"JsonPath={path}").toList ++
    e.attributes.map (fun (name, value) => s!"[{name}]={value}") ++
    (if e.ignore then ["[Ignore]="] else [])

/-- A text block, if there is a text. -/
def printText (name : String) (text : Option String) : String :=
  match text with
  | none => ""
  | some body => s!"{name}\x7b{body}\x7d\n"

def print (e : Endpoint) : String :=
  s!"endpoint {e.returnType} {e.name} : {e.printTarget}\n\x7b\n" ++
    printBlock "with" e.printEntries ++
    printText "description" e.description ++
    printText "returns" e.returns ++
    printBlock "params" (e.params.map Param.print) ++
    "\x7d\n"

end Endpoint

namespace Template

def printDescription (description : Option String) : String :=
  match description with
  | none => ""
  | some text => s!"#description {text}\n"

def print (t : Template) : String :=
  s!"#namespace {t.nameSpace}\n" ++ printDescription t.description ++
    .join (t.endpoints.map Endpoint.print)

end Template

end ApiStubs
