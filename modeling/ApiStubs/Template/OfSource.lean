-- SUMMARY: From the elements of a file to a template.
import ApiStubs.Source.Element
import ApiStubs.Template.Basic
import ApiStubs.Text.Blank

/-!
# From elements to templates

A file declares exactly one namespace. Of the descriptions of a file, and of the
blocks of each kind in an endpoint, the first one counts and later ones do not.
-/

namespace ApiStubs

open Source Text

/-! ## Views of blocks and entries -/

namespace Source.Block

def withEntries? : Block → Option (List WithEntry)
  | .withEntries list => some list
  | _ => none

def params? : Block → Option (List Param)
  | .params lines => some lines
  | _ => none

def description? : Block → Option String
  | .description text => some text
  | _ => none

def returns? : Block → Option String
  | .returns text => some text
  | _ => none

end Source.Block

namespace Source.WithEntry

def jsonPath? : WithEntry → Option String
  | .jsonPath text => some text
  | _ => none

def attribute? : WithEntry → Option (String × String)
  | .attribute name value => some (name, value)
  | _ => none

end Source.WithEntry

namespace Source.Item

def namespace? : Item → Option String
  | .namespaceLine text => some text
  | _ => none

def description? : Item → Option String
  | .descriptionLine text => some text
  | _ => none

def endpoint? : Item → Option EndpointDecl
  | .endpoint decl => some decl
  | _ => none

end Source.Item

/-! ## Endpoints -/

/-- The name without the mark that lets it be a reserved word. -/
def TypedName.withoutMark (p : TypedName) : TypedName :=
  match p.name.toList with
  | '@' :: name => { p with name := .ofList name }
  | _ => p

def Param.withoutMarks (p : Param) : Param := { p with pairs := p.pairs.map (·.withoutMark) }

namespace Source.EndpointDecl

/-- What the first block that `view` sees says. -/
def first? {α : Type} (d : EndpointDecl) (view : Block → Option α) : Option α :=
  d.blocks.findSome? fun block => view block.value

def entries (d : EndpointDecl) : List WithEntry := (d.first? Block.withEntries?).getD []

end Source.EndpointDecl

/-- The endpoint that a declaration declares. -/
def Endpoint.ofDecl (d : EndpointDecl) : Endpoint where
  returnType := d.header.returnType
  name := d.header.name
  method := d.header.target.method
  url := d.header.target.url?
  jsonPath := d.entries.findSome? (·.jsonPath?)
  attributes := d.entries.filterMap (·.attribute?)
  ignore := d.entries.contains .ignore
  description := d.first? Block.description?
  returns := d.first? Block.returns?
  params := ((d.first? Block.params?).getD []).map (·.withoutMarks)

/-! ## Templates -/

/-- The namespace directives of a file, with their places. -/
def Source.namespaces (elements : List Element) : List (Located String) :=
  elements.filterMap fun e => e.value.namespace?.map (⟨e.offset, ·⟩)

namespace Template

/-- The template that the elements of a text declare. -/
def ofElements (text : List Char) (elements : List Element) : Except LocatedFault Template :=
  match namespaces elements with
  | [] => .error (.malformed .namespaceMissing none)
  | [directive] =>
    .ok {
      nameSpace := trimmed directive.value
      description := (elements.findSome? (·.value.description?)).map trimmed
      endpoints := (elements.filterMap (·.value.endpoint?)).map .ofDecl }
  | _ :: second :: _ =>
    .error (.malformed .namespaceDuplicate (some (.ofOffset text second.offset)))

/-- Reads a template from the text of a file. -/
def parse (text : String) : Except LocatedFault Template :=
  match Source.read text with
  | .ok elements => ofElements text.toList elements
  | .error fault => .error fault

end Template

end ApiStubs
