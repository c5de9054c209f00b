-- SUMMARY: What the text of a generated client is written from.
import ApiStubs.Resolved.Basic
import ApiStubs.Settings
import ApiStubs.Text.Docstring
import ApiStubs.Text.Line

/-!
# Stubs

A generated client is one module of text. It begins with a preamble, which holds
the aggregate client, and has one section for each template. A section holds the
client of a namespace and the request builders of its calls.

The types here hold the pieces of that text, ready to be written. `Preamble.build`
and `Section.build` make them from templates and settings. What comes from settings
is of the kind of text that the settings are of.
-/

namespace ApiStubs.Stub

open Text

/-- An argument of a call: its name in requests, its identifier and type in the
    code, the expression that is sent and its placeholder in a URL. -/
structure Argument where
  name : String
  attr : String
  hint : String
  value : String
  placeholder : String
deriving DecidableEq, Repr

structure Call (τ : Type := String) where
  name : String
  methodName : String
  builderClass : String
  returnType : String
  doc : List String
  httpMethod : Option String
  implFunction : Option String
  url : Option τ
  reserved : Option Argument
  signature : List Argument
  serializedRequired : List Argument
  optional : List Argument
deriving DecidableEq, Repr

structure Section (τ : Type := String) where
  nameSpace : String
  clientClass : String
  clientName : τ
  description : Option String
  calls : List (Call τ)
deriving DecidableEq, Repr

/-- The accessor of a namespace in the aggregate client. -/
structure Accessor where
  nameSpace : String
  accessor : String
  clientClass : String
  description : Option String
deriving DecidableEq, Repr

structure Preamble (τ : Type := String) where
  runtime : τ
  clientName : τ
  accessors : List Accessor
deriving DecidableEq, Repr

/-! ## Documentation -/

/-- The lines of a text, ready for a docstring. -/
def docLines (text : Option String) : List String :=
  (lines (trim (text.getD "").toList)).map fun line =>
    .ofList (trimRight (Docstring.escape line))

/-- The documentation of a call: its description, then what it returns, with a blank
    line between the two. -/
def documentation (description returns : Option String) : List String :=
  match docLines description, docLines returns with
  | [], rest => rest
  | first, [] => first
  | first, rest => first ++ "" :: rest

/-- A description in one piece, ready for a docstring. There is none if it is
    empty. -/
def shortDoc (description : Option String) : Option String :=
  (description.filter (· ≠ "")).map Docstring.ofString

/-! ## Calls -/

def Argument.ofParam (p : ResolvedParam) : Argument where
  name := p.name
  attr := p.attr
  hint := p.type.hint
  value := match p.type.serializer? with
    | some serializer => s!"{serializer}(self._{p.attr})"
    | none => s!"self._{p.attr}"
  placeholder := "\x7b" ++ p.name ++ "\x7d"

/-- The word for a method in a request. -/
def requestWord : Method → Option String
  | .get => some "GET"
  | .post => some "POST"
  | .impl => none

/-- The parameters of an endpoint and the arguments that are made for them. -/
def argumentsOf (r : ResolvedEndpoint) : List (ResolvedParam × Argument) :=
  (r.required ++ r.optional).map fun p => (p, .ofParam p)

/-- The argument that is made for a parameter of an endpoint. -/
def argument? (r : ResolvedEndpoint) (p : ResolvedParam) : Option Argument :=
  (argumentsOf r).lookup p

section Script

variable {τ : Type} [Append τ] [Script τ]

def Call.ofResolved (settings : Settings τ) (r : ResolvedEndpoint) : Call τ where
  name := r.name
  methodName := r.methodName
  builderClass := r.builderClass
  returnType := r.returnType
  doc := documentation r.description r.returns
  httpMethod := requestWord r.method
  implFunction := r.implFunction
  url := r.url.map settings.resolveUrl
  reserved := r.reserved.bind (argument? r)
  signature := r.signature.filterMap (argument? r)
  serializedRequired := r.serializedRequired.filterMap (argument? r)
  optional := r.optional.filterMap (argument? r)

/-! ## Sections and preamble -/

/-- The calls of the endpoints that are not dropped. -/
def resolveCalls (settings : Settings τ) (nameSpace : String) :
    List Endpoint → Logged (List (Call τ))
  | [] => return []
  | e :: es => do
    let resolved ← e.resolve nameSpace
    let rest ← resolveCalls settings nameSpace es
    return (resolved.map (Call.ofResolved settings)).toList ++ rest

def Section.build (settings : Settings τ) (t : Template) : Logged (Section τ) := do
  return {
    nameSpace := t.nameSpace
    clientClass := Naming.clientClass t.nameSpace
    clientName := settings.clientName
    description := shortDoc t.description
    calls := ← resolveCalls settings t.nameSpace t.endpoints }

def Accessor.ofTemplate (t : Template) : Accessor where
  nameSpace := t.nameSpace
  accessor := Naming.accessor t.nameSpace
  clientClass := Naming.clientClass t.nameSpace
  description := shortDoc t.description

def Preamble.build (settings : Settings τ) (templates : List Template) : Preamble τ where
  runtime := settings.runtime
  clientName := settings.clientName
  accessors := templates.map .ofTemplate

end Script

end ApiStubs.Stub
