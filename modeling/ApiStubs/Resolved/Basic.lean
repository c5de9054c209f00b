-- SUMMARY: Endpoints as they are generated, or why they are not.
import ApiStubs.Naming.Generated
import ApiStubs.Resolved.Buckets
import ApiStubs.Resolved.Placeholder
import ApiStubs.Template.Basic
import ApiStubs.Typing.Param
import ApiStubs.Typing.Return

/-!
# Resolved endpoints

`Endpoint.resolve` decides all that a generated call needs: its names, its return
type, which parameters it takes and which one goes into the URL. Endpoints that
are ignored or obsolete are dropped, and so are those with a type that generated
code cannot express.
-/

namespace ApiStubs

structure ResolvedParam where
  name : String
  attr : String
  type : ParamType
deriving DecidableEq, Repr

/-- An endpoint as it is generated. The reserved parameter, if there is one, goes
    into the URL and is one of the required parameters. -/
structure ResolvedEndpoint where
  nameSpace : String
  name : String
  methodName : String
  builderClass : String
  method : Method
  url : Option String
  returnType : String
  description : Option String
  returns : Option String
  reserved : Option ResolvedParam
  required : List ResolvedParam
  optional : List ResolvedParam
  implFunction : Option String
deriving DecidableEq, Repr

namespace ResolvedEndpoint

/-- The required parameters that are sent, so all but the reserved one. -/
def serializedRequired (r : ResolvedEndpoint) : List ResolvedParam :=
  match r.reserved with
  | none => r.required
  | some p => r.required.filter (·.name ≠ p.name)

/-- The arguments of the call: the reserved parameter first, then the others. -/
def signature (r : ResolvedEndpoint) : List ResolvedParam :=
  r.reserved.toList ++ r.serializedRequired

end ResolvedEndpoint

/-- Required and optional parameters with the reserved one, if there is one,
    among the required ones. One that is optional becomes required, and one that
    is not declared is a string. -/
def withReserved (reserved : Option String) (required optional : List TypedName) :
    List TypedName × List TypedName :=
  match reserved with
  | none => (required, optional)
  | some name =>
    if required.any (·.name = name) then (required, optional)
    else
      let p := (optional.find? (·.name = name)).getD ⟨"string", name⟩
      (p :: required, optional.filter (·.name ≠ name))

def ResolvedParam.ofPair (p : TypedName) : Except UnsupportedType ResolvedParam := do
  let type ← Typing.paramType p.type
  return { name := p.name, attr := Naming.identifier p.name, type }

/-- The parameters with their types resolved, required ones first. -/
def resolveParams (required optional : List TypedName) :
    Except UnsupportedType (List ResolvedParam × List ResolvedParam) := do
  let required ← required.mapM ResolvedParam.ofPair
  let optional ← optional.mapM ResolvedParam.ofPair
  return (required, optional)

namespace Endpoint

/-- The resolved endpoint once its types are known. -/
def assemble (nameSpace : String) (e : Endpoint) (returnType : String)
    (required optional : List ResolvedParam) : ResolvedEndpoint where
  nameSpace := nameSpace
  name := e.name
  methodName := Naming.methodName e.name
  builderClass := Naming.builderClass nameSpace e.name
  method := e.method
  url := e.url
  returnType := returnType
  description := e.description
  returns := e.returns
  reserved := (placeholder? e.url).bind fun name => required.find? (·.name = name)
  required := required
  optional := optional
  implFunction := if e.method = .impl then some (Naming.implFunction nameSpace e.name) else none

/-- Reports what somebody has to write by hand for an endpoint. -/
def reportManualWork (label : String) (e : Endpoint) (r : ResolvedEndpoint) : Logged Unit := do
  if let some function := r.implFunction then Logged.log (.implRequired function label)
  if e.jsonPath.isSome then Logged.log (.jsonPathPresent label)

/-- Resolves an endpoint, or drops it. -/
def resolve (nameSpace : String) (e : Endpoint) : Logged (Option ResolvedEndpoint) :=
  let label := endpointLabel nameSpace e.name
  if e.ignore then do
    Logged.log (.endpointIgnored label)
    return none
  else if e.hasAttribute "Obsolete" then do
    Logged.log (.endpointObsolete label)
    return none
  else match Typing.returnType e.returnType e.name with
    | .error type => do
      Logged.log (.typeUnsupported type label)
      return none
    | .ok returnType => do
      let buckets ← Buckets.ofParams label e.params
      let (required, optional) :=
        withReserved (placeholder? e.url) buckets.allRequired buckets.allOptional
      match resolveParams required optional with
      | .error type =>
        Logged.log (.typeUnsupported type label)
        return none
      | .ok (required, optional) =>
        let r := e.assemble nameSpace returnType required optional
        reportManualWork label e r
        return some r

end Endpoint

end ApiStubs
