-- SUMMARY: Override templates applied to base templates.
import ApiStubs.Event
import ApiStubs.Template.Basic

/-!
# Merging overrides

Overrides are applied one after the other. An override of a namespace changes the
last template of that namespace, whose place is looked up. Endpoint by endpoint, an
ignore marker removes the first endpoint of the same name, any other endpoint
replaces it, and one of a new name is appended. An override of a new namespace is
added as it is, and receives the overrides of the namespace that follow.
-/

namespace ApiStubs

namespace Endpoint

/-- The endpoints with the first one of the name of `o` replaced by `o`. -/
def replaceFirst (o : Endpoint) : List Endpoint → List Endpoint
  | [] => []
  | e :: es => if e.name = o.name then o :: es else e :: replaceFirst o es

/-- The endpoints without the first one of the given name. -/
def removeFirst (name : String) : List Endpoint → List Endpoint
  | [] => []
  | e :: es => if e.name = name then es else e :: removeFirst name es

/-- Applies an override endpoint to the endpoints of a namespace. -/
def override (nameSpace : String) (endpoints : List Endpoint) (o : Endpoint) :
    Logged (List Endpoint) :=
  let label := endpointLabel nameSpace o.name
  if endpoints.any (·.name = o.name) then
    if o.ignore then do
      Logged.log (.endpointRemoved label)
      return removeFirst o.name endpoints
    else do
      Logged.log (.endpointReplaced label)
      return replaceFirst o endpoints
  else if o.ignore then return endpoints
  else do
    Logged.log (.endpointAppended label)
    return endpoints ++ [o]

end Endpoint

namespace Template

/-- Applies the endpoints of an override to a template of the same namespace. -/
def override (t o : Template) : Logged Template := do
  let endpoints ← o.endpoints.foldlM (Endpoint.override t.nameSpace) t.endpoints
  return { t with endpoints }

/-- Templates on the way through a merge, and for each namespace the place of the template
    that receives its overrides. -/
structure Merging where
  templates : List Template := []
  /-- The newest entry of a namespace counts. -/
  receivers : List (String × Nat) := []
deriving Repr

namespace Merging

/-- Adds a template. From now on it receives the overrides of its namespace. -/
def add (s : Merging) (t : Template) : Merging where
  templates := s.templates ++ [t]
  receivers := (t.nameSpace, s.templates.length) :: s.receivers

def ofTemplates (base : List Template) : Merging := base.foldl add {}

/-- The template that receives the overrides of a namespace, and its place. -/
def receiver? (s : Merging) (nameSpace : String) : Option (Nat × Template) := do
  let place ← s.receivers.lookup nameSpace
  let t ← s.templates[place]?
  return (place, t)

/-- Applies an override to the template that receives it, if there is one. -/
def apply (s : Merging) (o : Template) : Logged Merging :=
  match s.receiver? o.nameSpace with
  | none => do
    Logged.log (.namespaceAdded o.nameSpace)
    return s.add o
  | some (place, t) => do
    let t ← t.override o
    return { s with templates := s.templates.set place t }

/-- Applies overrides, in order. -/
def applyAll (s : Merging) (overrides : List Template) : Logged Merging :=
  overrides.foldlM apply s

end Merging

/-- Applies overrides to base templates, in order. -/
def merge (base overrides : List Template) : Logged (List Template) := do
  let merged ← (Merging.ofTemplates base).applyAll overrides
  return merged.templates

end Template

end ApiStubs
