-- SUMMARY: Generation step by step, without files.
import ApiStubs.Generate

/-!
# Sessions

A session holds templates and settings, and changes them step by step. A step that
fails leaves the session as it was, because it answers with no other one.
-/

namespace ApiStubs

open Stub

structure Session where
  templates : List Template := []
  settings : Settings := {}
deriving DecidableEq, Repr

namespace Session

/-- Adds the template in a text. -/
def load (s : Session) (path text : String) : Except LoadError Session :=
  match Template.ofText path text.toList with
  | .ok template => .ok { s with templates := s.templates ++ [template] }
  | .error error => .error error

/-- Applies the overrides in some texts, each with its path. All of them are read
    before any is applied. -/
def override (s : Session) (files : List (String × String)) : Loading Session := do
  let overrides ← ExceptT.mk (return files.mapM fun (path, text) => Template.ofText path text.toList)
  let templates ← Template.merge s.templates overrides
  return { s with templates }

def configure (s : Session) (env : Environment) : Session :=
  { s with settings := .ofEnvironment env }

/-- What becomes of every endpoint of every template. -/
def resolve (s : Session) : Logged (List (List (Option ResolvedEndpoint))) :=
  s.templates.mapM fun t => t.endpoints.mapM (·.resolve t.nameSpace)

/-- The text of the preamble and of each section. -/
def render (s : Session) : Logged (List String) := do
  let sections ← s.templates.mapM (Section.build s.settings)
  return (Preamble.build s.settings s.templates).render :: sections.map (·.render)

end Session

end ApiStubs
