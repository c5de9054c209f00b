-- SUMMARY: From directories of templates to the text of a client.
import ApiStubs.Loading
import ApiStubs.Stub.Render
import ApiStubs.Template.Merge

/-!
# Generation

`generate` loads the templates of a directory and the overrides of another one,
merges them and writes the client. There is text only if all of them load.
-/

namespace ApiStubs

open Files Stub

/-- The text of a client and the number of its calls. -/
structure Generated (τ : Type := String) where
  text : τ
  count : Nat
deriving DecidableEq, Repr

/-- Loads the overrides. A directory that is not there holds none. -/
def loadOverrides (w : Workspace) (directory : Option String) (denyList : List String) :
    Loading (List Template) :=
  match directory with
  | none => return []
  | some name =>
    match w.isDirectory (.parse name) with
    | .error failure => throw (.unreachable failure)
    | .ok true => loadTemplates w (.parse name) denyList
    | .ok false => do
      Logged.log (.overridesMissing name)
      return []

section Script

variable {τ : Type} [Append τ] [Text.Script τ]

/-- Writes the client of some templates. -/
def writeClient (settings : Settings τ) (templates : List Template) : Logged (Generated τ) := do
  let sections ← templates.mapM (Section.build settings)
  let count := (sections.flatMap (·.calls)).length
  Logged.log (.generated count templates.length)
  return {
    text := (Preamble.build settings templates).render ++ each sections Section.render
    count }

/-- Generates the client of the templates in `directory`, changed by those in
    `overrides`. -/
def generate (w : Workspace) (directory : String) (overrides : Option String)
    (settings : Settings τ) : Loading (Generated τ) := do
  let base ← loadTemplates w (.parse directory) settings.denyList
  let changes ← loadOverrides w overrides settings.denyList
  let templates ← Template.merge base changes
  writeClient settings templates

end Script

end ApiStubs
