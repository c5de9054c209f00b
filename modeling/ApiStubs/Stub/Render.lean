-- SUMMARY: The text of a generated client.
import ApiStubs.Stub.Basic
import ApiStubs.Text.Literal

/-!
# Rendering

Each piece of a stub is written by a function of its own, and the text of a stub
is their concatenation. Pieces end with a line feed and begin with the blank
lines that divide them from what comes before.
-/

namespace ApiStubs.Stub

open Text Script

variable {τ : Type} [Append τ] [Script τ]

/-- The text of some lines. -/
def unlines (ls : List τ) : τ := join (ls.map (· ++ text "\n"))

/-- What is written for each item, one after the other. -/
def each {α : Type} (items : List α) (write : α → τ) : τ := join (items.map write)

/-- What is written for a text, if there is a text and it is not empty. -/
def ifPresent (text : Option String) (write : String → String) : String :=
  match text with
  | none => ""
  | some s => if s = "" then "" else write s

/-- The literal of a text, or that of the name `None` if there is no text. -/
def literalOrNone (value : Option τ) : τ := literal (value.getD (text "None"))

/-! ## Preamble -/

def Accessor.render (a : Accessor) : String :=
  unlines ["", s!"    def {a.accessor}(self) -> {a.clientClass}[A]:"] ++
    ifPresent a.description (fun d => unlines [s!"        \"\"\"{d}\"\"\""]) ++
    unlines [s!"        return {a.clientClass}(self)"]

def Preamble.render (p : Preamble τ) : τ :=
  unlines [
    text "# Generated by clientgen from API templates. Do not edit.",
    text "",
    text "from __future__ import annotations",
    text "",
    text "from typing import BinaryIO, Generic, Iterable, TypeVar",
    text "",
    text "from " ++ p.runtime ++ text " import TwitterResult",
    text "from " ++ p.runtime ++ text ".clients import impls",
    text "from " ++ p.runtime ++ text ".clients.helper import (",
    text "    collection_parameter,",
    text "    execute_core,",
    text "    str_collection_parameter,",
    text ")",
    text "from " ++ p.runtime ++ text ".conn import Authenticator",
    text "from " ++ p.runtime ++ text ".models import *  # noqa: F401,F403",
    text "",
    text "A = TypeVar(\"A\", bound=Authenticator)",
    text "",
    text "",
    text "class " ++ p.clientName ++ text "(Generic[A]):",
    text "    \"\"\"Holds the authenticator shared by every API client.\"\"\"",
    text "",
    text "    def __init__(self, authenticator: A) -> None:",
    text "        self._auth = authenticator"] ++
    text (each p.accessors Accessor.render)

/-! ## Methods of a namespace client -/

/-- The parameters of a method, after the first one. -/
def formals (args : List Argument) : String := each args fun a => s!", {a.attr}: {a.hint}"

/-- The arguments of a call, after the first one. -/
def actuals (args : List Argument) : String := each args fun a => s!", {a.attr}"

/-- A line of documentation. -/
def docLine (line : String) : String :=
  if line = "" then "\n" else unlines [s!"        {line}"]

/-- What follows the opening quotes of the documentation of a call, up to its
    closing quotes. -/
def docBody (doc : List String) : String := "\n" ++ each doc docLine ++ "        \"\"\""

/-- The documentation of a call, if there is any. -/
def docText (doc : List String) : String :=
  if doc.isEmpty then "" else "        \"\"\"" ++ docBody doc ++ "\n"

def Call.renderMethod (c : Call τ) : String :=
  unlines ["", s!"    def {c.methodName}(self{formals c.signature}) -> {c.builderClass}[A]:"] ++
    docText c.doc ++
    unlines [s!"        return {c.builderClass}(self._client{actuals c.signature})"]

/-! ## Request builders -/

def setter (c : Call τ) (a : Argument) : String :=
  unlines [
    "",
    s!"    def {a.attr}(self, val: {a.hint}) -> {c.builderClass}[A]:",
    s!"        self._{a.attr} = val",
    "        return self"]

/-- The name of an argument in requests and the expression that is sent. -/
def sent (a : Argument) : String := s!"({Literal.ofString a.name}, {a.value})"

/-- The list of the required parameters that are sent. -/
def requiredParams (args : List Argument) : String :=
  if args.isEmpty then unlines ["        params: list[tuple[str, object]] = []"]
  else
    unlines ["        params: list[tuple[str, object]] = ["] ++
      each args (fun a => unlines [s!"            {sent a},"]) ++
      unlines ["        ]"]

def optionalParam (a : Argument) : String :=
  unlines [
    s!"        if self._{a.attr} is not None:",
    s!"            params.append({sent a})"]

/-- The URL of a call, with the reserved argument in its place. -/
def urlExpression (c : Call τ) : τ :=
  match c.reserved with
  | none => literalOrNone c.url
  | some a =>
    literalOrNone c.url ++ text ".replace(" ++ text (Literal.ofString a.placeholder) ++
      text ", str(self._" ++ text a.attr ++ text "))"

/-- The end of a request builder: a call by hand if there is one, else a request. -/
def execution (c : Call τ) : τ :=
  let request := unlines [
    text "        url = " ++ urlExpression c,
    text s!"        return execute_core(self._client, {literalOrNone c.httpMethod}, url, params)"]
  match c.implFunction with
  | none => request
  | some function =>
    if function = "" then request
    else text (unlines [s!"        return impls.{function}(self._client, params)"])

def Call.renderBuilder (clientName : τ) (c : Call τ) : τ :=
  unlines [
    text "",
    text "",
    text s!"class {c.builderClass}(Generic[A]):",
    text "    def __init__(self, client: " ++ clientName ++
      text s!"[A]{formals c.signature}) -> None:",
    text "        self._client = client"] ++
    text (each c.signature fun a => unlines [s!"        self._{a.attr} = {a.attr}"]) ++
    text (each c.optional fun a => unlines [s!"        self._{a.attr}: {a.hint} | None = None"]) ++
    text (each c.optional (setter c)) ++
    text (unlines ["", s!"    def execute(self) -> TwitterResult[{c.returnType}]:"]) ++
    text (requiredParams c.serializedRequired) ++
    text (each c.optional optionalParam) ++
    execution c

/-! ## Sections -/

def Section.render (s : Section τ) : τ :=
  text (unlines ["", "", s!"class {s.clientClass}(Generic[A]):"]) ++
    text (ifPresent s.description fun d => unlines [s!"    \"\"\"{d}\"\"\"", ""]) ++
    unlines [
      text "    def __init__(self, client: " ++ s.clientName ++ text "[A]) -> None:",
      text "        self._client = client"] ++
    text (each s.calls Call.renderMethod) ++
    each s.calls (Call.renderBuilder s.clientName)

end ApiStubs.Stub
