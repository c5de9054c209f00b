-- SUMMARY: What a template file says, element by element, with the place of each.

/-!
# Source elements

A template file is a sequence of elements: directive lines, raw blocks and
endpoint declarations. An endpoint declaration has a header and a sequence of
blocks. Elements and blocks know the offset at which they begin, so that a later
stage can still point into the file.
-/

namespace ApiStubs

/-- How an endpoint is called: by a request of one of two kinds, or by a function
    that somebody writes by hand. -/
inductive Method where
  | get
  | post
  | impl
deriving DecidableEq, Repr

/-- The word for a method in a template. -/
def Method.keyword : Method → String
  | .get => "Get"
  | .post => "Post"
  | .impl => "Impl"

/-- Whether a parameter has to be given. Of the parameters of one `either` group
    any may be given. -/
inductive ParamKind where
  | required
  | either
  | optional
deriving DecidableEq, Repr

structure TypedName where
  type : String
  name : String
deriving DecidableEq, Repr

/-- A line of a parameter block: some parameters of one kind. A guarded one holds
    only under the condition that its guard states. The group tells `either`
    lines apart that belong to different choices. -/
structure Param where
  kind : ParamKind
  pairs : List TypedName := []
  guard : Option String := none
  group : Nat := 0
deriving DecidableEq, Repr

namespace Source

structure Located (α : Type) where
  offset : Nat
  value : α
deriving DecidableEq, Repr

/-- Where the calls of an endpoint go. -/
inductive Target where
  | impl
  | get (url : String)
  | post (url : String)
deriving DecidableEq, Repr

def Target.method : Target → Method
  | .impl => .impl
  | .get _ => .get
  | .post _ => .post

def Target.url? : Target → Option String
  | .impl => none
  | .get url => some url
  | .post url => some url

structure Header where
  returnType : String
  name : String
  target : Target
deriving DecidableEq, Repr

/-- An entry of a `with` block. An ignore marker drops the endpoint of the same
    name that it overrides. -/
inductive WithEntry where
  | jsonPath (text : String)
  | omitExcept (text : String)
  | attribute (name value : String)
  | ignore
deriving DecidableEq, Repr

inductive Block where
  | withEntries (entries : List WithEntry)
  | params (params : List Param)
  | description (text : String)
  | returns (text : String)
  | other (name body : String)
deriving DecidableEq, Repr

structure EndpointDecl where
  header : Header
  blocks : List (Located Block)
deriving DecidableEq, Repr

inductive Item where
  | namespaceLine (text : String)
  | descriptionLine (text : String)
  | raw (text : String)
  | endpoint (decl : EndpointDecl)
deriving DecidableEq, Repr

abbrev Element := Located Item

end Source

end ApiStubs
