-- SUMMARY: Templates: the endpoints of one namespace, free of the form of the file that declared them.
import ApiStubs.Source.Basic

/-!
# Templates

A template is what a file declares: a namespace, its description and its
endpoints. It is the value that later stages work on.
-/

namespace ApiStubs

structure Endpoint where
  returnType : String := "void"
  name : String
  method : Method := .get
  url : Option String := none
  jsonPath : Option String := none
  attributes : List (String × String) := []
  /-- Drops the endpoint of this name, in an override and on its own. -/
  ignore : Bool := false
  description : Option String := none
  returns : Option String := none
  params : List Param := []
deriving DecidableEq, Repr

def Endpoint.hasAttribute (e : Endpoint) (name : String) : Bool :=
  e.attributes.any (·.1 == name)

structure Template where
  nameSpace : String
  description : Option String := none
  endpoints : List Endpoint := []
deriving DecidableEq, Repr

end ApiStubs
