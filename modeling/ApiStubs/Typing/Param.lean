-- SUMMARY: Parameter types of generated calls.
import ApiStubs.Typing.Basic

/-!
# Parameter types

The shape of a parameter says how its value is sent. Lists go through a helper
that joins their items, everything else is sent as it is.
-/

namespace ApiStubs

inductive ParamShape where
  | normal
  | string
  | list
  | stringList
  | upload
deriving DecidableEq, Repr

/-- The type of a parameter: its shape and its name in generated code. -/
structure ParamType where
  shape : ParamShape
  hint : String
deriving DecidableEq, Repr

/-- The helper that turns a value into text. -/
def ParamType.serializer? (t : ParamType) : Option String :=
  match t.shape with
  | .stringList => some "str_collection_parameter"
  | .list => some "collection_parameter"
  | _ => none

/-- The type of a parameter, from its type in the template. -/
def Typing.paramType (type : String) : Except UnsupportedType ParamType :=
  if type = "string" then .ok ⟨.string, "str"⟩
  else if type = "Stream" then .ok ⟨.upload, "BinaryIO"⟩
  else if type = "IEnumerable<string>" then .ok ⟨.stringList, "Iterable[str]"⟩
  else if type = byteList then .error .byteList
  else if let some item := argument? "IEnumerable<" type then
    .ok ⟨.list, s!"Iterable[{plain item}]"⟩
  else .ok ⟨.normal, plain type⟩

end ApiStubs
