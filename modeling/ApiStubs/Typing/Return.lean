-- SUMMARY: Return types of generated calls.
import ApiStubs.Naming.Plural
import ApiStubs.Typing.Basic

/-!
# Return types

Most return types keep their name without the ending `Response`. Cursors, lists
and a few particular types and endpoints have a form of their own.
-/

namespace ApiStubs.Typing

/-- The type without the ending `Response`, unless that is all of it. -/
def withoutResponse (type : String) : String :=
  if "Response".toList.isSuffixOf type.toList && type ≠ "Response" then
    .ofList (type.toList.take (type.length - "Response".length))
  else type

/-- The return type in generated code of the endpoint `name`. -/
def returnType (type name : String) : Except UnsupportedType String :=
  if name = "RateLimitStatus" then .ok "RateLimitStatusResponse"
  else if type = "CategoryResponse" then .ok "SuggestedUsers"
  else if type = "void" then .ok "None"
  else if type = "StringResponse" then .ok s!"{name}Response"
  else if type = "Cursored<long>" then .ok "CursorIds"
  else if let some item := argument? "Cursored<" type then .ok s!"Cursor{Naming.plural item}"
  else if let some item := argument? "Listed<" type then .ok s!"list[{plain item}]"
  else if "Dictionary<".toList.isPrefixOf type.toList then .error (.dictionary type)
  else .ok (plain (withoutResponse type))

end ApiStubs.Typing
