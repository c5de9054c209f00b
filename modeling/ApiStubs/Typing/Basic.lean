-- SUMMARY: Types of the generated code, from the type names of templates.

/-!
# Types

A template names types in a vocabulary of its own. Generated code has other
names for the primitive types and for some models. All other names are kept.
-/

namespace ApiStubs

/-- A type that generated code cannot express. -/
inductive UnsupportedType where
  | dictionary (returnType : String)
  | byteList
deriving DecidableEq, Repr

/-- The type of a parameter that is a list of bytes. -/
def byteList : String := "IEnumerable<byte>"

def UnsupportedType.message : UnsupportedType → String
  | .dictionary returnType => s!"Unsupported return type `{returnType}`"
  | .byteList => s!"Unsupported parameter type `{ApiStubs.byteList}`"

namespace Typing

def primitives : List (String × String) :=
  [("string", "str"), ("int", "int"), ("long", "int"), ("double", "float"), ("bool", "bool")]

/-- The models that have another name in generated code. -/
def renamedModels : List (String × String) :=
  [("Status", "Tweet"), ("Embed", "OEmbed"), ("SearchResult", "SearchResponse"),
   ("Configurations", "Configuration"), ("TrendLocation", "TrendPlace"),
   ("SearchQuery", "SavedSearch"), ("Setting", "AccountSettings"), ("Category", "UserCategory"),
   ("Relationship", "FriendshipResponse"), ("GeoResult", "GeoResponse")]

/-- The name in generated code of a plain type. -/
def plain (type : String) : String :=
  ((primitives ++ renamedModels).lookup type).getD type

/-- The name between `opening` and the closing angle bracket of a type. -/
def argument? (opening type : String) : Option String :=
  if opening.toList.isPrefixOf type.toList && [('>' : Char)].isSuffixOf type.toList then
    some (.ofList (type.toList.drop opening.length).dropLast)
  else none

end Typing

end ApiStubs
