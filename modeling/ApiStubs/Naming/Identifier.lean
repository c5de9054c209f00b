-- SUMMARY: Names that generated code can use as identifiers.

/-!
# Identifiers

`identifier` turns any name into an identifier of the generated code. Characters
that cannot stand in an identifier become underscores. A digit at the front gets
an underscore before it, and a word with a meaning of its own one after it.
-/

namespace ApiStubs.Naming

/-- The keywords of the generated language. -/
def keywords : List String :=
  ["False", "None", "True", "and", "as", "assert", "async", "await", "break", "class", "continue",
   "def", "del", "elif", "else", "except", "finally", "for", "from", "global", "if", "import",
   "in", "is", "lambda", "nonlocal", "not", "or", "pass", "raise", "return", "try", "while",
   "with", "yield"]

/-- The names that generated classes use themselves. -/
def classNames : List String := ["self", "client", "execute"]

def isTaken (name : String) : Bool := keywords.contains name || classNames.contains name

/-- Whether the character may stand in an identifier. -/
def isIdentifierChar (c : Char) : Bool := c.isAlphanum || c == '_'

/-- The name with identifier characters only. -/
def cleaned (name : List Char) : List Char :=
  name.map fun c => if isIdentifierChar c then c else '_'

/-- The name with an underscore before a leading digit, and for no name at all. -/
def withLead : List Char → List Char
  | [] => ['_']
  | c :: cs => if c.isDigit then '_' :: c :: cs else c :: cs

def identifier (name : String) : String :=
  let word := String.ofList (withLead (cleaned name.toList))
  if isTaken word then word ++ "_" else word

end ApiStubs.Naming
