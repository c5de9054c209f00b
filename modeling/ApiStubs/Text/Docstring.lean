-- SUMMARY: Text inside a triple-quoted string, escaped and read.

/-!
# Docstrings

`Docstring.escape` prepares a text to stand in front of the three double quotes
that close a docstring. Backslashes are doubled. Each run of three quotes is
escaped as it comes, from left to right, and a quote at the very end is escaped
too, so that it cannot join the closing quotes.

`Docstring.read` is the other side: what a triple-quoted string denotes.
-/

namespace ApiStubs.Text.Docstring

def doubleBackslashes (s : List Char) : List Char :=
  s.flatMap fun c => if c = '\\' then ['\\', '\\'] else [c]

/-- Escapes every run of three quotes, from left to right. -/
def escapeTriples : List Char → List Char
  | '"' :: '"' :: '"' :: cs => '\\' :: '"' :: '\\' :: '"' :: '\\' :: '"' :: escapeTriples cs
  | c :: cs => c :: escapeTriples cs
  | [] => []

/-- Puts a backslash before a quote that ends the text. -/
def escapeLast : List Char → List Char
  | [] => []
  | [c] => if c = '"' then ['\\', '"'] else [c]
  | c :: d :: cs => c :: escapeLast (d :: cs)

def escape (s : List Char) : List Char := escapeLast (escapeTriples (doubleBackslashes s))

/-- The text as it is written in a docstring. -/
def ofString (s : String) : String := .ofList (escape s.toList)

/-- Reads up to the first run of three quotes that no backslash escapes: the
    value and what follows the quotes. A backslash makes the backslash or quote
    after it stand for itself, and stands for itself before anything else. -/
def read : List Char → Option (List Char × List Char)
  | '"' :: '"' :: '"' :: rest => some ([], rest)
  | '\\' :: '\\' :: cs => (read cs).map fun (value, rest) => ('\\' :: value, rest)
  | '\\' :: '"' :: cs => (read cs).map fun (value, rest) => ('"' :: value, rest)
  | c :: cs => (read cs).map fun (value, rest) => (c :: value, rest)
  | [] => none

end ApiStubs.Text.Docstring
