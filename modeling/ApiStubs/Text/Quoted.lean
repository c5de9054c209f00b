-- SUMMARY: Quotation of a text inside a message.
import ApiStubs.Text.Hex
import ApiStubs.Text.Printable

/-!
# Quotations

A message quotes a piece of text between single quotes, or between double quotes
if the text holds a single quote and no double one. The quote in use, the
backslash and everything that is not printable are escaped, so a quotation is
always one line.
-/

namespace ApiStubs.Text

/-- The quote that stands around the text. -/
def quoteMark (s : List Char) : Char :=
  if s.contains '\'' && !s.contains '"' then '"' else '\''

/-- A character as it stands between two `mark`s. -/
def quotedChar (mark c : Char) : List Char :=
  if c = mark || c = '\\' then ['\\', c]
  else if c = '\n' then ['\\', 'n']
  else if c = '\r' then ['\\', 'r']
  else if c = '\t' then ['\\', 't']
  else if isPrintable c then [c]
  else if c.toNat < 0x100 then '\\' :: 'x' :: hex 2 c.toNat
  else if c.toNat < 0x10000 then '\\' :: 'u' :: hex 4 c.toNat
  else '\\' :: 'U' :: hex 8 c.toNat

def quoted (s : String) : String :=
  let mark := quoteMark s.toList
  .ofList (mark :: s.toList.flatMap (quotedChar mark) ++ [mark])

end ApiStubs.Text
