-- SUMMARY: Text that came as octets, with octets in it that are no text.

/-!
# Symbols

What comes as octets, such as a variable of an environment, need not be text. Where the octets
make characters they are read as these, and an octet that is part of no character is kept as it
is. So a raw text is a list of symbols, each of which is a character or such an octet.
-/

namespace ApiStubs.Text

inductive Symbol where
  | char (c : Char)
  /-- An octet that is part of no character. -/
  | octet (b : UInt8)
deriving DecidableEq, Repr

abbrev RawText := List Symbol

namespace RawText

def ofChars (s : List Char) : RawText := s.map .char

def ofString (s : String) : RawText := ofChars s.toList

/-- The characters of a text, if there is nothing else in it. -/
def chars? : RawText → Option (List Char)
  | [] => some []
  | .char c :: rest => (chars? rest).map (c :: ·)
  | .octet _ :: _ => none

end RawText

end ApiStubs.Text
