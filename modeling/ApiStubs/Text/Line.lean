-- SUMMARY: The lines of a text, and texts with one kind of line end.

/-!
# Lines

`lines` cuts a text at every character that ends a line in some convention. A
carriage return and a line feed together end one line. The last line need not
be ended, so a text and the same text with a line end after it have the same
lines.

`unifyLineEnds` is what reading a file as text does to it: every carriage
return, with the line feed after it if there is one, becomes a line feed.
-/

namespace ApiStubs.Text

/-- Whether the character ends a line. -/
def isLineBreak (c : Char) : Bool :=
  c == '\n' || c == '\r' || c == '\x0b' || c == '\x0c' || c == '\x1c' || c == '\x1d' ||
    c == '\x1e' || c == '\x85' || c == '\u2028' || c == '\u2029'

/-- The lines of the text, without their ends. -/
def lines : List Char → List (List Char)
  | [] => []
  | '\r' :: '\n' :: cs => [] :: lines cs
  | c :: cs =>
    if isLineBreak c then [] :: lines cs
    else match lines cs with
      | [] => [[c]]
      | l :: ls => (c :: l) :: ls

def unifyLineEnds : List Char → List Char
  | [] => []
  | '\r' :: '\n' :: cs => '\n' :: unifyLineEnds cs
  | c :: cs => (if c = '\r' then '\n' else c) :: unifyLineEnds cs

end ApiStubs.Text
