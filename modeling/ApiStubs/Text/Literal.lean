-- SUMMARY: String literals between double quotes, written and read.
import ApiStubs.Text.Hex

/-!
# String literals

`Literal.encode` writes a text as a string literal between double quotes. The
quote and the backslash are escaped, and so is every control character: by its
short escape if it has one and by four hexadecimal digits if not. All other
characters stand for themselves.

`Literal.decode` reads a literal back from the front of a text. A literal ends on
the line on which it begins.
-/

namespace ApiStubs.Text.Literal

/-- A character as it stands between the quotes. -/
def encodeChar (c : Char) : List Char :=
  if c = '"' then ['\\', '"']
  else if c = '\\' then ['\\', '\\']
  else if c = '\n' then ['\\', 'n']
  else if c = '\r' then ['\\', 'r']
  else if c = '\t' then ['\\', 't']
  else if c = '\x08' then ['\\', 'b']
  else if c = '\x0c' then ['\\', 'f']
  else if c.toNat < 0x20 then '\\' :: 'u' :: hex 4 c.toNat
  else [c]

def encode (s : List Char) : List Char := '"' :: s.flatMap encodeChar ++ ['"']

/-- The literal that denotes the text. -/
def ofString (s : String) : String := .ofList (encode s.toList)

/-- The value of a hexadecimal digit. -/
def hexDigit? (c : Char) : Option Nat :=
  if c.isDigit then some (c.toNat - '0'.toNat)
  else if 'a' ≤ c && c ≤ 'f' then some (c.toNat - 'a'.toNat + 10)
  else if 'A' ≤ c && c ≤ 'F' then some (c.toNat - 'A'.toNat + 10)
  else none

/-- The character that a backslash and `c` stand for. -/
def escape? (c : Char) : Option Char :=
  match c with
  | '"' => some '"'
  | '\\' => some '\\'
  | 'n' => some '\n'
  | 'r' => some '\r'
  | 't' => some '\t'
  | 'b' => some '\x08'
  | 'f' => some '\x0c'
  | _ => none

/-- The character with the code that four hexadecimal digits write, if there is
    such a character. -/
def escapeCode? (a b c d : Char) : Option Char := do
  let a ← hexDigit? a
  let b ← hexDigit? b
  let c ← hexDigit? c
  let d ← hexDigit? d
  let code := ((a * 16 + b) * 16 + c) * 16 + d
  if code.isValidChar then some (Char.ofNat code) else none

/-- Reads up to the closing quote: the value so far and what follows the quote. -/
def decodeBody : List Char → Option (List Char × List Char)
  | [] => none
  | '"' :: rest => some ([], rest)
  | '\\' :: 'u' :: a :: b :: c :: d :: rest => do
    let x ← escapeCode? a b c d
    let (value, rest) ← decodeBody rest
    return (x :: value, rest)
  | '\\' :: e :: rest => do
    let x ← escape? e
    let (value, rest) ← decodeBody rest
    return (x :: value, rest)
  | c :: rest =>
    if c = '\\' || c = '\n' || c = '\r' then none
    else do
      let (value, rest) ← decodeBody rest
      return (c :: value, rest)

/-- Reads one literal: the text that it denotes and what follows it. -/
def decode : List Char → Option (List Char × List Char)
  | '"' :: rest => decodeBody rest
  | _ => none

end ApiStubs.Text.Literal
