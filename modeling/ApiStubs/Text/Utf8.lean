-- SUMMARY: Text from UTF-8 octets and back, with the place and cause of a failure.
import ApiStubs.Text.Hex
import ApiStubs.Text.Symbol

/-!
# UTF-8

`Utf8.decode` reads octets strictly. The first octet of a character decides how
many follow it and, in four cases, narrows the range of the second one: this
rules out overlong forms, surrogates and code points beyond U+10FFFF. A failure
covers the first octet and the following ones that were still in order.

`Utf8.decodeRaw` reads any octets. What would be a failure stays in the text as octets,
and a text with such octets cannot be encoded again: `Utf8.encode` fails at the first
ones of them.
-/

namespace ApiStubs.Text.Utf8

/-- How a piece of octets fails to be a character. -/
inductive Cause where
  | startOctet
  | continuationOctet
  | endOfData
deriving DecidableEq, Repr

/-- The `length` octets at `offset`, the first of which is `first`, are no
    character. -/
structure Failure where
  cause : Cause
  offset : Nat
  length : Nat
  first : UInt8
deriving DecidableEq, Repr

def Cause.message : Cause → String
  | .startOctet => "invalid start byte"
  | .continuationOctet => "invalid continuation byte"
  | .endOfData => "unexpected end of data"

namespace Failure

/-- The piece of octets as a message names it. -/
def place (f : Failure) : String :=
  if f.length = 1 then
    s!"byte 0x{String.ofList (hex 2 f.first.toNat)} in position {f.offset}"
  else
    s!"bytes in position {f.offset}-{f.offset + f.length - 1}"

def message (f : Failure) : String :=
  s!"'utf-8' codec can't decode {f.place}: {f.cause.message}"

end Failure

/-- The range of each octet that follows a first octet, or none if no character
    starts with it. -/
def following? (first : UInt8) : Option (List (UInt8 × UInt8)) :=
  if first < 0x80 then some []
  else if first < 0xC2 then none
  else if first < 0xE0 then some [(0x80, 0xBF)]
  else if first = 0xE0 then some [(0xA0, 0xBF), (0x80, 0xBF)]
  else if first = 0xED then some [(0x80, 0x9F), (0x80, 0xBF)]
  else if first < 0xF0 then some [(0x80, 0xBF), (0x80, 0xBF)]
  else if first = 0xF0 then some [(0x90, 0xBF), (0x80, 0xBF), (0x80, 0xBF)]
  else if first < 0xF4 then some [(0x80, 0xBF), (0x80, 0xBF), (0x80, 0xBF)]
  else if first = 0xF4 then some [(0x80, 0x8F), (0x80, 0xBF), (0x80, 0xBF)]
  else none

/-- The number of octets at the front that lie in their ranges, range by range. -/
def inOrder : List (UInt8 × UInt8) → List UInt8 → Nat
  | (low, high) :: ranges, b :: bs => if low ≤ b && b ≤ high then inOrder ranges bs + 1 else 0
  | _, _ => 0

/-- The code point that a first octet and its following octets write. -/
def codePoint (first : UInt8) (more : List UInt8) : Nat :=
  let lead := match more.length with
    | 0 => first.toNat
    | 1 => first.toNat % 0x20
    | 2 => first.toNat % 0x10
    | _ => first.toNat % 0x08
  more.foldl (fun n b => n * 0x40 + b.toNat % 0x40) lead

/-- Decodes the octets that stand at `offset`. -/
def decodeFrom (offset : Nat) (octets : List UInt8) : Except Failure (List Char) :=
  match octets with
  | [] => .ok []
  | b :: bs =>
    match following? b with
    | none => .error ⟨.startOctet, offset, 1, b⟩
    | some ranges =>
      let n := inOrder ranges bs
      if n = ranges.length then
        match decodeFrom (offset + n + 1) (bs.drop n) with
        | .ok cs => .ok (Char.ofNat (codePoint b (bs.take n)) :: cs)
        | .error f => .error f
      else if n = bs.length then .error ⟨.endOfData, offset, n + 1, b⟩
      else .error ⟨.continuationOctet, offset, n + 1, b⟩
termination_by octets.length
decreasing_by
  simp only [List.length_drop, List.length_cons]
  omega

/-- The text that the octets encode. -/
def decode (octets : List UInt8) : Except Failure (List Char) := decodeFrom 0 octets

/-- The text of octets, with those in it that are part of no character. -/
def decodeRaw (octets : List UInt8) : RawText :=
  match octets with
  | [] => []
  | b :: bs =>
    match following? b with
    | none => .octet b :: decodeRaw bs
    | some ranges =>
      let n := inOrder ranges bs
      if n = ranges.length then
        .char (Char.ofNat (codePoint b (bs.take n))) :: decodeRaw (bs.drop n)
      else (b :: bs.take n).map .octet ++ decodeRaw (bs.drop n)
termination_by octets.length
decreasing_by all_goals (simp only [List.length_drop, List.length_cons]; omega)

/-! ## Encoding -/

/-- The octets at `offset` in a text are no characters. -/
structure Unencodable where
  offset : Nat
  octets : List UInt8
deriving DecidableEq, Repr

namespace Unencodable

/-- The code that stands in a text for an octet that is no character. -/
def code (b : UInt8) : Nat := 0xDC00 + b.toNat

/-- The piece of the text as a message names it. -/
def place (u : Unencodable) : String :=
  match u.octets with
  | [b] => s!"character '\\u{String.ofList (hex 4 (code b))}' in position {u.offset}"
  | _ => s!"characters in position {u.offset}-{u.offset + u.octets.length - 1}"

def message (u : Unencodable) : String :=
  s!"'utf-8' codec can't encode {u.place}: surrogates not allowed"

end Unencodable

/-- The octets at the front of a text that are no characters. -/
def leadingOctets : RawText → List UInt8
  | .octet b :: rest => b :: leadingOctets rest
  | _ => []

/-- Encodes the text that stands at `offset`. -/
def encodeFrom (offset : Nat) : RawText → Except Unencodable (List UInt8)
  | [] => .ok []
  | .octet b :: rest => .error ⟨offset, b :: leadingOctets rest⟩
  | .char c :: rest =>
    match encodeFrom (offset + 1) rest with
    | .ok octets => .ok (String.utf8EncodeChar c ++ octets)
    | .error u => .error u

/-- The octets that encode the text. -/
def encode (text : RawText) : Except Unencodable (List UInt8) := encodeFrom 0 text

end ApiStubs.Text.Utf8
