-- SUMMARY: What can be wrong with a template file, and how it is said.
import ApiStubs.Source.Basic
import ApiStubs.Text.Position
import ApiStubs.Text.Quoted

/-!
# Faults

A fault of a template file has a cause. Most causes are tied to a place. The
parser knows that place as an offset, and `Fault.locate` turns it into a line
and a column of the file.
-/

namespace ApiStubs.Source

open Text

/-- The blocks that hold a list of entries. -/
inductive ListBlock where
  | withEntries
  | params
deriving DecidableEq, Repr

namespace ListBlock

def keyword : ListBlock → String
  | .withEntries => "with"
  | .params => "params"

/-- The entries that the block may hold, as a message lists them. -/
def expected : ListBlock → String
  | .withEntries => "JsonPath=, OmitExcept= or [Name]="
  | .params => "required, optional, semi-optional or either"

end ListBlock

inductive Cause where
  /-- No element begins here. -/
  | strayText (found : String)
  | spaceExpected (tag : String)
  | rawUnterminated
  | returnTypeExpected
  | nameExpected (returnType : String)
  | colonExpected (endpoint : String)
  | urlExpected (method : Method)
  | targetExpected (endpoint : String)
  | braceExpected (endpoint : String)
  | endpointUnterminated (endpoint : String)
  /-- No block begins here. -/
  | strayInEndpoint (found endpoint : String)
  | blockUnterminated (name : String)
  /-- No entry begins here, so the block counts as unterminated. -/
  | strayInBlock (block : ListBlock) (found : String)
  | namespaceDuplicate
  | namespaceMissing
deriving DecidableEq, Repr

def Cause.message : Cause → String
  | .strayText found =>
    s!"expected #namespace, #description, #raw or endpoint, found {quoted found}"
  | .spaceExpected tag => s!"expected a space after {tag}"
  | .rawUnterminated => "unterminated #raw block"
  | .returnTypeExpected => "expected a return type"
  | .nameExpected returnType => s!"expected an endpoint name after {quoted returnType}"
  | .colonExpected endpoint => s!"expected ':' after endpoint name {quoted endpoint}"
  | .urlExpected method => s!"expected a URL after {method.keyword}"
  | .targetExpected endpoint => s!"expected Impl, Get or Post for endpoint {quoted endpoint}"
  | .braceExpected endpoint => s!"expected '\x7b' to open endpoint {quoted endpoint}"
  | .endpointUnterminated endpoint => s!"unterminated endpoint block {quoted endpoint}"
  | .strayInEndpoint found endpoint =>
    s!"unexpected {quoted found} in endpoint {quoted endpoint}"
  | .blockUnterminated name => s!"unterminated {name} block"
  | .strayInBlock block found =>
    s!"unterminated {block.keyword} block: expected {block.expected} or '\x7d', found {quoted found}"
  | .namespaceDuplicate => "duplicate field: #namespace"
  | .namespaceMissing => "missing field: #namespace"

/-- Why a text cannot be read. An index may have up to `maxIndexDigits` digits. -/
inductive Fault where
  | malformed (cause : Cause) (offset : Nat)
  | indexTooLong (digits : Nat)
deriving DecidableEq, Repr

/-- The number of digits that an index may have. -/
def maxIndexDigits : Nat := 4300

/-- A fault with its place as a position, if it is tied to a place. -/
inductive LocatedFault where
  | malformed (cause : Cause) (position : Option Position)
  | indexTooLong (digits : Nat)
deriving DecidableEq, Repr

def Fault.locate (text : List Char) : Fault → LocatedFault
  | .malformed cause offset => .malformed cause (some (.ofOffset text offset))
  | .indexTooLong digits => .indexTooLong digits

namespace LocatedFault

/-- The fault as it is reported for a file. -/
def message (file : String) : LocatedFault → String
  | .malformed cause (some position) => s!"{file} {position.render} {cause.message}"
  | .malformed cause none => s!"{file} {cause.message}"
  | .indexTooLong digits =>
    s!"Exceeds the limit ({maxIndexDigits} digits) for integer string conversion: value has " ++
      s!"{digits} digits; use sys.set_int_max_str_digits() to increase the limit"

def position? : LocatedFault → Option Position
  | .malformed _ position => position
  | .indexTooLong _ => none

end LocatedFault

end ApiStubs.Source
