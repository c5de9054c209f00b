-- SUMMARY: The arguments of the command line.
import ApiStubs.Files.Path
import ApiStubs.Text.DecimalDigit

/-!
# Command line arguments

The command line takes a template directory, an optional override directory and
options. Every argument is first classified by its form alone:

* After a separator `--` everything is an operand.
* A long option may be abbreviated as long as one option fits, and may have a
  value after an equals sign.
* Short options may be joined in one argument, and the value of the last one may
  follow it directly. An equals sign right after the first one is left out, and any
  other one is part of the value.
* Negative numbers and texts with a space are operands, and so is a lone dash.

The arguments are then taken in order. The directories come from the first run of
operands that stand together, and an operand beyond them is one too many. Joined
text that is no option is a misuse of the argument that holds it. A misuse that
shows only at the end, such as an operand too many or a missing directory, gives
way to a request for help, which is answered as soon as it is met.
-/

namespace ApiStubs.Command

open Files Text

/-! ## Classification -/

inductive Switch where
  | help
  | output
  | verbose
deriving DecidableEq, Repr

namespace Switch

def all : List Switch := [.help, .output, .verbose]

def long : Switch → String
  | .help => "--help"
  | .output => "--output"
  | .verbose => "--verbose"

def short : Switch → Char
  | .help => 'h'
  | .output => 'o'
  | .verbose => 'v'

/-- The switch with a short name. -/
def ofShort? (c : Char) : Option Switch := all.find? (·.short = c)

/-- The switches that a name, possibly abbreviated, may stand for. -/
def ofLong (name : List Char) : List Switch := all.filter (name.isPrefixOf ·.long.toList)

end Switch

inductive Token where
  | operand (text : String)
  | separator
  | long (switch : Switch) (value : Option String)
  /-- A short option and what follows it in the same argument. -/
  | short (switch : Switch) (joined : List Char)
  | unknown
  | ambiguous
deriving DecidableEq, Repr

/-- Whether the text is a decimal number, possibly with a fraction. -/
def isNumber (s : List Char) : Bool :=
  match s.dropWhile isDecimalDigit with
  | [] => !s.isEmpty
  | '.' :: fraction => !fraction.isEmpty && fraction.all isDecimalDigit
  | _ => false

/-- The text without a line feed at its end. -/
def withoutLineFeed (s : List Char) : List Char :=
  if s.getLast? = some '\n' then s.dropLast else s

/-- What an argument is that begins with a dash and fits no option. -/
def classifyOther (s : List Char) : Token :=
  if isNumber (withoutLineFeed (s.drop 1)) || s.contains ' ' then .operand (.ofList s)
  else .unknown

/-- The value after the first equals sign. -/
def valueOf (s : List Char) : Option String :=
  match s.dropWhile (· ≠ '=') with
  | _ :: value => some (.ofList value)
  | [] => none

/-- What an argument before any separator is. -/
def classify (argument : String) : Token :=
  match argument.toList with
  | '-' :: '-' :: s =>
    match Switch.ofLong ('-' :: '-' :: s.takeWhile (· ≠ '=')) with
    | [] => classifyOther ('-' :: '-' :: s)
    | [switch] => .long switch (valueOf s)
    | _ => .ambiguous
  | '-' :: c :: s =>
    match Switch.ofShort? c with
    | some switch => .short switch s
    | none => classifyOther ('-' :: c :: s)
  | _ => .operand argument

def tokens : List String → List Token
  | [] => []
  | argument :: rest =>
    if argument = "--" then .separator :: rest.map .operand else classify argument :: tokens rest

/-! ## Interpretation -/

/-- Why the command line is not run: it asks for help or it is misused. -/
inductive Refusal where
  | help
  | misuse
deriving DecidableEq, Repr

def Refusal.exitCode : Refusal → Nat
  | .help => 0
  | .misuse => 2

/-- What an option asks for. -/
inductive Request where
  | help
  | verbose
  | output (path : String)
deriving DecidableEq, Repr

/-- The requests of one argument. One that ends with an option whose value is
    missing takes the next operand for it. -/
structure Requests where
  given : List Request := []
  valueMissing : Bool := false
  /-- The argument looks like an option and is none. -/
  isStray : Bool := false
deriving DecidableEq, Repr

/-- The request of a switch that takes no value. -/
def Switch.request? : Switch → Option Request
  | .help => some .help
  | .verbose => some .verbose
  | .output => none

def longRequests (switch : Switch) (value : Option String) : Except Refusal Requests :=
  match switch.request?, value with
  | some request, none => .ok { given := [request] }
  | some _, some _ => .error .misuse
  | none, none => .ok { valueMissing := true }
  | none, some value => .ok { given := [.output value] }

/-- The requests of a short option and of the options or the value joined to it. -/
def joinedRequests (switch : Switch) : List Char → Except Refusal Requests
  | [] =>
    match switch.request? with
    | some request => .ok { given := [request] }
    | none => .ok { valueMissing := true }
  | c :: s =>
    match switch.request? with
    | none => .ok { given := [.output (.ofList (c :: s))] }
    | some request =>
      match Switch.ofShort? c with
      | none => .error .misuse
      | some next =>
        match joinedRequests next s with
        | .ok rest => .ok { rest with given := request :: rest.given }
        | .error refusal => .error refusal

/-- The requests of a short option and of what follows it in the same argument. -/
def shortRequests (switch : Switch) : List Char → Except Refusal Requests
  | ['='] => longRequests switch (some "")
  | '=' :: s => joinedRequests switch s
  | s => joinedRequests switch s

/-- Where the client goes. -/
inductive Output where
  | standard
  | file (path : Path)
  /-- The option is there and its value names no file. -/
  | unnamed
deriving DecidableEq, Repr

/-- The output for the value of its option. A value spelled like a separator counts
    as left out. -/
def Output.ofValue (value : String) : Output :=
  if value = "--" then .unnamed else .file (.parse value)

/-- The file that the client goes to. -/
def Output.file? : Output → Option Path
  | .file path => some path
  | .standard => none
  | .unnamed => none

/-- The directories among the operands so far. They come from one run of operands,
    and `closed` says that this run has ended. -/
inductive Directories where
  | missing
  | one (template : String)
  | two (template : String) (overrides : Option String) (closed : Bool)
deriving DecidableEq, Repr

/-- What the command line asks for so far. -/
structure Progress where
  directories : Directories := .missing
  output : Output := .standard
  verbose : Bool := false
  hasSurplus : Bool := false
deriving DecidableEq, Repr

namespace Progress

/-- Takes an operand. One spelled like a separator stands for no override
    directory. -/
def takeOperand (p : Progress) (text : String) : Progress :=
  match p.directories with
  | .missing => { p with directories := .one text }
  | .one template =>
    let overrides := if text = "--" then none else some text
    { p with directories := .two template overrides false }
  | .two .. => { p with hasSurplus := true }

/-- Passes a separator. It is one argument too many after the run of operands that
    gave the directories. -/
def takeSeparator (p : Progress) : Progress :=
  match p.directories with
  | .two _ _ true => { p with hasSurplus := true }
  | _ => p

/-- Ends a run of operands. -/
def closeRun (p : Progress) : Progress :=
  match p.directories with
  | .missing => p
  | .one template => { p with directories := .two template none true }
  | .two template overrides _ => { p with directories := .two template overrides true }

/-- Grants requests in order, up to a request for help. -/
def grant (p : Progress) : List Request → Except Refusal Progress
  | [] => .ok p
  | .help :: _ => .error .help
  | .verbose :: rest => { p with verbose := true }.grant rest
  | .output path :: rest => { p with output := .ofValue path }.grant rest

end Progress

/-- What the command line asks for. -/
structure Arguments where
  templates : Path
  overrides : Option Path
  output : Output
  verbose : Bool
deriving DecidableEq, Repr

/-- The arguments with the given directories. -/
def Progress.arguments (p : Progress) (template : String) (overrides : Option String) :
    Arguments where
  templates := .parse template
  overrides := overrides.map .parse
  output := p.output
  verbose := p.verbose

/-- The end of the command line. -/
def Progress.finish (p : Progress) : Except Refusal Arguments :=
  if p.hasSurplus then .error .misuse
  else match p.directories with
    | .missing => .error .misuse
    | .one template => .ok (p.arguments template none)
    | .two template overrides _ => .ok (p.arguments template overrides)

/-- Grants the requests of an argument. `next` holds the operand after it, if an
    operand comes next. Says whether that operand is used. -/
def Progress.grantAll (p : Progress) (requests : Requests) (next : Option String) :
    Except Refusal (Progress × Bool) :=
  let p := { p.closeRun with hasSurplus := p.hasSurplus || requests.isStray }
  if requests.valueMissing then
    match next with
    | none => .error .misuse
    | some path => (p.grant (requests.given ++ [.output path])).map (·, true)
  else (p.grant requests.given).map (·, false)

/-- The requests of an option token. -/
def Token.requests? : Token → Option (Except Refusal Requests)
  | .long switch value => some (longRequests switch value)
  | .short switch joined => some (shortRequests switch joined)
  | .unknown => some (.ok { isStray := true })
  | .ambiguous => some (.error .misuse)
  | .operand _ => none
  | .separator => none

/-- Takes tokens in order. -/
def interpret (p : Progress) : List Token → Except Refusal Arguments
  | [] => p.finish
  | .operand text :: rest => interpret (p.takeOperand text) rest
  | .separator :: rest => interpret p.takeSeparator rest
  | token :: .operand text :: rest =>
    match (token.requests?.getD (.ok {})).bind (p.grantAll · (some text)) with
    | .error refusal => .error refusal
    | .ok (p, true) => interpret p rest
    | .ok (p, false) => interpret (p.takeOperand text) rest
  | token :: rest =>
    match (token.requests?.getD (.ok {})).bind (p.grantAll · none) with
    | .error refusal => .error refusal
    | .ok (p, _) => interpret p rest

/-- Reads the command line. An abbreviation that fits several options is a misuse
    wherever it stands. -/
def Arguments.parse (arguments : List String) : Except Refusal Arguments :=
  let ts := tokens arguments
  if ts.contains .ambiguous then .error .misuse else interpret {} ts

end ApiStubs.Command
