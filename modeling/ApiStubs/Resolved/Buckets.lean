-- SUMMARY: Required and optional parameters of an endpoint.
import ApiStubs.Event
import ApiStubs.Naming.Identifier
import ApiStubs.Source.Basic

/-!
# Required and optional parameters

The parameters of an endpoint are sorted into required and optional ones, line by
line. Guarded lines do not count. Two parameters with the same identifier cannot
both be kept: the first one is.

The `either` lines of one group are a choice. A group of a single parameter is no
choice, so that parameter is required, unless the group also has a line without
parameters: then the group is open, and leaving the parameter out is a choice.
All other groups are optional.
-/

namespace ApiStubs

/-- The parameters of one choice. An open group may be left out. -/
structure EitherGroup where
  index : Nat
  members : List TypedName := []
  isOpen : Bool := false
deriving DecidableEq, Repr

/-- Parameters sorted so far. Groups stand in the order of their first line, and
    `kept` holds every parameter in order of declaration. -/
structure Buckets where
  required : List TypedName := []
  optional : List TypedName := []
  groups : List EitherGroup := []
  kept : List TypedName := []
deriving DecidableEq, Repr

namespace EitherGroup

/-- Changes the group of an index, which is new if there is none yet. -/
def update (index : Nat) (f : EitherGroup → EitherGroup) : List EitherGroup → List EitherGroup
  | [] => [f ⟨index, [], false⟩]
  | g :: gs => if g.index = index then f g :: gs else g :: update index f gs

def add (p : TypedName) (g : EitherGroup) : EitherGroup := { g with members := g.members ++ [p] }

def setOpen (g : EitherGroup) : EitherGroup := { g with isOpen := true }

/-- Whether the group leaves no choice. -/
def isForced (g : EitherGroup) : Bool := g.members.length == 1 && !g.isOpen

end EitherGroup

namespace Buckets

/-- Puts a parameter where its kind and group say. -/
def add (b : Buckets) (kind : ParamKind) (group : Nat) (p : TypedName) : Buckets :=
  let b := { b with kept := b.kept ++ [p] }
  match kind with
  | .required => { b with required := b.required ++ [p] }
  | .optional => { b with optional := b.optional ++ [p] }
  | .either => { b with groups := EitherGroup.update group (·.add p) b.groups }

/-- Whether a parameter that is kept has this identifier. -/
def takes (b : Buckets) (attr : String) : Bool :=
  b.kept.any fun p => Naming.identifier p.name == attr

/-- Keeps a parameter, unless its identifier is in use. A parameter that repeats
    the type and the name of a kept one is passed over in silence. -/
def keep (label : String) (kind : ParamKind) (group : Nat) (b : Buckets) (p : TypedName) :
    Logged Buckets :=
  if b.kept.contains p then return b
  else if b.takes (Naming.identifier p.name) then do
    Logged.log (.parameterDuplicate p.name p.type label)
    return b
  else return b.add kind group p

/-- The groups after an `either` line is met, before its parameters are. -/
def meetGroup (b : Buckets) (param : Param) : Buckets :=
  if param.kind = .either then
    let mark := if param.pairs.isEmpty then EitherGroup.setOpen else id
    { b with groups := EitherGroup.update param.group mark b.groups }
  else b

/-- Sorts the parameters of one line. -/
def addLine (label : String) (b : Buckets) (param : Param) : Logged Buckets :=
  if param.guard.isSome then return b
  else param.pairs.foldlM (keep label param.kind param.group) (b.meetGroup param)

/-- Sorts the parameters of all lines. -/
def ofParams (label : String) (params : List Param) : Logged Buckets :=
  params.foldlM (addLine label) {}

/-- The parameters that have to be given. -/
def allRequired (b : Buckets) : List TypedName :=
  b.required ++ (b.groups.filter (·.isForced)).flatMap (·.members)

/-- The parameters that may be given. -/
def allOptional (b : Buckets) : List TypedName :=
  (b.groups.filter (!·.isForced)).flatMap (·.members) ++ b.optional

end Buckets

end ApiStubs
