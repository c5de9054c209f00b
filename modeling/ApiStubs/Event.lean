-- SUMMARY: What generation reports while it runs.
import ApiStubs.Typing.Basic

/-!
# Events

Generation reports what it does with files and endpoints. Each event has a level
and a message. An endpoint is named by a label: its namespace and its name.
-/

namespace ApiStubs

inductive Level where
  | debug
  | info
  | warning
deriving DecidableEq, Repr

def Level.name : Level → String
  | .debug => "DEBUG"
  | .info => "INFO"
  | .warning => "WARNING"

/-- How much a level weighs. -/
def Level.weight : Level → Nat
  | .debug => 0
  | .info => 1
  | .warning => 2

inductive Event where
  | templateSkipped (path : String)
  | templateRead (path : String)
  | overridesMissing (path : String)
  | namespaceAdded (nameSpace : String)
  | endpointRemoved (label : String)
  | endpointReplaced (label : String)
  | endpointAppended (label : String)
  | endpointIgnored (label : String)
  | endpointObsolete (label : String)
  | typeUnsupported (type : UnsupportedType) (label : String)
  | parameterDuplicate (name type label : String)
  | implRequired (function label : String)
  | jsonPathPresent (label : String)
  | generated (endpoints namespaces : Nat)
deriving DecidableEq, Repr

namespace Event

def level : Event → Level
  | .templateSkipped _ => .debug
  | .templateRead _ => .debug
  | .parameterDuplicate .. => .debug
  | .typeUnsupported .. => .warning
  | _ => .info

def message : Event → String
  | .templateSkipped path => s!"Skipping template reserved for hand-written code: {path}"
  | .templateRead path => s!"Parsing template: {path}"
  | .overridesMissing path => s!"No override directory at {path}"
  | .namespaceAdded nameSpace => s!"Adding namespace from overrides: {nameSpace}"
  | .endpointRemoved label => s!"Removing endpoint: {label}"
  | .endpointReplaced label => s!"Replacing endpoint: {label}"
  | .endpointAppended label => s!"Appending endpoint: {label}"
  | .endpointIgnored label => s!"Ignored endpoint: {label}"
  | .endpointObsolete label => s!"Obsolete endpoint: {label}"
  | .typeUnsupported type label => s!"{type.message}: {label}"
  | .parameterDuplicate name type label => s!"Duplicate parameter name {name} ({type}): {label}"
  | .implRequired function label => s!"Requires custom execute function {function}: {label}"
  | .jsonPathPresent label => s!"Has JSON path: {label}"
  | .generated endpoints namespaces => s!"Generated {endpoints} endpoints in {namespaces} namespaces"

end Event

/-- The label of an endpoint. -/
def endpointLabel (nameSpace name : String) : String := s!"{nameSpace}.{name}"

/-! ## Values with a log -/

/-- A value and the events reported on the way to it. -/
@[ext]
structure Logged (α : Type) where
  events : List Event
  value : α
deriving Repr

namespace Logged

/-- Reports one event. -/
def log (e : Event) : Logged Unit := ⟨[e], ()⟩

instance : Monad Logged where
  pure a := ⟨[], a⟩
  bind x f := ⟨x.events ++ (f x.value).events, (f x.value).value⟩

@[simp] theorem events_pure {α : Type} (a : α) : (pure a : Logged α).events = [] := rfl

@[simp] theorem value_pure {α : Type} (a : α) : (pure a : Logged α).value = a := rfl

@[simp] theorem events_bind {α β : Type} (x : Logged α) (f : α → Logged β) :
    (x >>= f).events = x.events ++ (f x.value).events := rfl

@[simp] theorem value_bind {α β : Type} (x : Logged α) (f : α → Logged β) :
    (x >>= f).value = (f x.value).value := rfl

/-- What follows a value matters at that value only. -/
theorem bind_congr_value {α β : Type} {x : Logged α} {f g : α → Logged β}
    (h : f x.value = g x.value) : x >>= f = x >>= g := by
  ext1
  · rw [events_bind, events_bind, h]
  · rw [value_bind, value_bind, h]

@[simp] theorem events_map {α β : Type} (f : α → β) (x : Logged α) :
    (f <$> x).events = x.events := List.append_nil _

@[simp] theorem value_map {α β : Type} (f : α → β) (x : Logged α) :
    (f <$> x).value = f x.value := rfl

@[simp] theorem events_log (e : Event) : (log e).events = [e] := rfl

instance : LawfulMonad Logged :=
  LawfulMonad.mk' Logged (fun x => by cases x; simp [Functor.map])
    (fun a f => by simp [bind, pure]) (fun x f g => by simp [bind])

end Logged

end ApiStubs
