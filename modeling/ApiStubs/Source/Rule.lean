-- SUMMARY: Grammar rules as functions on places, and the loop that reads the entries of a block.
import ApiStubs.Source.Fault
import ApiStubs.Source.Noise

/-!
# Rules

A rule looks at a place of the text. It answers with a value and the place after
it, it does not apply, or it fails. A rule fails only when it has read enough to
know that no other rule can apply.

`Rule.Advances` says that a rule never answers without reading. The loops need
it, because it is why they end.
-/

namespace ApiStubs.Source

open Text

abbrev Rule (α : Type) := Cursor → Except Fault (Option (α × Cursor))

namespace Rule

variable {α β : Type}

/-- The rule of a reading that cannot fail. -/
def ofOption (read : Cursor → Option (α × Cursor)) : Rule α := fun c => .ok (read c)

/-- Every value stands for at least one character. -/
def Advances (r : Rule α) : Prop := ∀ ⦃c v d⦄, r c = .ok (some (v, d)) → c.Precedes d

/-- The first of the two rules that applies. -/
def orElse (r s : Rule α) : Rule α := fun c =>
  match r c with
  | .ok none => s c
  | result => result

/-- The rule with `f` applied to every value. -/
def map (f : α → β) (r : Rule α) : Rule β := fun c =>
  match r c with
  | .ok (some (v, d)) => .ok (some (f v, d))
  | .ok none => .ok none
  | .error fault => .error fault

/-- The rule with the place where each value begins. -/
def located (r : Rule α) : Rule (Located α) := fun c =>
  match r c with
  | .ok (some (v, d)) => .ok (some (⟨c.offset, v⟩, d))
  | .ok none => .ok none
  | .error fault => .error fault

theorem Advances.orElse {r s : Rule α} (hr : r.Advances) (hs : s.Advances) :
    (r.orElse s).Advances := by
  intro c v d h
  unfold Rule.orElse at h
  split at h
  · exact hs h
  · exact hr h

theorem Advances.map {r : Rule α} (hr : r.Advances) (f : α → β) : (r.map f).Advances := by
  intro c v d h
  unfold Rule.map at h
  split at h <;> cases h
  next h => exact hr h

theorem Advances.located {r : Rule α} (hr : r.Advances) : r.located.Advances := by
  intro c v d h
  unfold Rule.located at h
  split at h <;> cases h
  next h => exact hr h

end Rule

theorem map_eq_ok_iff {ε α β : Type} {x : Except ε α} {f : α → β} {b : β} :
    x.map f = .ok b ↔ ∃ a, x = .ok a ∧ f a = b := by
  cases x <;> simp [Except.map]

theorem eq_ok_of_toOption {ε α : Type} {x : Except ε α} {a : α} (h : x.toOption = some a) :
    x = .ok a := by
  cases x with
  | ok b => exact congrArg Except.ok (Option.some.inj h)
  | error e => cases h

/-- The beginning of the line at a place, as a message shows it. -/
def snippet (c : Cursor) : String := c.take (min (lineLength c.rest) 20)

/-- Reads values up to a closing brace, with noise after each. `unclosed` is the
    fault of a text that ends before the brace, and `stray` that of a place where
    no value begins. -/
def collect {α : Type} (rule : Rule α) (advances : rule.Advances) (unclosed : Fault)
    (stray : Cursor → Fault) (c : Cursor) : Except Fault (List α × Cursor) :=
  if c.atEnd then .error unclosed
  else match c.eat? "\x7d" with
    | some d => .ok ([], d)
    | none =>
      match _h : rule c with
      | .error fault => .error fault
      | .ok none => .error (stray c)
      | .ok (some (v, d)) =>
        match collect rule advances unclosed stray d.skipNoise with
        | .ok (vs, e) => .ok (v :: vs, e)
        | .error fault => .error fault
termination_by c.rest.length
decreasing_by exact ((advances _h).trans_reaches d.skipNoise_reaches).length_lt

theorem collect_precedes {α : Type} {rule : Rule α} {advances : rule.Advances} {unclosed : Fault}
    {stray : Cursor → Fault} {c d : Cursor} {vs : List α}
    (h : collect rule advances unclosed stray c = .ok (vs, d)) : c.Precedes d := by
  fun_induction collect rule advances unclosed stray c generalizing vs d with
  | case2 c _ e he =>
    cases h
    exact Cursor.eat?_precedes (by decide) he
  | case5 c _ _ v e hr ws f hf ih =>
    cases h
    exact (advances hr).trans_reaches (e.skipNoise_reaches.trans (ih hf).reaches)
  | _ => cases h

end ApiStubs.Source
