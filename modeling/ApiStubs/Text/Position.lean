-- SUMMARY: Line and column of a place in a text.

/-!
# Positions

A position is a line and a column, both counted from one. Lines end with a line
feed. Columns count characters.
-/

namespace ApiStubs.Text

structure Position where
  line : Nat
  column : Nat
deriving DecidableEq, Repr

namespace Position

/-- The position right after the text `before`. -/
def after (before : List Char) : Position where
  line := before.count '\n' + 1
  column := (before.reverse.takeWhile (· ≠ '\n')).length + 1

/-- The position of the character at an offset. An offset outside the text counts
    as the nearest end of it. -/
def ofOffset (text : List Char) (offset : Int) : Position := after (text.take offset.toNat)

/-- The position as a message writes it. -/
def render (p : Position) : String := s!"{p.line}:{p.column}"

/-! ## One character further on -/

theorem after_concat_feed (s : List Char) :
    after (s ++ ['\n']) = ⟨(after s).line + 1, 1⟩ := by
  simp [after]

theorem after_concat_of_ne {c : Char} (hc : c ≠ '\n') (s : List Char) :
    after (s ++ [c]) = ⟨(after s).line, (after s).column + 1⟩ := by
  simp [after, hc]

end Position

end ApiStubs.Text
