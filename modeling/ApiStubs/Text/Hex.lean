-- SUMMARY: Hexadecimal numerals of a fixed width.

/-!
# Hexadecimal numerals

Escapes write a code point in small hexadecimal digits, padded to a fixed width.
-/

namespace ApiStubs.Text

/-- The last `width` hexadecimal digits of the number, in small letters. -/
def hex (width n : Nat) : List Char :=
  match width with
  | 0 => []
  | w + 1 => hex w (n / 16) ++ [Nat.digitChar (n % 16)]

@[simp] theorem length_hex (width n : Nat) : (hex width n).length = width := by
  induction width generalizing n with
  | zero => rfl
  | succ w ih => simp [hex, ih]

end ApiStubs.Text
