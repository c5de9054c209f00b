-- SUMMARY: Blank characters of every script, and text without the blanks around it.
import ApiStubs.Text.CharRange

/-!
# Blank characters

`isBlank` holds of the white space of every script and of the four information
separators U+001C to U+001F. `trim` removes the blanks at both ends of a text.
The lexical layer of templates has a narrower notion of space of its own.
-/

namespace ApiStubs.Text

/-- The blank characters. -/
def blankRanges : List CharRange :=
  [(0x09, 0x0D), (0x1C, 0x20), (0x85, 0x85), (0xA0, 0xA0), (0x1680, 0x1680), (0x2000, 0x200A),
   (0x2028, 0x2029), (0x202F, 0x202F), (0x205F, 0x205F), (0x3000, 0x3000)]

def isBlank (c : Char) : Bool := CharRange.covers blankRanges c.toNat

/-- The white space of ASCII is blank. -/
theorem isBlank_of_isWhitespace {c : Char} (h : c.isWhitespace = true) : isBlank c = true := by
  simp only [Char.isWhitespace, Bool.or_eq_true, decide_eq_true_eq] at h
  rcases h with ((rfl | rfl) | rfl) | rfl <;> decide

def trimLeft (s : List Char) : List Char := s.dropWhile isBlank

def trimRight (s : List Char) : List Char := (s.reverse.dropWhile isBlank).reverse

def trim (s : List Char) : List Char := trimRight (trimLeft s)

/-- The text without the blanks at its ends. -/
def trimmed (s : String) : String := .ofList (trim s.toList)

@[simp] theorem trimRight_nil : trimRight [] = [] := rfl

@[simp] theorem trim_nil : trim [] = [] := rfl

theorem trimRight_concat (s : List Char) (c : Char) :
    trimRight (s ++ [c]) = if isBlank c then trimRight s else s ++ [c] := by
  unfold trimRight
  rw [List.reverse_concat, List.dropWhile_cons]
  split
  · rfl
  · simp

theorem trimRight_subset (s : List Char) : trimRight s ⊆ s := by
  intro c hc
  exact List.mem_reverse.1 ((List.dropWhile_sublist _).subset (List.mem_reverse.1 hc))

theorem trim_subset (s : List Char) : trim s ⊆ s := by
  intro c hc
  exact (List.dropWhile_sublist _).subset (trimRight_subset _ hc)

@[simp] theorem toList_trimmed (s : String) : (trimmed s).toList = trim s.toList := by
  simp [trimmed]

end ApiStubs.Text
