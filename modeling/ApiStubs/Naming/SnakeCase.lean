-- SUMMARY: Words of a name, divided by underscores and in small letters.
import ApiStubs.Text.DecimalDigit
import ApiStubs.Text.Lowercase

/-!
# Snake case

A name in camel case is divided in two passes. The first one divides a run of
capitals before its last capital if a small letter follows, because that capital
begins the next word. The second one divides a capital from a small letter or
digit before it. The whole name is then put into small letters.

Capitals and small letters are those of ASCII, digits those of every script.
-/

namespace ApiStubs.Naming

open Text

/-- A run of capitals, divided before the last one. -/
def divideRun : List Char → List Char
  | [] => []
  | [c] => [c]
  | [c, d] => [c, '_', d]
  | c :: d :: cs => c :: divideRun (d :: cs)

/-- Divides every run of capitals with a small letter after it. -/
def divideRuns (s : List Char) : List Char :=
  match s with
  | [] => []
  | c :: cs =>
    if c.isUpper then
      let run := c :: cs.takeWhile Char.isUpper
      let rest := cs.dropWhile Char.isUpper
      (if rest.head?.any Char.isLower then divideRun run else run) ++ divideRuns rest
    else c :: divideRuns cs
termination_by s.length
decreasing_by
  · have := (List.dropWhile_sublist (l := cs) Char.isUpper).length_le
    simp only [List.length_cons]
    omega
  · simp

/-- Whether a capital after this character begins a word. -/
def endsWord (c : Char) : Bool := c.isLower || isDecimalDigit c

/-- Divides every capital from a small letter or digit before it. -/
def divideWords : List Char → List Char
  | [] => []
  | [c] => [c]
  | c :: d :: cs =>
    if endsWord c && d.isUpper then c :: '_' :: divideWords (d :: cs)
    else c :: divideWords (d :: cs)

def snakeCaseChars (s : List Char) : List Char := lowercase (divideWords (divideRuns s))

def snakeCase (s : String) : String := .ofList (snakeCaseChars s.toList)

end ApiStubs.Naming
