-- SUMMARY: White space and comments between the words of a template.
import ApiStubs.Text.Cursor

/-!
# Noise

Noise is what a template may hold between its words. It comes in units:

* one white space character of ASCII;
* `//` and all that follows on the line;
* `#` and all that follows on the line, unless a directive word comes right
  after the `#`;
* `/*` up to the next `*/`. Without a `*/` this is no comment.

`unit?` is the length of the unit at the front of a text and `noise` the length
of all units there. `word` is the length of what comes before the next noise.
-/

namespace ApiStubs.Source

open Text

/-- The white space of the lexical layer. -/
def isSpace (c : Char) : Bool :=
  c == ' ' || c == '\t' || c == '\r' || c == '\n' || c == '\x0c' || c == '\x0b'

def isLineEnd (c : Char) : Bool := c == '\r' || c == '\n'

/-- The white space inside a line. -/
def isInlineSpace (c : Char) : Bool := c == ' ' || c == '\t'

/-- The words that make a `#` line a directive and not a comment. -/
def directiveWords : List String := ["namespace", "description", "raw", "endraw"]

/-- The number of characters before the end of the line. -/
def lineLength (s : List Char) : Nat := (s.takeWhile (!isLineEnd ·)).length

/-- The length of the comment at the front. -/
def comment? : List Char → Option Nat
  | '/' :: '/' :: cs => some (lineLength cs + 2)
  | '/' :: '*' :: cs => (find? ['*', '/'] cs).map (· + 4)
  | '#' :: cs =>
    if directiveWords.any (·.toList.isPrefixOf cs) then none else some (lineLength cs + 1)
  | _ => none

/-- The length of the unit of noise at the front. -/
def unit? : List Char → Option Nat
  | [] => none
  | c :: cs => if isSpace c then some 1 else comment? (c :: cs)

/-- Whether noise begins here. -/
def startsNoise (s : List Char) : Bool := (unit? s).isSome

theorem comment?_pos {s : List Char} {n : Nat} (h : comment? s = some n) : 0 < n := by
  unfold comment? at h
  split at h
  · cases h; omega
  · obtain ⟨k, _, rfl⟩ := Option.map_eq_some_iff.1 h; omega
  · split at h <;> cases h; omega
  · cases h

theorem unit?_pos {s : List Char} {n : Nat} (h : unit? s = some n) : 0 < n := by
  unfold unit? at h
  split at h
  · cases h
  · split at h
    · cases h; omega
    · exact comment?_pos h

theorem lineLength_le_length (s : List Char) : lineLength s ≤ s.length :=
  (List.takeWhile_sublist _).length_le

theorem comment?_le_length {s : List Char} {n : Nat} (h : comment? s = some n) :
    n ≤ s.length := by
  unfold comment? at h
  split at h
  · next cs =>
    cases h
    simpa using lineLength_le_length cs
  · obtain ⟨k, hk, rfl⟩ := Option.map_eq_some_iff.1 h
    simpa using length_le_of_find? hk
  · next cs =>
    split at h <;> cases h
    simpa using lineLength_le_length cs
  · cases h

theorem unit?_le_length {s : List Char} {n : Nat} (h : unit? s = some n) : n ≤ s.length := by
  unfold unit? at h
  split at h
  · cases h
  · split at h
    · cases h; simp
    · exact comment?_le_length h

/-- The length of all noise at the front. -/
def noise (s : List Char) : Nat :=
  match _h : unit? s with
  | none => 0
  | some n => n + noise (s.drop n)
termination_by s.length
decreasing_by
  have hpos := unit?_pos _h
  have hle := unit?_le_length _h
  simp only [List.length_drop]
  omega

theorem noise_le_length (s : List Char) : noise s ≤ s.length := by
  fun_induction noise s with
  | case1 => omega
  | case2 s n h ih =>
    have := unit?_le_length h
    simp only [List.length_drop] at ih
    omega

/-- The length of what comes before the next noise. -/
def word : List Char → Nat
  | [] => 0
  | c :: cs => if startsNoise (c :: cs) then 0 else word cs + 1

theorem word_le_length (s : List Char) : word s ≤ s.length := by
  induction s with
  | nil => simp [word]
  | cons c cs ih =>
    simp only [word, List.length_cons]
    split <;> omega

end ApiStubs.Source

namespace ApiStubs.Text.Cursor

open Source

/-- The place after all noise. -/
def skipNoise (c : Cursor) : Cursor := c.drop (noise c.rest)

/-- The place after the noise, if there is any. -/
def noise? (c : Cursor) : Option Cursor :=
  if noise c.rest = 0 then none else some c.skipNoise

/-- The place after the spaces and tabs. -/
def skipInlineSpace (c : Cursor) : Cursor := c.drop (c.count isInlineSpace)

/-- The place at the end of the line. -/
def lineEnd (c : Cursor) : Cursor := c.drop (lineLength c.rest)

/-- What is left of the line. -/
def line (c : Cursor) : String := c.take (lineLength c.rest)

/-- The place after the next word, if a word comes next. -/
def word? (c : Cursor) : Option Cursor :=
  if word c.rest = 0 then none else some (c.drop (word c.rest))

theorem skipNoise_reaches (c : Cursor) : c.Reaches c.skipNoise :=
  reaches_drop (noise_le_length c.rest)

theorem noise?_precedes {c d : Cursor} (h : c.noise? = some d) : c.Precedes d := by
  unfold noise? at h
  split at h <;> cases h
  exact precedes_drop (by omega) (noise_le_length c.rest)

theorem skipInlineSpace_reaches (c : Cursor) : c.Reaches c.skipInlineSpace :=
  reaches_drop (c.count_le_length isInlineSpace)

theorem lineEnd_reaches (c : Cursor) : c.Reaches c.lineEnd :=
  reaches_drop (lineLength_le_length c.rest)

theorem word?_precedes {c d : Cursor} (h : c.word? = some d) : c.Precedes d := by
  unfold word? at h
  split at h <;> cases h
  exact precedes_drop (by omega) (word_le_length c.rest)

end ApiStubs.Text.Cursor
