-- SUMMARY: Lines and columns are coordinates of the offsets of a text.
import ApiStubs.Text.Position
import ApiStubs.Text.Split
import Mathlib.Data.List.Induction

/-!
# Positions

The position of an offset comes from two scans of what lies before it, one for the line and
one for the column. Cutting the whole text at its line feeds gives the lines that a reader
sees. A position names one of these lines and a place in it, and `offsetIn` counts the
characters before that place.

Each offset of a text has one position in its lines, and each position in its lines has one
offset. Both go in the same order (`ofOffset_coordinates`).
-/

namespace ApiStubs.Text

-- ---------------------------------------------------------------------------
-- Lines of a text
-- ---------------------------------------------------------------------------

/-- The number of characters of the lines, each with a line feed after it. -/
def extent (lines : List (List Char)) : Nat := lines.foldr (fun line n => line.length + 1 + n) 0

@[simp] theorem extent_nil : extent [] = 0 := rfl

@[simp] theorem extent_cons (line : List Char) (lines : List (List Char)) :
    extent (line :: lines) = line.length + 1 + extent lines := rfl

@[simp] theorem extent_append (lines lines' : List (List Char)) :
    extent (lines ++ lines') = extent lines + extent lines' := by
  induction lines with
  | nil => simp
  | cons line lines ih => simp [ih, Nat.add_assoc]

theorem extent_take_le {m n : Nat} (h : m ≤ n) (lines : List (List Char)) :
    extent (lines.take m) ≤ extent (lines.take n) := by
  obtain ⟨between, hbetween⟩ := List.take_prefix_take_left h (l := lines)
  rw [← hbetween, extent_append]
  exact Nat.le_add_right _ _

namespace Position

variable {p q : Position} {lines : List (List Char)}

-- ---------------------------------------------------------------------------
-- Places in lines
-- ---------------------------------------------------------------------------

/-- The position stands in one of the lines, before one of its characters or at its end. -/
structure Within (lines : List (List Char)) (p : Position) : Prop where
  line_pos : 1 ≤ p.line
  line_le : p.line ≤ lines.length
  column_pos : 1 ≤ p.column
  column_le : p.column ≤ lines[p.line - 1].length + 1

/-- The number of characters before the position. -/
def offsetIn (lines : List (List Char)) (p : Position) : Nat :=
  extent (lines.take (p.line - 1)) + p.column - 1

/-- The first position comes before the second one: in a line before, or in the same line. -/
def Precedes (p q : Position) : Prop := p.line < q.line ∨ p.line = q.line ∧ p.column < q.column

theorem precedes_trichotomy (p q : Position) : p.Precedes q ∨ p = q ∨ q.Precedes p := by
  obtain ⟨line, column⟩ := p
  obtain ⟨line', column'⟩ := q
  simp only [Precedes, mk.injEq]
  omega

theorem Within.offsetIn_lt_extent (h : p.Within lines) :
    p.offsetIn lines < extent (lines.take p.line) := by
  obtain ⟨hline, hle, hcolumn, hcolumnLe⟩ := h
  have htake : lines.take p.line = lines.take (p.line - 1) ++ [lines[p.line - 1]] := by
    rw [List.take_append_getElem, Nat.sub_add_cancel hline]
  rw [htake, extent_append, offsetIn, extent_cons, extent_nil]
  omega

/-- A later position has more characters before it. -/
theorem Precedes.offsetIn_lt (h : p.Precedes q) (hp : p.Within lines) (hq : q.Within lines) :
    p.offsetIn lines < q.offsetIn lines := by
  have hcolumn := hp.column_pos
  have hcolumn' := hq.column_pos
  rcases h with hline | ⟨hline, hlt⟩
  · have hend := hp.offsetIn_lt_extent
    have hlines : extent (lines.take p.line) ≤ extent (lines.take (q.line - 1)) :=
      extent_take_le (by omega) lines
    have hq : q.offsetIn lines = extent (lines.take (q.line - 1)) + q.column - 1 := rfl
    omega
  · rw [offsetIn, offsetIn, hline]
    omega

theorem precedes_of_offsetIn_lt (hp : p.Within lines) (hq : q.Within lines)
    (h : p.offsetIn lines < q.offsetIn lines) : p.Precedes q := by
  rcases precedes_trichotomy p q with hlt | rfl | hgt
  · exact hlt
  · exact absurd h (Nat.lt_irrefl _)
  · exact absurd h (Nat.lt_asymm (hgt.offsetIn_lt hq hp))

theorem eq_of_offsetIn_eq (hp : p.Within lines) (hq : q.Within lines)
    (h : p.offsetIn lines = q.offsetIn lines) : p = q := by
  rcases precedes_trichotomy p q with hlt | heq | hgt
  · exact absurd h (Nat.ne_of_lt (hlt.offsetIn_lt hp hq))
  · exact heq
  · exact absurd h.symm (Nat.ne_of_lt (hgt.offsetIn_lt hq hp))

-- ---------------------------------------------------------------------------
-- The position after a text
-- ---------------------------------------------------------------------------

/-- What the text `s` leaves to any text after it: the `whole` lines that it ends, and the
    line that it begins with `last`. The position after `s` counts both. -/
structure Leaves (s : List Char) (whole : List (List Char)) (last : List Char) : Prop where
  after_eq : after s = ⟨whole.length + 1, last.length + 1⟩
  length_eq : extent whole + last.length = s.length
  splitAt_append : ∀ {rest piece pieces}, splitAt '\n' rest = piece :: pieces →
    splitAt '\n' (s ++ rest) = whole ++ (last ++ piece) :: pieces

namespace Leaves

variable {s last : List Char} {whole : List (List Char)}

theorem nil : Leaves [] [] [] := ⟨rfl, rfl, fun h => h⟩

theorem feed (h : Leaves s whole last) : Leaves (s ++ ['\n']) (whole ++ [last]) [] where
  after_eq := by
    rw [after_concat_feed, h.after_eq, List.length_append]
    rfl
  length_eq := by
    simp [← h.length_eq, Nat.add_assoc]
  splitAt_append := by
    intro rest piece pieces hrest
    have hfeed : splitAt '\n' ('\n' :: rest) = [] :: piece :: pieces := by
      rw [splitAt_cons_self, hrest]
    simpa using h.splitAt_append hfeed

theorem concat {c : Char} (hc : c ≠ '\n') (h : Leaves s whole last) :
    Leaves (s ++ [c]) whole (last ++ [c]) where
  after_eq := by
    rw [after_concat_of_ne hc, h.after_eq, List.length_append]
    rfl
  length_eq := by
    simp [← h.length_eq, Nat.add_assoc]
  splitAt_append := by
    intro rest piece pieces hrest
    simpa using h.splitAt_append (splitAt_cons_of_ne hc hrest)

end Leaves

theorem exists_leaves (s : List Char) : ∃ whole last, Leaves s whole last := by
  -- From the right: a new last character moves the position by one step.
  induction s using List.reverseRecOn with
  | nil => exact ⟨[], [], .nil⟩
  | append_singleton s c ih =>
    obtain ⟨whole, last, h⟩ := ih
    by_cases hc : c = '\n'
    · subst hc
      exact ⟨_, _, h.feed⟩
    · exact ⟨_, _, h.concat hc⟩

theorem extent_splitAt (text : List Char) : extent (splitAt '\n' text) = text.length + 1 := by
  obtain ⟨whole, last, h⟩ := exists_leaves text
  have hlines : splitAt '\n' (text ++ []) = whole ++ [last ++ []] := h.splitAt_append rfl
  rw [List.append_nil, List.append_nil] at hlines
  rw [hlines, extent_append, ← h.length_eq, extent_cons, extent_nil]
  rfl

theorem after_within (s rest : List Char) :
    (after s).Within (splitAt '\n' (s ++ rest)) ∧
      (after s).offsetIn (splitAt '\n' (s ++ rest)) = s.length := by
  obtain ⟨whole, last, h⟩ := exists_leaves s
  obtain ⟨piece, pieces, hrest⟩ := exists_splitAt '\n' rest
  rw [h.splitAt_append hrest, h.after_eq]
  constructor
  · refine ⟨Nat.succ_pos _, ?_, Nat.succ_pos _, ?_⟩
    · simp
    · simp
  · simp [offsetIn, ← h.length_eq, ← Nat.add_assoc]

-- ---------------------------------------------------------------------------
-- The position of an offset
-- ---------------------------------------------------------------------------

theorem ofOffset_within {text : List Char} {n : Nat} (h : n ≤ text.length) :
    (ofOffset text n).Within (splitAt '\n' text) ∧
      (ofOffset text n).offsetIn (splitAt '\n' text) = n := by
  have hafter := after_within (text.take n) (text.drop n)
  rwa [List.take_append_drop, List.length_take, Nat.min_eq_left h] at hafter

theorem Within.offsetIn_le {text : List Char} (h : p.Within (splitAt '\n' text)) :
    p.offsetIn (splitAt '\n' text) ≤ text.length := by
  have hlt := h.offsetIn_lt_extent
  have hle := extent_take_le h.line_le (splitAt '\n' text)
  rw [List.take_length, extent_splitAt] at hle
  omega

theorem ofOffset_of_nonpos (text : List Char) {o : Int} (h : o ≤ 0) :
    ofOffset text o = ofOffset text 0 := by
  rw [ofOffset, ofOffset, Int.toNat_of_nonpos h]
  rfl

theorem ofOffset_of_length_le {text : List Char} {o : Int} (h : text.length ≤ o) :
    ofOffset text o = ofOffset text text.length := by
  rw [ofOffset, ofOffset, Int.toNat_natCast, List.take_length, List.take_of_length_le]
  omega

/-- The offsets of a text and the positions in its lines belong to each other, in order, and
    the number of characters before a position is its offset. An offset outside the text has
    the position of the nearest end. -/
theorem ofOffset_coordinates (text : List Char) :
    let lines := splitAt '\n' text
    (∀ o : Int, 0 ≤ o → o ≤ text.length →
      (ofOffset text o).Within lines ∧ o = (ofOffset text o).offsetIn lines) ∧
    (∀ p : Position, p.Within lines →
      p.offsetIn lines ≤ text.length ∧ ofOffset text (p.offsetIn lines) = p) ∧
    (∀ o o' : Int, 0 ≤ o → o ≤ text.length → 0 ≤ o' → o' ≤ text.length →
      ofOffset text o = ofOffset text o' → o = o') ∧
    (∀ o o' : Int, 0 ≤ o → o < o' → o' ≤ text.length →
      (ofOffset text o).Precedes (ofOffset text o')) ∧
    (∀ o : Int, o < 0 → ofOffset text o = ofOffset text 0) ∧
    (∀ o : Int, text.length < o → ofOffset text o = ofOffset text text.length) := by
  intro lines
  have hcoordinate (o : Int) (hpos : 0 ≤ o) (hle : o ≤ text.length) :
      (ofOffset text o).Within lines ∧ o = (ofOffset text o).offsetIn lines := by
    obtain ⟨n, rfl⟩ := Int.eq_ofNat_of_zero_le hpos
    obtain ⟨hwithin, hoffset⟩ := ofOffset_within (Int.ofNat_le.1 hle)
    exact ⟨hwithin, congrArg Nat.cast hoffset.symm⟩
  refine ⟨hcoordinate, ?_, ?_, ?_, ?_, ?_⟩
  · intro p hp
    obtain ⟨hwithin, hoffset⟩ := ofOffset_within hp.offsetIn_le
    exact ⟨hp.offsetIn_le, eq_of_offsetIn_eq hwithin hp hoffset⟩
  · intro o o' hpos hle hpos' hle' heq
    rw [(hcoordinate o hpos hle).2, (hcoordinate o' hpos' hle').2, heq]
  · intro o o' hpos hlt hle
    obtain ⟨hwithin, hoffset⟩ := hcoordinate o hpos (by omega)
    obtain ⟨hwithin', hoffset'⟩ := hcoordinate o' (by omega) hle
    exact precedes_of_offsetIn_lt hwithin hwithin' (by omega)
  · intro o hneg
    exact ofOffset_of_nonpos text (Int.le_of_lt hneg)
  · intro o hlt
    exact ofOffset_of_length_le (Int.le_of_lt hlt)

/-- Three lines, the second one empty. -/
def threeLines : List Char := ['a', 'b', '\n', '\n', 'c']

/-- The line feed of the first line and the empty line after it. -/
theorem ofOffset_coordinates_threeLines :
    let lines := splitAt '\n' threeLines
    (ofOffset threeLines 2 = ⟨1, 3⟩ ∧ Within lines ⟨1, 3⟩ ∧ offsetIn lines ⟨1, 3⟩ = 2) ∧
    (Within lines ⟨2, 1⟩ ∧ ofOffset threeLines 3 = ⟨2, 1⟩) ∧
    (ofOffset threeLines 2).Precedes (ofOffset threeLines 3) ∧
    ofOffset threeLines (-1) = ⟨1, 1⟩ ∧ ofOffset threeLines 9 = ⟨3, 2⟩ := by
  intro lines
  obtain ⟨hcoordinate, hposition, -, horder, hbefore, hbehind⟩ := ofOffset_coordinates threeLines
  have hempty : Within lines ⟨2, 1⟩ := ⟨by decide, by decide, by decide, by decide⟩
  refine ⟨⟨by decide, ?_, by decide⟩, ⟨hempty, (hposition ⟨2, 1⟩ hempty).2⟩, ?_, ?_, ?_⟩
  · exact (hcoordinate 2 (by decide) (by decide)).1
  · exact horder 2 3 (by decide) (by decide) (by decide)
  · exact hbefore (-1) (by decide)
  · exact hbehind 9 (by decide)

end Position

end ApiStubs.Text
