-- SUMMARY: Noise is made of units, and noise and words take turns up to the end of a text.
import ApiStubs.Proofs.Copy.Lexical
import ApiStubs.Proofs.Entries

/-!
# Noise and words

`IsUnit` says what a unit of noise is by the text of the unit and what follows it. Noise begins
exactly where a unit does (`startsNoise_iff`), and all the noise at a place is one unit after
the other, up to a place where no unit begins (`exists_units`).

At each place but the end of a text either noise can be read or a word, and where one of them
ends the other one begins. So both readings in turn cover a text (`alternates_next`).
-/

namespace ApiStubs.Source

open Text

-- ---------------------------------------------------------------------------
-- Units
-- ---------------------------------------------------------------------------

/-- The text ends where its line does, with `rest` behind it. -/
structure EndsLine (body rest : List Char) : Prop where
  inLine : ∀ x ∈ body, isLineEnd x = false
  stops : ∀ x ∈ rest.head?, isLineEnd x = true

/-- A unit of noise with `rest` behind it. -/
inductive IsUnit : List Char → List Char → Prop where
  | space {x : Char} {rest : List Char} (h : isSpace x = true) : IsUnit [x] rest
  | line {body rest : List Char} (h : EndsLine body rest) : IsUnit ('/' :: '/' :: body) rest
  | hash {body rest : List Char} (h : EndsLine body rest)
      (hword : ∀ word ∈ directiveWords, ¬ word.toList <+: body ++ rest) : IsUnit ('#' :: body) rest
  | block {body rest : List Char}
      (hfirst : ∀ i < body.length, ¬ ['*', '/'] <+: (body ++ '*' :: '/' :: rest).drop i) :
      IsUnit ('/' :: '*' :: (body ++ ['*', '/'])) rest

theorem endsLine_lineLength (s : List Char) :
    EndsLine (s.take (lineLength s)) (s.drop (lineLength s)) := by
  have hrun := Cursor.run_line ⟨0, s⟩
  refine ⟨fun x hx => ?_, fun x hx => ?_⟩
  · simpa using hrun.all x (by simpa [Cursor.line, Cursor.take] using hx)
  · simpa using hrun.stops x hx

theorem EndsLine.lineLength_eq {body rest : List Char} (h : EndsLine body rest) :
    lineLength (body ++ rest) = body.length := by
  have hstop : rest.takeWhile (!isLineEnd ·) = [] := by
    cases rest with
    | nil => rfl
    | cons x rest => exact List.takeWhile_cons_of_neg (by simp [h.stops x rfl])
  have hbody : ∀ x ∈ body, (!isLineEnd x) = true := fun x hx => by rw [h.inLine x hx]; rfl
  rw [lineLength, List.takeWhile_append_of_pos hbody, hstop, List.append_nil]

/-- A unit is found at the front of a text, with its length. -/
theorem IsUnit.unit?_eq {unit rest : List Char} (h : IsUnit unit rest) :
    unit? (unit ++ rest) = some unit.length := by
  cases h with
  | space h => simp [unit?, h]
  | @line body _ h =>
    change some (lineLength (body ++ rest) + 2) = _
    rw [h.lineLength_eq]
    rfl
  | @hash body _ h hword =>
    have hnone : directiveWords.any (·.toList.isPrefixOf (body ++ rest)) = false := by
      rw [List.any_eq_false]
      intro word hmem
      rw [List.isPrefixOf_iff_prefix]
      exact hword word hmem
    have hcomment : comment? ('#' :: (body ++ rest)) = some (lineLength (body ++ rest) + 1) :=
      if_neg (by rw [hnone]; simp)
    change comment? ('#' :: (body ++ rest)) = _
    rw [hcomment, h.lineLength_eq]
    rfl
  | @block body _ hfirst =>
    have hfind : find? ['*', '/'] (body ++ '*' :: '/' :: rest) = some body.length := by
      refine find?_eq_some_iff.2 ⟨?_, by simp, hfirst⟩
      rw [List.drop_left]
      exact ⟨rest, rfl⟩
    have htext : '/' :: '*' :: (body ++ ['*', '/']) ++ rest =
        '/' :: '*' :: (body ++ '*' :: '/' :: rest) := by simp
    rw [htext]
    change (find? ['*', '/'] (body ++ '*' :: '/' :: rest)).map (· + 4) = _
    rw [hfind]
    simp

/-- What is found at the front of a text is a unit. -/
theorem isUnit_of_unit? {s : List Char} {n : Nat} (h : unit? s = some n) :
    IsUnit (s.take n) (s.drop n) := by
  unfold unit? at h
  split at h
  · cases h
  split at h
  · next hspace =>
    cases h
    exact .space hspace
  unfold comment? at h
  split at h
  · next cs heq =>
    cases h
    rw [heq]
    exact .line (endsLine_lineLength cs)
  · next cs heq =>
    obtain ⟨k, hk, rfl⟩ := Option.map_eq_some_iff.1 h
    obtain ⟨⟨rest, hrest⟩, hle, hfirst⟩ := find?_eq_some_iff.1 hk
    have hcs : cs = cs.take k ++ '*' :: '/' :: rest := by
      conv => lhs; rw [← List.take_append_drop k cs, ← hrest]
      rfl
    have hlength : (cs.take k).length = k := List.length_take_of_le hle
    generalize cs.take k = body at hcs hlength
    subst hlength
    have htext : '/' :: '*' :: cs = '/' :: '*' :: (body ++ ['*', '/']) ++ rest := by simp [hcs]
    have hn : body.length + 4 = ('/' :: '*' :: (body ++ ['*', '/'])).length := by simp
    rw [heq, htext, hn, List.take_left, List.drop_left]
    exact .block (hcs ▸ hfirst)
  · next cs heq =>
    split at h <;> cases h
    next hwords =>
    rw [heq, List.take_succ_cons, List.drop_succ_cons]
    refine .hash (endsLine_lineLength cs) fun word hmem hprefix => hwords ?_
    rw [List.take_append_drop] at hprefix
    exact List.any_eq_true.2 ⟨word, hmem, List.isPrefixOf_iff_prefix.2 hprefix⟩
  · cases h

theorem startsNoise_iff {s : List Char} :
    startsNoise s = true ↔ ∃ unit rest, s = unit ++ rest ∧ IsUnit unit rest := by
  rw [startsNoise, Option.isSome_iff_exists]
  constructor
  · rintro ⟨n, hn⟩
    exact ⟨s.take n, s.drop n, (List.take_append_drop n s).symm, isUnit_of_unit? hn⟩
  · rintro ⟨unit, rest, rfl, h⟩
    exact ⟨_, h.unit?_eq⟩

/-- Units of noise one after the other, with `rest` behind the last one. -/
inductive Units : List (List Char) → List Char → Prop where
  | nil {rest : List Char} : Units [] rest
  | cons {unit : List Char} {units : List (List Char)} {rest : List Char}
      (h : IsUnit unit (units.flatten ++ rest)) (hs : Units units rest) : Units (unit :: units) rest

/-- All the noise at the front of a text is made of units. -/
theorem exists_units (s : List Char) :
    ∃ units, units.flatten = s.take (noise s) ∧ Units units (s.drop (noise s)) := by
  fun_induction noise s with
  | case1 s h => exact ⟨[], by simp, .nil⟩
  | case2 s n h ih =>
    obtain ⟨units, hflatten, hunits⟩ := ih
    rw [List.drop_drop] at hunits
    refine ⟨s.take n :: units, ?_, .cons ?_ hunits⟩
    · rw [List.flatten_cons, hflatten, ← List.take_add]
    · rw [hflatten, ← List.drop_drop, List.take_append_drop]
      exact isUnit_of_unit? h

-- ---------------------------------------------------------------------------
-- Noise and words in turn
-- ---------------------------------------------------------------------------

/-- What a text is made of. -/
inductive Piece where
  | noise
  | word
deriving DecidableEq, Repr

namespace Piece

def other : Piece → Piece
  | .noise => .word
  | .word => .noise

/-- Reads a piece of this kind, if there is one. -/
def read : Piece → Cursor → Option Cursor
  | .noise => Cursor.noise?
  | .word => Cursor.word?

/-- The kind of piece that comes next. -/
def next (c : Cursor) : Piece := if startsNoise c.rest then .noise else .word

end Piece

/-- Pieces of two kinds in turn lead from one place to another, the first one of the given
    kind. None of them is empty, and where one of them can be read the other kind cannot. -/
inductive Alternates : Piece → Cursor → Cursor → Prop where
  | done {p : Piece} {c : Cursor} : Alternates p c c
  | step {p : Piece} {c d e : Cursor} (hread : p.read c = some d) (hother : p.other.read c = none)
      (hprecedes : c.Precedes d) (h : Alternates p.other d e) : Alternates p c e

theorem noise_pos {s : List Char} (h : startsNoise s = true) : 0 < noise s := by
  obtain ⟨n, hn⟩ := Option.isSome_iff_exists.1 h
  rw [noise_of_unit? hn]
  exact Nat.add_pos_left (unit?_pos hn) _

theorem noise?_eq_none_iff {c : Cursor} : c.noise? = none ↔ startsNoise c.rest = false := by
  unfold Cursor.noise?
  cases hc : startsNoise c.rest with
  | true => simp [Nat.ne_of_gt (noise_pos hc)]
  | false => simp [Cursor.noise_eq_zero hc]

theorem word?_eq_none_iff {c : Cursor} (h : c.rest ≠ []) :
    c.word? = none ↔ startsNoise c.rest = true := by
  obtain ⟨x, xs, hrest⟩ := List.exists_cons_of_ne_nil h
  rw [Cursor.word?, hrest, word]
  cases startsNoise (x :: xs) <;> simp

theorem Piece.read_precedes {p : Piece} {c d : Cursor} (h : p.read c = some d) : c.Precedes d := by
  cases p with
  | noise => exact Cursor.noise?_precedes h
  | word => exact Cursor.word?_precedes h

/-- The next piece can be read, a piece of the other kind cannot, and it comes after it. -/
theorem exists_read_next {c : Cursor} (h : c.rest ≠ []) :
    ∃ d, (Piece.next c).read c = some d ∧ (Piece.next c).other.read c = none ∧
      (d.rest ≠ [] → Piece.next d = (Piece.next c).other) := by
  unfold Piece.next
  cases hc : startsNoise c.rest with
  | true =>
    have hnoise : c.noise? ≠ none := by simp [noise?_eq_none_iff, hc]
    obtain ⟨d, hd⟩ := Option.ne_none_iff_exists'.1 hnoise
    have hquiet : startsNoise d.rest = false := skipNoise_of_noise? hd ▸ startsNoise_skipNoise c
    exact ⟨d, hd, (word?_eq_none_iff h).2 hc, fun _ => by simp [hquiet, Piece.other]⟩
  | false =>
    have hword : c.word? ≠ none := by simp [word?_eq_none_iff h, hc]
    obtain ⟨d, hd⟩ := Option.ne_none_iff_exists'.1 hword
    refine ⟨d, hd, noise?_eq_none_iff.2 hc, fun hrest => ?_⟩
    unfold Cursor.word? at hd
    split at hd <;> cases hd
    have hnoise : startsNoise (c.rest.drop (word c.rest)) = true :=
      startsNoise_drop_word (Nat.lt_of_not_le fun hle => hrest (List.drop_eq_nil_of_le hle))
    simp [hnoise, Piece.other]

/-- Noise and words in turn lead from any place to the end of the text. -/
theorem alternates_next (c : Cursor) : Alternates (Piece.next c) c (c.drop c.rest.length) := by
  -- Each piece leaves less of the text, so the induction is on how much is left.
  induction hlength : c.rest.length using Nat.strongRecOn generalizing c with
  | ind n ih =>
    subst hlength
    by_cases hc : c.rest = []
    · rw [hc]
      exact .done
    obtain ⟨d, hread, hother, hnext⟩ := exists_read_next hc
    have hprecedes := Piece.read_precedes hread
    have hend : d.drop d.rest.length = c.drop c.rest.length := by
      obtain ⟨n, -, hn, rfl⟩ := hprecedes
      rw [Cursor.drop_drop, Cursor.rest_drop, List.length_drop, Nat.add_sub_cancel' hn]
    refine .step hread hother hprecedes ?_
    rw [← hend]
    by_cases hd : d.rest = []
    · rw [hd]
      exact .done
    · rw [← hnext hd]
      exact ih _ hprecedes.length_lt d rfl

/-- Skipping noise leads from a place of a text to a place of it where no noise begins, over one
    unit of noise after the other. At each place but the end noise begins exactly if noise can
    be read and exactly if no word can be read, and both readings in turn lead to the end. -/
theorem noise_and_words_tile (text : List Char) (pos : Nat) (hpos : pos ≤ text.length) :
    let c := Cursor.ofOffset text pos
    let stop := c.skipNoise.offset
    (pos ≤ stop ∧ stop ≤ text.length ∧ c.skipNoise = .ofOffset text stop ∧
      startsNoise (text.drop stop) = false ∧ c.skipNoise.skipNoise = c.skipNoise ∧
      ∃ units, units.flatten = (text.drop pos).take (stop - pos) ∧ Units units (text.drop stop)) ∧
    (startsNoise c.rest = true ↔ ∃ unit rest, text.drop pos = unit ++ rest ∧ IsUnit unit rest) ∧
    (pos < text.length →
      (startsNoise c.rest = true ↔ c.noise? ≠ none) ∧
      (startsNoise c.rest = true ↔ c.word? = none) ∧
      Alternates (Piece.next c) c (.ofOffset text text.length)) := by
  intro c stop
  have hrest : c.rest = text.drop pos := rfl
  have hstop : stop = pos + noise (text.drop pos) := rfl
  have hle := noise_le_length (text.drop pos)
  rw [List.length_drop] at hle
  have hskip : c.skipNoise = .ofOffset text stop := by
    rw [Cursor.skipNoise, hrest, Cursor.ofOffset, Cursor.drop, hrest, List.drop_drop, hstop]
    rfl
  have hquiet : startsNoise (text.drop stop) = false := by
    have := startsNoise_skipNoise c
    rwa [hskip] at this
  refine ⟨⟨by omega, by omega, hskip, hquiet, ?_, ?_⟩, startsNoise_iff, fun hlt => ⟨?_, ?_, ?_⟩⟩
  · exact Cursor.skipNoise_eq_self (startsNoise_skipNoise c)
  · obtain ⟨units, hflatten, hunits⟩ := exists_units (text.drop pos)
    rw [List.drop_drop, ← hstop] at hunits
    refine ⟨units, ?_, hunits⟩
    rw [hflatten, hstop, Nat.add_sub_cancel_left]
  · rw [ne_eq, noise?_eq_none_iff, Bool.not_eq_false]
  · have hne : c.rest ≠ [] := by
      rw [hrest, ne_eq, List.drop_eq_nil_iff]
      omega
    exact (word?_eq_none_iff hne).symm
  · have hend : c.drop c.rest.length = .ofOffset text text.length := by
      change Cursor.mk (pos + (text.drop pos).length) ((text.drop pos).drop _) = ⟨_, _⟩
      rw [List.drop_drop, hrest, List.length_drop, Nat.add_sub_cancel' hpos]
    rw [← hend]
    exact alternates_next c

/-- Every kind of unit, a directive and a comment that is not closed. -/
def mixedText : List Char := "\t//a\n#b\r/*/ */x#raw y/*".toList

theorem noise_and_words_tile_mixed :
    let c := Cursor.ofOffset mixedText 0
    0 < mixedText.length ∧ c.skipNoise.offset = 14 ∧
    (∃ units, units.flatten = "\t//a\n#b\r/*/ */".toList ∧ Units units "x#raw y/*".toList) ∧
    c.noise? ≠ none ∧ c.word? = none ∧ Alternates .noise c (.ofOffset mixedText 23) := by
  intro c
  have hlt : 0 < mixedText.length := by decide
  have hstop : c.skipNoise.offset = 14 := by decide +kernel
  have hnoise : startsNoise c.rest = true := by decide +kernel
  obtain ⟨⟨-, -, -, -, -, hunits⟩, -, hturns⟩ := noise_and_words_tile mixedText 0 (Nat.zero_le _)
  obtain ⟨hread, hword, halternates⟩ := hturns hlt
  have hnext : Piece.next c = .noise := if_pos hnoise
  have hskipped : (mixedText.drop 0).take (14 - 0) = "\t//a\n#b\r/*/ */".toList := by
    decide +kernel
  have hleft : mixedText.drop 14 = "x#raw y/*".toList := by decide +kernel
  rw [hstop, hskipped, hleft] at hunits
  exact ⟨hlt, hstop, hunits, hread.1 hnoise, hword.1 hnoise, hnext ▸ halternates⟩

end ApiStubs.Source
