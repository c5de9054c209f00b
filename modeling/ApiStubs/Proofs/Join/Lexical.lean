-- SUMMARY: Two texts with a line feed between them, and the lexical readings of the first one.
import ApiStubs.Proofs.Copy.Lexical

/-!
# Joined texts

A line feed between two texts ends what the first one says: no word, line or URL of
it goes on behind the line feed, and a search that finds something in the first text
finds it there. A comment ends there too, as long as the second text does not close a
comment that the first one leaves open.

Noise is the exception. Where only noise follows in the first text, the noise goes on
in the second, so that readings behind it find what they do not find in the first text
alone. The lemmas about noise ask for something that follows it.
-/

namespace ApiStubs

open Source

namespace Text

-- ---------------------------------------------------------------------------
-- Readings that a line feed ends
-- ---------------------------------------------------------------------------

section Feed

variable {w s t : List Char} {p : Char → Bool}

theorem isPrefixOf_append_feed (hw : '\n' ∉ w) :
    w.isPrefixOf (s ++ '\n' :: t) = w.isPrefixOf s := by
  induction w generalizing s with
  | nil => simp
  | cons a w ih =>
    obtain ⟨ha, hw⟩ := not_or.1 (mt List.mem_cons.2 hw)
    cases s with
    | nil => simp [List.isPrefixOf_cons_cons, beq_false_of_ne (Ne.symm ha)]
    | cons c cs => rw [List.cons_append, List.isPrefixOf_cons_cons, List.isPrefixOf_cons_cons, ih hw]

theorem takeWhile_append_feed (hp : p '\n' = false) :
    (s ++ '\n' :: t).takeWhile p = s.takeWhile p := by
  induction s with
  | nil => simp [hp]
  | cons c cs ih => rw [List.cons_append, List.takeWhile_cons, List.takeWhile_cons, ih]

/-- A word is found in the first text, if it is there, and else in the second. -/
theorem find?_append_feed (hw : '\n' ∉ w) (hne : w ≠ []) :
    find? w (s ++ '\n' :: t) = (find? w s).or ((find? w t).map (· + (s.length + 1))) := by
  induction s with
  | nil =>
    obtain ⟨a, w, rfl⟩ := List.exists_cons_of_ne_nil hne
    obtain ⟨ha, -⟩ := not_or.1 (mt List.mem_cons.2 hw)
    have hfirst : (a :: w).isPrefixOf ('\n' :: t) = false := by
      rw [List.isPrefixOf_cons_cons, beq_false_of_ne (Ne.symm ha), Bool.false_and]
    have hnone : find? (a :: w) [] = none := rfl
    rw [List.nil_append, hnone, find?, hfirst]
    rfl
  | cons c cs ih =>
    have hcons := isPrefixOf_append_feed (s := c :: cs) (t := t) hw
    rw [List.cons_append] at hcons ⊢
    rw [find?, find?, hcons, ih]
    split
    · rfl
    · cases find? w cs with
      | some n => rfl
      | none =>
        simp only [Option.none_or, Option.map_map, Option.map_none, List.length_cons]
        rfl

end Feed

end Text

theorem Source.lineLength_append_feed (s t : List Char) :
    lineLength (s ++ '\n' :: t) = lineLength s :=
  congrArg List.length (Text.takeWhile_append_feed rfl)

namespace Text

/-- Two texts, of which the second one closes no comment of the first. -/
structure Join where
  before : List Char
  after : List Char
  closed : ¬ "/*".toList <:+: before ∨ ¬ "*/".toList <:+: after

namespace Join

/-- The two texts with a line feed between them. -/
def text (j : Join) : List Char := j.before ++ '\n' :: j.after

/-- A place of the first text as a place of the joined text. -/
def extend (j : Join) (c : Cursor) : Cursor := ⟨c.offset, c.rest ++ '\n' :: j.after⟩

variable {j : Join} {c d : Cursor} {s : List Char} {n : Nat} {p : Char → Bool}

@[simp] theorem rest_extend (j : Join) (c : Cursor) :
    (j.extend c).rest = c.rest ++ '\n' :: j.after := rfl

@[simp] theorem offset_extend (j : Join) (c : Cursor) : (j.extend c).offset = c.offset := rfl

theorem drop_extend (h : n ≤ c.rest.length) : (j.extend c).drop n = j.extend (c.drop n) := by
  simp [Cursor.drop, extend, List.drop_append_of_le_length h]

theorem take_extend (h : n ≤ c.rest.length) : (j.extend c).take n = c.take n := by
  rw [Cursor.take, Cursor.take, rest_extend, List.take_append_of_le_length h]

/-! ## Words and runs -/

theorem eat?_extend {w : String} (hw : '\n' ∉ w.toList) :
    (j.extend c).eat? w = (c.eat? w).map j.extend := by
  unfold Cursor.eat? Cursor.startsWith
  rw [rest_extend, isPrefixOf_append_feed hw]
  split
  · next h =>
    have hle := (List.isPrefixOf_iff_prefix.1 h).length_le
    rw [String.length_toList] at hle
    rw [Option.map_some, drop_extend hle]
  · rfl

theorem count_extend (hp : p '\n' = false) : (j.extend c).count p = c.count p :=
  congrArg List.length (takeWhile_append_feed hp)

theorem take_count_extend (hp : p '\n' = false) :
    (j.extend c).take ((j.extend c).count p) = c.take (c.count p) := by
  rw [count_extend hp, take_extend (c.count_le_length p)]

theorem drop_count_extend (hp : p '\n' = false) :
    (j.extend c).drop ((j.extend c).count p) = j.extend (c.drop (c.count p)) := by
  rw [count_extend hp, drop_extend (c.count_le_length p)]

theorem line_extend : (j.extend c).line = c.line :=
  take_count_extend (p := (!isLineEnd ·)) rfl

theorem lineEnd_extend : (j.extend c).lineEnd = j.extend c.lineEnd :=
  drop_count_extend (p := (!isLineEnd ·)) rfl

theorem skipInlineSpace_extend : (j.extend c).skipInlineSpace = j.extend c.skipInlineSpace :=
  drop_count_extend rfl

/-! ## Noise -/

theorem comment?_extend (hs : s <:+ j.before) : comment? (s ++ '\n' :: j.after) = comment? s := by
  rw [comment?_eq, comment?_eq, isPrefixOf_append_feed (by decide),
    isPrefixOf_append_feed (by decide), isPrefixOf_append_feed (by decide)]
  split
  · next h =>
    obtain ⟨t, rfl⟩ := List.isPrefixOf_iff_prefix.1 h
    have hdrop : (['/', '/'] ++ t ++ '\n' :: j.after).drop 2 = t ++ '\n' :: j.after := rfl
    rw [hdrop, lineLength_append_feed]
    rfl
  · split
    · next h =>
      replace h := List.isPrefixOf_iff_prefix.1 h
      obtain ⟨t, rfl⟩ := id h
      have hdrop : (['/', '*'] ++ t ++ '\n' :: j.after).drop 2 = t ++ '\n' :: j.after := rfl
      rw [hdrop, find?_append_feed (by decide) (by decide)]
      rcases j.closed with hopen | hclose
      · exact absurd (h.isInfix.trans hs.isInfix) hopen
      · have hnone : find? ['*', '/'] j.after = none := (find?_eq_none_iff (by decide)).2 hclose
        rw [hnone, Option.map_none, Option.or_none]
        rfl
    · split
      · next h =>
        obtain ⟨t, rfl⟩ := List.isPrefixOf_iff_prefix.1 h
        have hdrop : (['#'] ++ t ++ '\n' :: j.after).drop 1 = t ++ '\n' :: j.after := rfl
        have hdirective : (directiveWords.any fun d => d.toList.isPrefixOf (t ++ '\n' :: j.after)) =
            directiveWords.any fun d => d.toList.isPrefixOf t := by
          simp only [directiveWords, List.any_cons, List.any_nil]
          rw [isPrefixOf_append_feed (by decide), isPrefixOf_append_feed (by decide),
            isPrefixOf_append_feed (by decide), isPrefixOf_append_feed (by decide)]
        rw [hdrop, lineLength_append_feed, hdirective]
        rfl
      · rfl

theorem unit?_extend (hs : s <:+ j.before) (hne : s ≠ []) :
    unit? (s ++ '\n' :: j.after) = unit? s := by
  obtain ⟨c, cs, rfl⟩ := List.exists_cons_of_ne_nil hne
  have hcomment := comment?_extend hs
  rw [List.cons_append] at hcomment ⊢
  rw [unit?, unit?, hcomment]

/-- The noise goes on behind the noise of the first text. -/
theorem noise_append (hs : s <:+ j.before) :
    noise (s ++ '\n' :: j.after) = noise s + noise (s.drop (noise s) ++ '\n' :: j.after) := by
  fun_induction noise s with
  | case1 s h => simp
  | case2 s n h ih =>
    have hne : s ≠ [] := by
      rintro rfl
      cases h
    have hunit := unit?_extend hs hne
    rw [h] at hunit
    rw [noise_of_unit? hunit, List.drop_append_of_le_length (unit?_le_length h),
      ih ((List.drop_suffix n s).trans hs), List.drop_drop, Nat.add_assoc]

theorem startsNoise_extend (hc : c.In j.before) (hne : c.rest ≠ []) :
    startsNoise (j.extend c).rest = startsNoise c.rest := by
  rw [startsNoise, rest_extend, unit?_extend hc.suffix hne, startsNoise]

/-- Noise that something follows is the same in the joined text. -/
theorem noise_extend (hc : c.In j.before) (hne : c.skipNoise.rest ≠ []) :
    noise (j.extend c).rest = noise c.rest := by
  have hend : startsNoise (j.extend c.skipNoise).rest = false := by
    rw [startsNoise_extend (hc.of_reaches c.skipNoise_reaches) hne]
    exact startsNoise_drop_noise c.rest
  have hzero := Cursor.noise_eq_zero hend
  rw [rest_extend, noise_append hc.suffix]
  exact Nat.add_eq_left.2 hzero

theorem skipNoise_extend (hc : c.In j.before) (hne : c.skipNoise.rest ≠ []) :
    (j.extend c).skipNoise = j.extend c.skipNoise := by
  rw [Cursor.skipNoise, noise_extend hc hne, drop_extend (noise_le_length _)]
  rfl

theorem noise?_extend (hc : c.In j.before) (hne : c.skipNoise.rest ≠ []) :
    (j.extend c).noise? = c.noise?.map j.extend := by
  unfold Cursor.noise?
  rw [noise_extend hc hne, skipNoise_extend hc hne]
  split <;> rfl

theorem noise?_extend_of_some (hc : c.In j.before) (h : c.noise? = some d) (hd : d.rest ≠ []) :
    (j.extend c).noise? = some (j.extend d) := by
  have hmore : c.skipNoise.rest ≠ [] := by rwa [skipNoise_of_noise? h]
  rw [noise?_extend hc hmore, h, Option.map_some]

/-- To skip the noise of the first text first makes no difference. -/
theorem skipNoise_extend_skipNoise (hc : c.In j.before) :
    (j.extend c.skipNoise).skipNoise = (j.extend c).skipNoise := by
  have hnoise : noise (j.extend c).rest = noise c.rest + noise (j.extend c.skipNoise).rest :=
    noise_append hc.suffix
  calc (j.extend c.skipNoise).skipNoise
      = ((j.extend c).drop (noise c.rest)).drop (noise (j.extend c.skipNoise).rest) := by
        rw [drop_extend (noise_le_length c.rest)]
        rfl
    _ = (j.extend c).skipNoise := by
        rw [Cursor.drop_drop, ← hnoise]
        rfl

/-! ## Words and URLs -/

theorem word_append (hs : s <:+ j.before) : word (s ++ '\n' :: j.after) = word s := by
  induction s with
  | nil => rfl
  | cons x xs ih =>
    have hunit := unit?_extend hs (List.cons_ne_nil _ _)
    rw [List.cons_append] at hunit ⊢
    rw [word, word, startsNoise, startsNoise, hunit, ih ((List.suffix_cons x xs).trans hs)]

theorem word?_extend (hc : c.In j.before) : (j.extend c).word? = c.word?.map j.extend := by
  unfold Cursor.word?
  rw [rest_extend, word_append hc.suffix, drop_extend (word_le_length _)]
  split <;> rfl

theorem take_word_extend (hc : c.In j.before) :
    (j.extend c).take (word (j.extend c).rest) = c.take (word c.rest) := by
  rw [rest_extend, word_append hc.suffix, take_extend (word_le_length _)]

theorem urlTail_append {last : Char} (hs : s <:+ j.before) :
    urlTail last (s ++ '\n' :: j.after) = urlTail last s := by
  -- a position of the first text stops the URL in the joined text exactly if it does alone
  have hcons {x : Char} {xs : List Char} (hs : x :: xs <:+ j.before)
      (hslash : ∀ ds, x = '/' → xs = '/' :: ds → False) (last : Char) :
      urlTail last (x :: xs ++ '\n' :: j.after) =
        if isBlank x || startsNoise (x :: xs) then 0 else urlTail x (xs ++ '\n' :: j.after) + 1 := by
    have hprefix := isPrefixOf_append_feed (s := x :: xs) (t := j.after)
      (show '\n' ∉ ['/', '/'] by decide)
    rw [isPrefixOf_slashes hslash] at hprefix
    have hunit := unit?_extend hs (List.cons_ne_nil _ _)
    rw [List.cons_append] at hprefix hunit ⊢
    rw [urlTail_cons hprefix, startsNoise, startsNoise, hunit]
  fun_induction urlTail last s with
  | case1 => exact urlTail_of_line_end (.inl rfl) _
  | case2 cs ih =>
    have hcs : cs <:+ j.before := (List.suffix_append ['/', '/'] cs).trans hs
    rw [List.cons_append, List.cons_append, urlTail, if_pos rfl, ih hcs]
  | case3 last cs h => rw [List.cons_append, List.cons_append, urlTail, if_neg h]
  | case4 last x xs hslash hstop => rw [hcons hs hslash, if_pos hstop]
  | case5 last x xs hslash hstop ih =>
    rw [hcons hs hslash, if_neg hstop, ih ((List.suffix_cons x xs).trans hs)]

theorem urlLength_append (hs : s <:+ j.before) :
    urlLength (s ++ '\n' :: j.after) = urlLength s := by
  cases s with
  | nil => rfl
  | cons x xs =>
    rw [List.cons_append, urlLength, urlLength, urlTail_append ((List.suffix_cons x xs).trans hs)]

theorem url?_extend (hc : c.In j.before) :
    url? (j.extend c) = (url? c).map (Prod.map id j.extend) := by
  have hle := urlLength_le_length c.rest
  simp only [url?, rest_extend, urlLength_append hc.suffix, take_extend hle, drop_extend hle]
  split <;> rfl

end Join

end Text

end ApiStubs
