-- SUMMARY: Copies of a text with other line ends or at another place, and their lexical readings.
import ApiStubs.Proofs.Spans
import ApiStubs.Source.Endpoint

/-!
# Copies of a text

A copy of a text has a line end of its own in place of each line feed, and it may
stand behind other text. Every place of the text has a place in the copy.

What a lexical reading finds at a place of the text, it finds at that place of the
copy. Most readings stop at the end of a line and find the same characters. Noise
and searches go beyond it and find a copy of what they find in the text.
-/

namespace ApiStubs

-- ---------------------------------------------------------------------------
-- Line ends
-- ---------------------------------------------------------------------------

namespace Text

/-- What ends a line: a line feed, or a carriage return and a line feed. -/
inductive LineEnd where
  | feed
  | returnFeed
deriving DecidableEq, Repr

/-- The text is part of one line. -/
def WithinLine (s : List Char) : Prop := '\n' ∉ s ∧ '\r' ∉ s

instance (s : List Char) : Decidable (WithinLine s) :=
  inferInstanceAs (Decidable ('\n' ∉ s ∧ '\r' ∉ s))

theorem withinLine_cons {c : Char} {s : List Char} :
    WithinLine (c :: s) ↔ c ≠ '\n' ∧ c ≠ '\r' ∧ WithinLine s := by
  simp only [WithinLine, List.mem_cons, not_or, ne_eq, eq_comm (a := c)]
  constructor
  · rintro ⟨⟨hfeed, hs⟩, hreturn, hs'⟩
    exact ⟨hfeed, hreturn, hs, hs'⟩
  · rintro ⟨hfeed, hreturn, hs, hs'⟩
    exact ⟨⟨hfeed, hs⟩, hreturn, hs'⟩

/-- The class holds no character of a line end. -/
def WithinLines (p : Char → Bool) : Prop := p '\n' = false ∧ p '\r' = false

namespace LineEnd

def chars : LineEnd → List Char
  | .feed => ['\n']
  | .returnFeed => ['\r', '\n']

/-- The text with this line end in place of each line feed. -/
def write (e : LineEnd) (s : List Char) : List Char :=
  s.flatMap fun c => if c = '\n' then e.chars else [c]

/-- By how much a text grows with each line. -/
def growth : LineEnd → Nat
  | .feed => 0
  | .returnFeed => 1

variable {e : LineEnd} {s t w : List Char} {p : Char → Bool}

@[simp] theorem write_nil (e : LineEnd) : e.write [] = [] := rfl

@[simp] theorem write_append (e : LineEnd) (s t : List Char) :
    e.write (s ++ t) = e.write s ++ e.write t :=
  List.flatMap_append

theorem write_cons_feed (e : LineEnd) (s : List Char) : e.write ('\n' :: s) = e.chars ++ e.write s :=
  rfl

theorem write_cons_of_ne {c : Char} (h : c ≠ '\n') : e.write (c :: s) = c :: e.write s := by
  simp [write, h]

theorem write_feed (s : List Char) : LineEnd.feed.write s = s := by
  induction s with
  | nil => rfl
  | cons c cs ih =>
    by_cases hc : c = '\n'
    · subst hc
      rw [write_cons_feed, ih]
      rfl
    · rw [write_cons_of_ne hc, ih]

theorem write_of_not_mem (h : '\n' ∉ s) : e.write s = s := by
  induction s with
  | nil => rfl
  | cons c cs ih =>
    obtain ⟨hc, hcs⟩ := not_or.1 (mt List.mem_cons.2 h)
    rw [write_cons_of_ne (Ne.symm hc), ih hcs]

theorem mem_write_feed (h : '\n' ∈ s) : '\n' ∈ e.write s := by
  refine List.mem_flatMap.2 ⟨'\n', h, ?_⟩
  cases e <;> decide

theorem length_write (e : LineEnd) (s : List Char) :
    (e.write s).length = s.length + e.growth * s.count '\n' := by
  induction s with
  | nil => simp
  | cons c cs ih =>
    by_cases hc : c = '\n'
    · subst hc
      cases e <;> simp only [write_cons_feed, chars, growth, ih, List.length_append,
        List.length_cons, List.length_nil, List.count_cons_self] <;> omega
    · rw [write_cons_of_ne hc, List.length_cons, ih, List.length_cons,
        List.count_cons_of_ne hc]
      omega

/-- A line end is a character that ends a line and possibly a line feed. -/
theorem exists_chars_eq (e : LineEnd) :
    ∃ x xs, e.chars = x :: xs ∧ (x = '\n' ∨ x = '\r') := by
  cases e with
  | feed => exact ⟨'\n', [], rfl, .inl rfl⟩
  | returnFeed => exact ⟨'\r', ['\n'], rfl, .inr rfl⟩

theorem head?_write (hp : WithinLines p) : (e.write s).head?.any p = s.head?.any p := by
  cases s with
  | nil => rfl
  | cons c cs =>
    by_cases hc : c = '\n'
    · subst hc
      obtain ⟨x, xs, hchars, hx⟩ := e.exists_chars_eq
      rw [write_cons_feed, hchars]
      rcases hx with rfl | rfl <;> simp [hp.1, hp.2]
    · rw [write_cons_of_ne hc]
      rfl

/-- A reading that stops at the end of a line finds the same characters. -/
theorem takeWhile_write (hp : WithinLines p) : (e.write s).takeWhile p = s.takeWhile p := by
  induction s with
  | nil => rfl
  | cons c cs ih =>
    by_cases hc : c = '\n'
    · subst hc
      obtain ⟨x, xs, hchars, hx⟩ := e.exists_chars_eq
      rw [write_cons_feed, hchars]
      rcases hx with rfl | rfl <;> simp [hp.1, hp.2]
    · rw [write_cons_of_ne hc, List.takeWhile_cons, List.takeWhile_cons, ih]

theorem isPrefixOf_write (hw : WithinLine w) : w.isPrefixOf (e.write s) = w.isPrefixOf s := by
  induction w generalizing s with
  | nil => simp
  | cons a w ih =>
    obtain ⟨hfeed, hreturn, hw'⟩ := withinLine_cons.1 hw
    cases s with
    | nil => rfl
    | cons c cs =>
      by_cases hc : c = '\n'
      · subst hc
        obtain ⟨x, xs, hchars, hx⟩ := e.exists_chars_eq
        rw [write_cons_feed, hchars]
        rcases hx with rfl | rfl <;>
          simp [List.isPrefixOf_cons_cons, beq_false_of_ne hfeed, beq_false_of_ne hreturn]
      · rw [write_cons_of_ne hc, List.isPrefixOf_cons_cons, List.isPrefixOf_cons_cons, ih hw']

theorem drop_write (e : LineEnd) (s : List Char) (n : Nat) :
    (e.write s).drop (e.write (s.take n)).length = e.write (s.drop n) := by
  conv => lhs; arg 2; rw [← List.take_append_drop n s]
  rw [write_append, List.drop_left]

/-- A search finds the copy of what it finds. -/
theorem find?_write (hw : WithinLine w) (hne : w ≠ []) :
    find? w (e.write s) = (find? w s).map fun n => (e.write (s.take n)).length := by
  induction s with
  | nil => cases w <;> simp_all [find?]
  | cons c cs ih =>
    by_cases hc : c = '\n'
    · subst hc
      obtain ⟨a, w', rfl⟩ := List.exists_cons_of_ne_nil hne
      obtain ⟨hfeed, hreturn, -⟩ := withinLine_cons.1 hw
      cases e with
      | feed => simp [write_cons_feed, chars, find?, hfeed, ih, Function.comp_def]
      | returnFeed => simp [write_cons_feed, chars, find?, hfeed, hreturn, ih, Function.comp_def]
    · have hcons := isPrefixOf_write (e := e) (s := c :: cs) hw
      rw [write_cons_of_ne hc] at hcons ⊢
      rw [find?, find?, hcons, ih]
      split
      · rfl
      · cases find? w cs with
        | none => rfl
        | some n => simp [write_cons_of_ne hc]

/-- A word of one line that follows is copied as it is. -/
theorem length_write_take_add {n : Nat} (hw : '\n' ∉ w) (h : w <+: s.drop n) :
    (e.write (s.take (n + w.length))).length = (e.write (s.take n)).length + w.length := by
  obtain ⟨t, ht⟩ := h
  rw [List.take_add, ← ht, List.take_left, write_append, List.length_append, write_of_not_mem hw]

end LineEnd

end Text

-- ---------------------------------------------------------------------------
-- Noise and words
-- ---------------------------------------------------------------------------

namespace Source

open Text

/-- The comment at the front, told by the word that begins it. -/
theorem comment?_eq (s : List Char) :
    comment? s =
      if ['/', '/'].isPrefixOf s then some (lineLength (s.drop 2) + 2)
      else if ['/', '*'].isPrefixOf s then (find? ['*', '/'] (s.drop 2)).map (· + 4)
      else if ['#'].isPrefixOf s then
        if directiveWords.any (·.toList.isPrefixOf (s.drop 1)) then none
        else some (lineLength (s.drop 1) + 1)
      else none := by
  unfold comment?
  split
  · rfl
  · rfl
  · rfl
  · next hline hblock hhash =>
    rw [if_neg, if_neg, if_neg]
    · intro h
      obtain ⟨t, rfl⟩ := List.isPrefixOf_iff_prefix.1 h
      exact hhash t rfl
    · intro h
      obtain ⟨t, rfl⟩ := List.isPrefixOf_iff_prefix.1 h
      exact hblock t rfl
    · intro h
      obtain ⟨t, rfl⟩ := List.isPrefixOf_iff_prefix.1 h
      exact hline t rfl

section Write

variable {e : LineEnd} {s : List Char}

theorem lineLength_write (e : LineEnd) (s : List Char) : lineLength (e.write s) = lineLength s :=
  congrArg List.length (LineEnd.takeWhile_write ⟨rfl, rfl⟩)

theorem take_lineLength (s : List Char) : s.take (lineLength s) = s.takeWhile (!isLineEnd ·) :=
  (List.prefix_iff_eq_take.1 (List.takeWhile_prefix _)).symm

theorem not_mem_take_lineLength (s : List Char) : '\n' ∉ s.take (lineLength s) := by
  intro h
  rw [take_lineLength] at h
  exact absurd (List.all_eq_true.1 List.all_takeWhile _ h) (by decide)

/-- What is left of a line keeps its length in a copy. -/
theorem length_write_line (e : LineEnd) (s : List Char) :
    (e.write (s.take (lineLength s))).length = lineLength s := by
  rw [LineEnd.write_of_not_mem (not_mem_take_lineLength s), List.length_take,
    Nat.min_eq_left (lineLength_le_length s)]

theorem comment?_write (e : LineEnd) (s : List Char) :
    comment? (e.write s) = (comment? s).map fun n => (e.write (s.take n)).length := by
  rw [comment?_eq, comment?_eq, LineEnd.isPrefixOf_write (by decide),
    LineEnd.isPrefixOf_write (by decide), LineEnd.isPrefixOf_write (by decide)]
  split
  · next h =>
    obtain ⟨t, rfl⟩ := List.isPrefixOf_iff_prefix.1 h
    simp [LineEnd.write_cons_of_ne, lineLength_write, length_write_line]
  · split
    · next h =>
      obtain ⟨t, rfl⟩ := List.isPrefixOf_iff_prefix.1 h
      have hdrop : (['/', '*'] ++ t).drop 2 = t := rfl
      have hdrop' : (e.write (['/', '*'] ++ t)).drop 2 = e.write t := rfl
      rw [hdrop, hdrop', LineEnd.find?_write (by decide) (by decide)]
      cases hfind : find? ['*', '/'] t with
      | none => rfl
      | some n =>
        have hclose : (e.write (t.take (n + 2))).length = (e.write (t.take n)).length + 2 :=
          LineEnd.length_write_take_add (w := ['*', '/']) (by decide) (find?_eq_some_iff.1 hfind).1
        simp only [Option.map_some, Option.some.injEq]
        change _ = (e.write ('/' :: '*' :: t.take (n + 2))).length
        rw [LineEnd.write_cons_of_ne (by decide), LineEnd.write_cons_of_ne (by decide)]
        simp only [List.length_cons, hclose]
    · split
      · next h =>
        obtain ⟨t, rfl⟩ := List.isPrefixOf_iff_prefix.1 h
        have hdirective : (directiveWords.any fun d => d.toList.isPrefixOf (e.write t)) =
            directiveWords.any fun d => d.toList.isPrefixOf t := by
          simp only [directiveWords, List.any_cons, List.any_nil]
          rw [LineEnd.isPrefixOf_write (by decide), LineEnd.isPrefixOf_write (by decide),
            LineEnd.isPrefixOf_write (by decide), LineEnd.isPrefixOf_write (by decide)]
        simp only [List.singleton_append, LineEnd.write_cons_of_ne (show '#' ≠ '\n' by decide),
          List.drop_succ_cons, List.drop_zero, hdirective, lineLength_write]
        split
        · rfl
        · simp [LineEnd.write_cons_of_ne, length_write_line]
      · rfl

theorem isSpace_of_line_end {x : Char} (h : x = '\n' ∨ x = '\r') : isSpace x = true := by
  rcases h with rfl | rfl <;> rfl

theorem unit?_write {c : Char} {s : List Char} (hc : c ≠ '\n') :
    unit? (e.write (c :: s)) = (unit? (c :: s)).map fun n => (e.write ((c :: s).take n)).length := by
  have hcomment := comment?_write e (c :: s)
  rw [LineEnd.write_cons_of_ne hc] at hcomment ⊢
  rw [unit?, unit?, hcomment]
  split
  · simp [LineEnd.write_cons_of_ne hc]
  · rfl

theorem startsNoise_write (e : LineEnd) (s : List Char) :
    startsNoise (e.write s) = startsNoise s := by
  unfold startsNoise
  cases s with
  | nil => rfl
  | cons c cs =>
    by_cases hc : c = '\n'
    · subst hc
      obtain ⟨x, xs, hchars, hx⟩ := e.exists_chars_eq
      rw [LineEnd.write_cons_feed, hchars, List.cons_append, unit?, unit?,
        if_pos (isSpace_of_line_end hx)]
      rfl
    · rw [unit?_write hc, Option.isSome_map]

theorem noise_of_unit? {s : List Char} {n : Nat} (h : unit? s = some n) :
    noise s = n + noise (s.drop n) := by
  conv => lhs; unfold noise
  split
  · next hnone => rw [h] at hnone; cases hnone
  · next m hm => rw [h] at hm; cases hm; rfl

theorem noise_chars_append (e : LineEnd) (s : List Char) :
    noise (e.chars ++ s) = e.chars.length + noise s := by
  cases e with
  | feed => exact noise_of_unit? rfl
  | returnFeed =>
    have hreturn : noise ('\r' :: '\n' :: s) = 1 + noise ('\n' :: s) := noise_of_unit? rfl
    have hfeed : noise ('\n' :: s) = 1 + noise s := noise_of_unit? rfl
    simp only [LineEnd.chars, List.cons_append, List.nil_append, List.length_cons, List.length_nil]
    omega

/-- The noise in a copy is the copy of the noise. -/
theorem noise_write (e : LineEnd) (s : List Char) :
    noise (e.write s) = (e.write (s.take (noise s))).length := by
  fun_induction noise s with
  | case1 s h =>
    have hnone : startsNoise (e.write s) = false := by
      rw [startsNoise_write]
      simp [startsNoise, h]
    rw [Cursor.noise_eq_zero hnone]
    rfl
  | case2 s n h ih =>
    rw [List.take_add, LineEnd.write_append, List.length_append, ← ih]
    cases s with
    | nil => cases h
    | cons c cs =>
      by_cases hc : c = '\n'
      · subst hc
        obtain rfl : n = 1 := (Option.some.inj h).symm
        rw [LineEnd.write_cons_feed, noise_chars_append]
        simp [LineEnd.write_cons_feed]
      · have hunit := unit?_write (e := e) (s := cs) hc
        rw [h, Option.map_some] at hunit
        rw [noise_of_unit? hunit, LineEnd.drop_write]

theorem word_write (e : LineEnd) (s : List Char) : word (e.write s) = word s := by
  induction s with
  | nil => rfl
  | cons c cs ih =>
    have hstarts := startsNoise_write e (c :: cs)
    by_cases hc : c = '\n'
    · subst hc
      have hnoise : startsNoise ('\n' :: cs) = true := rfl
      obtain ⟨x, xs, hchars, hx⟩ := e.exists_chars_eq
      rw [LineEnd.write_cons_feed, hchars, List.cons_append] at hstarts ⊢
      rw [word, word, hstarts, hnoise]
      rfl
    · rw [LineEnd.write_cons_of_ne hc] at hstarts ⊢
      rw [word, word, hstarts, ih]

theorem isBlank_of_line_end {x : Char} (h : x = '\n' ∨ x = '\r') : isBlank x = true := by
  rcases h with rfl | rfl <;> decide

theorem urlTail_of_line_end {x last : Char} (h : x = '\n' ∨ x = '\r') (s : List Char) :
    urlTail last (x :: s) = 0 := by
  unfold urlTail
  split
  · rfl
  · next heq => rcases h with rfl | rfl <;> cases heq
  · next heq => cases heq; simp [isBlank_of_line_end h]

theorem isPrefixOf_slashes {c : Char} {cs : List Char}
    (h : ∀ ds, c = '/' → cs = '/' :: ds → False) : ['/', '/'].isPrefixOf (c :: cs) = false := by
  rw [Bool.eq_false_iff]
  intro hprefix
  obtain ⟨ds, hds⟩ := List.isPrefixOf_iff_prefix.1 hprefix
  cases hds
  exact h ds rfl rfl

theorem urlTail_cons {last c : Char} {cs : List Char}
    (h : ['/', '/'].isPrefixOf (c :: cs) = false) :
    urlTail last (c :: cs) = if isBlank c || startsNoise (c :: cs) then 0 else urlTail c cs + 1 := by
  rw [urlTail]
  rintro ds rfl rfl
  cases h

theorem urlTail_write (e : LineEnd) (last : Char) (s : List Char) :
    urlTail last (e.write s) = urlTail last s := by
  fun_induction urlTail last s with
  | case1 => rfl
  | case2 cs ih =>
    rw [LineEnd.write_cons_of_ne (by decide), LineEnd.write_cons_of_ne (by decide), urlTail,
      if_pos rfl, ih]
  | case3 last cs h =>
    rw [LineEnd.write_cons_of_ne (by decide), LineEnd.write_cons_of_ne (by decide), urlTail,
      if_neg h]
  | case4 last c cs hslash hstop =>
    by_cases hc : c = '\n'
    · subst hc
      obtain ⟨x, xs, hchars, hx⟩ := e.exists_chars_eq
      rw [LineEnd.write_cons_feed, hchars, List.cons_append, urlTail_of_line_end hx]
    · have hprefix := isPrefixOf_slashes hslash
      rw [← LineEnd.isPrefixOf_write (e := e) (by decide)] at hprefix
      rw [← startsNoise_write e] at hstop
      rw [LineEnd.write_cons_of_ne hc] at hprefix hstop ⊢
      rw [urlTail_cons hprefix, if_pos hstop]
  | case5 last c cs hslash hstop ih =>
    have hc : c ≠ '\n' := by
      rintro rfl
      exact hstop rfl
    have hprefix := isPrefixOf_slashes hslash
    rw [← LineEnd.isPrefixOf_write (e := e) (by decide)] at hprefix
    rw [← startsNoise_write e] at hstop
    rw [LineEnd.write_cons_of_ne hc] at hprefix hstop ⊢
    rw [urlTail_cons hprefix, if_neg hstop, ih]

theorem urlLength_write (e : LineEnd) (s : List Char) : urlLength (e.write s) = urlLength s := by
  cases s with
  | nil => rfl
  | cons c cs =>
    by_cases hc : c = '\n'
    · subst hc
      obtain ⟨x, xs, hchars, hx⟩ := e.exists_chars_eq
      rw [LineEnd.write_cons_feed, hchars, List.cons_append, urlLength, urlLength,
        if_pos (isBlank_of_line_end hx)]
      rfl
    · rw [LineEnd.write_cons_of_ne hc, urlLength, urlLength, urlTail_write]

end Write

theorem not_mem_take_word (s : List Char) : '\n' ∉ s.take (word s) := by
  induction s with
  | nil => simp
  | cons c cs ih =>
    rw [word]
    split
    · simp
    · next hnoise =>
      have hc : '\n' ≠ c := by
        rintro rfl
        exact hnoise rfl
      rw [List.take_succ_cons, List.mem_cons, not_or]
      exact ⟨hc, ih⟩

theorem not_mem_take_urlTail (last : Char) (s : List Char) :
    '\n' ∉ s.take (urlTail last s) := by
  fun_induction urlTail last s with
  | case2 cs ih => simpa using ih
  | case5 last c cs _ hstop ih =>
    have hc : '\n' ≠ c := by
      rintro rfl
      exact hstop rfl
    rw [List.take_succ_cons, List.mem_cons, not_or]
    exact ⟨hc, ih⟩
  | _ => simp

theorem not_mem_take_urlLength (s : List Char) : '\n' ∉ s.take (urlLength s) := by
  cases s with
  | nil => simp
  | cons c cs =>
    rw [urlLength]
    split
    · simp
    · next hblank =>
      have hc : '\n' ≠ c := by
        rintro rfl
        exact hblank rfl
      rw [List.take_succ_cons, List.mem_cons, not_or]
      exact ⟨hc, not_mem_take_urlTail c cs⟩

end Source

-- ---------------------------------------------------------------------------
-- Places
-- ---------------------------------------------------------------------------

namespace Text

open Source

/-- A copy of a text with a line end of its own, `base` characters into another
    text. -/
structure Copy where
  text : List Char
  lineEnd : LineEnd
  base : Nat

namespace Copy

/-- The offset in the copy of an offset in the text. -/
def offset (σ : Copy) (n : Nat) : Nat :=
  σ.base + n + σ.lineEnd.growth * (σ.text.take n).count '\n'

/-- The place in the copy of a place in the text. -/
def place (σ : Copy) (c : Cursor) : Cursor := ⟨σ.offset c.offset, σ.lineEnd.write c.rest⟩

variable {σ : Copy} {c d : Cursor} {s : List Char} {n : Nat} {p : Char → Bool}

@[simp] theorem rest_place (σ : Copy) (c : Cursor) : (σ.place c).rest = σ.lineEnd.write c.rest := rfl

@[simp] theorem offset_place (σ : Copy) (c : Cursor) : (σ.place c).offset = σ.offset c.offset := rfl

/-- The text between two places is copied between their places in the copy. -/
theorem spans_place (hc : c.In σ.text) (h : c.Spans s d) :
    (σ.place c).Spans (σ.lineEnd.write s) (σ.place d) := by
  obtain ⟨hrest, hoffset⟩ := h
  refine ⟨?_, ?_⟩
  · rw [rest_place, rest_place, hrest, LineEnd.write_append]
  · have htake : σ.text.take d.offset = σ.text.take c.offset ++ s := by
      rw [hoffset, List.take_add, ← hc.rest_eq, hrest, List.take_left]
    rw [offset_place, offset_place, offset, offset, htake, List.count_append, hoffset,
      LineEnd.length_write, Nat.mul_add]
    omega

theorem place_drop (hc : c.In σ.text) (hn : n ≤ c.rest.length) :
    (σ.place c).drop (σ.lineEnd.write (c.rest.take n)).length = σ.place (c.drop n) := by
  have hspans : c.Spans (c.rest.take n) (c.drop n) :=
    ⟨(List.take_append_drop n c.rest).symm, by simp [Nat.min_eq_left hn]⟩
  exact (spans_place hc hspans).eq_drop.symm

/-- A step within a line has the same length in the copy. -/
theorem place_drop_line (hc : c.In σ.text) (hn : n ≤ c.rest.length) (h : '\n' ∉ c.rest.take n) :
    (σ.place c).drop n = σ.place (c.drop n) := by
  rw [← place_drop hc hn, LineEnd.write_of_not_mem h, List.length_take, Nat.min_eq_left hn]

theorem take_place (hn : n ≤ c.rest.length) (h : '\n' ∉ c.rest.take n) :
    (σ.place c).take n = c.take n := by
  have hsplit : σ.lineEnd.write c.rest = c.rest.take n ++ σ.lineEnd.write (c.rest.drop n) := by
    conv => lhs; rw [← List.take_append_drop n c.rest]
    rw [LineEnd.write_append, LineEnd.write_of_not_mem h]
  rw [Cursor.take, rest_place, hsplit, List.take_left' (by simp [Nat.min_eq_left hn])]
  rfl

theorem atEnd_place (σ : Copy) (c : Cursor) : (σ.place c).atEnd = c.atEnd := by
  unfold Cursor.atEnd
  rw [rest_place]
  cases c.rest with
  | nil => rfl
  | cons x xs =>
    by_cases hx : x = '\n'
    · subst hx
      obtain ⟨y, ys, hchars, -⟩ := σ.lineEnd.exists_chars_eq
      rw [LineEnd.write_cons_feed, hchars]
      rfl
    · rw [LineEnd.write_cons_of_ne hx]
      rfl

/-! ## Words and runs -/

theorem eat?_place (hc : c.In σ.text) {w : String} (hw : WithinLine w.toList) :
    (σ.place c).eat? w = (c.eat? w).map σ.place := by
  unfold Cursor.eat? Cursor.startsWith
  rw [rest_place, LineEnd.isPrefixOf_write hw]
  split
  · next hprefix =>
    obtain ⟨t, ht⟩ := List.isPrefixOf_iff_prefix.1 hprefix
    have hlen : w.length = w.toList.length := String.length_toList.symm
    have hle : w.length ≤ c.rest.length := by
      rw [← ht, hlen, List.length_append]
      omega
    have htake : c.rest.take w.length = w.toList := by rw [← ht, hlen, List.take_left]
    rw [Option.map_some, place_drop_line hc hle (htake ▸ hw.1)]
  · rfl

theorem count_place (σ : Copy) (c : Cursor) (hp : WithinLines p) :
    (σ.place c).count p = c.count p :=
  congrArg List.length (LineEnd.takeWhile_write hp)

theorem not_mem_take_count (c : Cursor) (hp : WithinLines p) : '\n' ∉ c.rest.take (c.count p) := by
  intro h
  rw [Cursor.count, ← List.prefix_iff_eq_take.1 (List.takeWhile_prefix p)] at h
  exact absurd (List.all_eq_true.1 List.all_takeWhile _ h) (by simp [hp.1])

theorem take_count_place (σ : Copy) (c : Cursor) (hp : WithinLines p) :
    (σ.place c).take ((σ.place c).count p) = c.take (c.count p) := by
  rw [count_place σ c hp, take_place (c.count_le_length p) (not_mem_take_count c hp)]

theorem drop_count_place (hc : c.In σ.text) (hp : WithinLines p) :
    (σ.place c).drop ((σ.place c).count p) = σ.place (c.drop (c.count p)) := by
  rw [count_place σ c hp, place_drop_line hc (c.count_le_length p) (not_mem_take_count c hp)]

theorem line_place (σ : Copy) (c : Cursor) : (σ.place c).line = c.line :=
  take_count_place σ c (p := (!isLineEnd ·)) ⟨rfl, rfl⟩

theorem lineEnd_place (hc : c.In σ.text) : (σ.place c).lineEnd = σ.place c.lineEnd :=
  drop_count_place hc (p := (!isLineEnd ·)) ⟨rfl, rfl⟩

theorem skipInlineSpace_place (hc : c.In σ.text) :
    (σ.place c).skipInlineSpace = σ.place c.skipInlineSpace :=
  drop_count_place hc ⟨rfl, rfl⟩

/-- The copy has spaces or tabs where the text has. -/
theorem offset_skipInlineSpace_place (hc : c.In σ.text) :
    (σ.place c.skipInlineSpace).offset = (σ.place c).offset ↔
      c.skipInlineSpace.offset = c.offset := by
  rw [← skipInlineSpace_place hc, Cursor.skipInlineSpace, Cursor.skipInlineSpace,
    count_place σ c ⟨rfl, rfl⟩, Cursor.offset_drop, Cursor.offset_drop]
  omega

theorem snippet_place (σ : Copy) (c : Cursor) : snippet (σ.place c) = snippet c := by
  have hle := lineLength_le_length c.rest
  rw [snippet, snippet, rest_place, lineLength_write]
  apply take_place
  · omega
  · intro h
    exact not_mem_take_lineLength c.rest (List.take_subset_take_left _ (Nat.min_le_left ..) h)

/-! ## Noise, words and URLs -/

theorem skipNoise_place (hc : c.In σ.text) : (σ.place c).skipNoise = σ.place c.skipNoise := by
  rw [Cursor.skipNoise, rest_place, noise_write, place_drop hc (noise_le_length _)]
  rfl

theorem noise?_place (hc : c.In σ.text) : (σ.place c).noise? = c.noise?.map σ.place := by
  have hzero : noise (σ.place c).rest = 0 ↔ noise c.rest = 0 := by
    have hle := noise_le_length c.rest
    rw [rest_place, noise_write, LineEnd.length_write, List.length_take]
    constructor
    · intro h
      omega
    · intro h
      simp [h]
  unfold Cursor.noise?
  by_cases h : noise c.rest = 0
  · rw [if_pos h, if_pos (hzero.2 h)]
    rfl
  · rw [if_neg h, if_neg (mt hzero.1 h), skipNoise_place hc]
    rfl

theorem word?_place (hc : c.In σ.text) : (σ.place c).word? = c.word?.map σ.place := by
  unfold Cursor.word?
  rw [rest_place, word_write]
  split
  · rfl
  · rw [place_drop_line hc (word_le_length _) (not_mem_take_word _)]
    rfl

theorem take_word_place (σ : Copy) (c : Cursor) :
    (σ.place c).take (word (σ.place c).rest) = c.take (word c.rest) := by
  rw [rest_place, word_write, take_place (word_le_length _) (not_mem_take_word _)]

end Copy

end Text

end ApiStubs
