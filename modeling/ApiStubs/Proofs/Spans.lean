-- SUMMARY: The text between two places, and the lexical readings described by it.
import ApiStubs.Source.Noise

/-!
# Spans

`c.Spans s d` says that the text `s` lies between the places `c` and `d`. A
reading from `c` to `d` is described by the text between them and by what does
not follow at `d`. Such a description can be used in both directions: from the
result of a reading to the text, and from the text to the result.
-/

namespace ApiStubs

-- ---------------------------------------------------------------------------
-- Classes of characters
-- ---------------------------------------------------------------------------

/-- Every character of the text is in the class. -/
def Text.AllChars (p : Char → Bool) (s : String) : Prop := ∀ c ∈ s.toList, p c = true

instance (p : Char → Bool) (s : String) : Decidable (Text.AllChars p s) :=
  List.decidableBAll _ _

/-- No noise begins with the character: it is no space and begins no comment. -/
def Source.isPlain (c : Char) : Bool := !isSpace c && c != '/' && c != '#'

namespace Text

theorem exists_head {s : String} (hs : s ≠ "") : ∃ x ∈ s.toList, s.toList.head? = some x := by
  cases heq : s.toList with
  | nil => exact absurd (String.toList_inj.1 heq) hs
  | cons x xs => exact ⟨x, List.mem_cons_self .., rfl⟩

-- ---------------------------------------------------------------------------
-- First occurrences
-- ---------------------------------------------------------------------------

/-- A search finds the first occurrence: the word is there and nowhere before. -/
theorem find?_eq_some_iff {word s : List Char} {n : Nat} :
    find? word s = some n ↔
      word <+: s.drop n ∧ n ≤ s.length ∧ ∀ i < n, ¬ word <+: s.drop i := by
  induction s generalizing n with
  | nil =>
    simp only [find?, List.isEmpty_iff, List.drop_nil, List.prefix_nil, List.length_nil]
    constructor
    · intro h
      split at h
      · next hw => cases h; exact ⟨hw, Nat.le_refl 0, fun i hi => absurd hi (Nat.not_lt_zero i)⟩
      · cases h
    · rintro ⟨hw, hn, -⟩
      rw [if_pos hw, Nat.le_zero.1 hn]
  | cons c cs ih =>
    simp only [find?]
    split
    · next hp =>
      rw [List.isPrefixOf_iff_prefix] at hp
      constructor
      · intro h; cases h; exact ⟨hp, Nat.zero_le _, fun i hi => absurd hi (Nat.not_lt_zero i)⟩
      · rintro ⟨-, -, hfirst⟩
        cases n with
        | zero => rfl
        | succ n => exact absurd hp (hfirst 0 (Nat.succ_pos n))
    · next hp =>
      rw [List.isPrefixOf_iff_prefix] at hp
      constructor
      · intro h
        obtain ⟨k, hk, rfl⟩ := Option.map_eq_some_iff.1 h
        obtain ⟨hword, hle, hfirst⟩ := ih.1 hk
        refine ⟨hword, Nat.succ_le_succ hle, fun i hi => ?_⟩
        cases i with
        | zero => exact hp
        | succ i => exact hfirst i (Nat.lt_of_succ_lt_succ hi)
      · rintro ⟨hword, hle, hfirst⟩
        cases n with
        | zero => exact absurd hword hp
        | succ n =>
          have hn : find? word cs = some n :=
            ih.2 ⟨hword, Nat.le_of_succ_le_succ hle,
              fun i hi => hfirst (i + 1) (Nat.succ_lt_succ hi)⟩
          simp [hn]

theorem find?_eq_none_iff {w s : List Char} (hne : w ≠ []) : find? w s = none ↔ ¬ w <:+: s := by
  induction s with
  | nil => simp [find?, hne]
  | cons c cs ih =>
    rw [find?, List.infix_cons_iff, not_or, ← ih, ← List.isPrefixOf_iff_prefix]
    split
    · next h => simp [h]
    · next h => simp [h]

theorem find?_singleton (x : Char) (s : List Char) :
    find? [x] s = if x ∈ s then some (s.takeWhile (· != x)).length else none := by
  induction s with
  | nil => rfl
  | cons c cs ih =>
    by_cases hc : c = x
    · subst hc
      simp [find?]
    · have hx : x ≠ c := fun h => hc h.symm
      by_cases hmem : x ∈ cs <;> simp [find?, hx, hc, ih, hmem]

namespace Cursor

-- ---------------------------------------------------------------------------
-- Spans
-- ---------------------------------------------------------------------------

/-- The text `s` lies between the two places. -/
def Spans (c : Cursor) (s : List Char) (d : Cursor) : Prop :=
  c.rest = s ++ d.rest ∧ d.offset = c.offset + s.length

variable {c d e : Cursor} {s t : List Char}

@[simp] theorem spans_nil_iff : c.Spans [] d ↔ d = c := by
  cases c; cases d
  simp [Spans, eq_comm, and_comm]

theorem Spans.eq_drop (h : c.Spans s d) : d = c.drop s.length := by
  cases d
  simp_all [Spans, drop]

theorem Spans.rest_eq (h : c.Spans s d) : c.rest = s ++ d.rest := h.1

theorem Spans.head?_eq {x : Char} (h : c.Spans s d) (hs : s.head? = some x) :
    c.rest.head? = some x := by
  rw [h.rest_eq, List.head?_append, hs, Option.some_or]

theorem Spans.length_le (h : c.Spans s d) : s.length ≤ c.rest.length := by
  simp [h.rest_eq]

theorem length_take {n : Nat} (h : n ≤ c.rest.length) : (c.take n).length = n := by
  rw [take, ← String.length_toList, String.toList_ofList, List.length_take, Nat.min_eq_left h]

theorem spans_take {n : Nat} (h : n ≤ c.rest.length) : c.Spans (c.take n).toList (c.drop n) := by
  refine ⟨?_, ?_⟩
  · rw [take, String.toList_ofList, rest_drop, List.take_append_drop]
  · rw [String.length_toList, length_take h, offset_drop]

theorem take_ne_empty {n : Nat} (h : n ≤ c.rest.length) (hn : n ≠ 0) : c.take n ≠ "" := by
  intro hempty
  rw [← length_take h, hempty] at hn
  exact hn rfl

theorem Spans.take_length (h : c.Spans s d) : c.take s.length = .ofList s := by
  simp [take, h.rest_eq]

theorem Spans.reaches (h : c.Spans s d) : c.Reaches d := by
  rw [h.eq_drop]
  exact reaches_drop h.length_le

theorem Spans.precedes (h : c.Spans s d) (hs : s ≠ []) : c.Precedes d := by
  rw [h.eq_drop]
  exact precedes_drop (List.length_pos_iff.2 hs) h.length_le

theorem Spans.trans (h : c.Spans s d) (h' : d.Spans t e) : c.Spans (s ++ t) e := by
  refine ⟨?_, ?_⟩
  · rw [h.rest_eq, h'.rest_eq, List.append_assoc]
  · rw [h'.2, h.2, List.length_append, Nat.add_assoc]

theorem spans_append_iff : c.Spans (s ++ t) e ↔ ∃ d, c.Spans s d ∧ d.Spans t e := by
  constructor
  · rintro ⟨hrest, hoffset⟩
    refine ⟨⟨c.offset + s.length, t ++ e.rest⟩, ⟨?_, rfl⟩, ⟨rfl, ?_⟩⟩
    · rw [hrest, List.append_assoc]
    · rw [hoffset, List.length_append, Nat.add_assoc]
  · rintro ⟨d, h, h'⟩
    exact h.trans h'

theorem Precedes.offset_lt (h : c.Precedes d) : c.offset < d.offset := by
  obtain ⟨n, hpos, -, rfl⟩ := h
  exact Nat.lt_add_of_pos_right hpos

theorem Precedes.rest_ne_nil (h : c.Precedes d) : c.rest ≠ [] := by
  intro hnil
  have hlt := h.length_lt
  rw [hnil] at hlt
  exact Nat.not_lt_zero _ hlt

theorem Reaches.suffix (h : c.Reaches d) : d.rest <:+ c.rest := by
  obtain ⟨n, -, rfl⟩ := h
  exact List.drop_suffix n c.rest

/-- The place is one of the text. -/
structure In (text : List Char) (c : Cursor) : Prop where
  rest_eq : c.rest = text.drop c.offset
  offset_le : c.offset ≤ text.length

namespace In

variable {text : List Char}

theorem eq_ofOffset (h : c.In text) : c = ofOffset text c.offset := by
  cases c
  simpa [ofOffset] using h.rest_eq

theorem of_reaches (h : c.In text) (hd : c.Reaches d) : d.In text := by
  obtain ⟨n, hn, rfl⟩ := hd
  rw [h.rest_eq, List.length_drop] at hn
  refine ⟨by simp [h.rest_eq], ?_⟩
  have := h.offset_le
  rw [offset_drop]
  omega

theorem suffix (h : c.In text) : c.rest <:+ text := by
  rw [h.rest_eq]
  exact List.drop_suffix _ _

theorem offset_eq (h : c.In text) (hend : c.rest = []) : c.offset = text.length := by
  have hle : text.length ≤ c.offset := List.drop_eq_nil_iff.1 (h.rest_eq ▸ hend)
  exact Nat.le_antisymm h.offset_le hle

end In

theorem in_start (text : List Char) : (start text).In text := ⟨rfl, Nat.zero_le _⟩

theorem eat?_eq_some_iff {word : String} : c.eat? word = some d ↔ c.Spans word.toList d := by
  unfold eat? startsWith
  constructor
  · intro h
    split at h
    · next hw =>
      cases h
      obtain ⟨rest, hrest⟩ := List.isPrefixOf_iff_prefix.1 hw
      simp [Spans, ← hrest, String.length_toList]
    · cases h
  · intro h
    have hw : word.toList.isPrefixOf c.rest = true :=
      List.isPrefixOf_iff_prefix.2 ⟨d.rest, h.rest_eq.symm⟩
    rw [if_pos hw, h.eq_drop, String.length_toList]

/-- A word that differs from the text somewhere is not there. -/
theorem eat?_eq_none_of_getElem? {word : String} {i : Nat} {x y : Char}
    (hw : word.toList[i]? = some x) (hc : c.rest[i]? = some y) (hxy : x ≠ y) :
    c.eat? word = none := by
  cases h : c.eat? word with
  | none => rfl
  | some d =>
    rw [eat?_eq_some_iff] at h
    obtain ⟨hi, _⟩ := List.getElem?_eq_some_iff.1 hw
    rw [h.rest_eq, List.getElem?_append_left hi, hw] at hc
    exact absurd (Option.some.inj hc) hxy

theorem eat?_eq_none_of_head {word : String} {x y : Char} (hw : word.toList.head? = some x)
    (hc : c.rest.head? = some y) (hxy : x ≠ y) : c.eat? word = none := by
  rw [List.head?_eq_getElem?] at hw hc
  exact eat?_eq_none_of_getElem? hw hc hxy

-- ---------------------------------------------------------------------------
-- Runs
-- ---------------------------------------------------------------------------

/-- No character of the class follows. -/
def Stops (d : Cursor) (p : Char → Bool) : Prop := ∀ x ∈ d.rest.head?, p x = false

/-- The text `v` is all that follows of one class of characters, and it ends at
    `d`. -/
structure Run (p : Char → Bool) (c : Cursor) (v : String) (d : Cursor) : Prop where
  spans : c.Spans v.toList d
  all : AllChars p v
  stops : d.Stops p

variable {p : Char → Bool} {v : String}

theorem rest_drop_count (c : Cursor) (p : Char → Bool) :
    (c.drop (c.count p)).rest = c.rest.dropWhile p := by
  calc (c.drop (c.count p)).rest
      = (c.rest.takeWhile p ++ c.rest.dropWhile p).drop (c.rest.takeWhile p).length := by
        rw [List.takeWhile_append_dropWhile, rest_drop, count]
    _ = c.rest.dropWhile p := List.drop_left

theorem take_count (c : Cursor) (p : Char → Bool) :
    c.take (c.count p) = .ofList (c.rest.takeWhile p) := by
  rw [take, count, ← List.prefix_iff_eq_take.1 (List.takeWhile_prefix p)]

theorem run_count (c : Cursor) (p : Char → Bool) :
    c.Run p (c.take (c.count p)) (c.drop (c.count p)) where
  spans := spans_take (c.count_le_length p)
  all := by
    unfold AllChars
    rw [take_count, String.toList_ofList]
    exact List.all_eq_true.1 List.all_takeWhile
  stops := by
    intro x hx
    rw [rest_drop_count] at hx
    have h := List.head?_dropWhile_not p c.rest
    rw [hx] at h
    exact h

theorem Run.count_eq (h : c.Run p v d) : c.count p = v.toList.length := by
  have hstop : d.rest.takeWhile p = [] := by
    cases hd : d.rest with
    | nil => rfl
    | cons x xs => exact List.takeWhile_cons_of_neg (by simp [h.stops x (by simp [hd])])
  rw [count, h.spans.rest_eq, List.takeWhile_append_of_pos h.all, hstop, List.append_nil]

theorem take_count_ne_empty (h : c.count p ≠ 0) : c.take (c.count p) ≠ "" :=
  take_ne_empty (c.count_le_length p) h

theorem Run.take_eq (h : c.Run p v d) : c.take (c.count p) = v := by
  rw [h.count_eq, h.spans.take_length, String.ofList_toList]

theorem Run.drop_eq (h : c.Run p v d) : c.drop (c.count p) = d := by
  rw [h.count_eq, ← h.spans.eq_drop]

theorem Run.spans_of_mem {x : Char} (h : c.Run (· != x) v d) (hx : x ∈ c.rest) :
    d.Spans [x] (d.drop 1) := by
  cases hd : d.rest with
  | nil =>
    rw [h.spans.rest_eq, hd, List.append_nil] at hx
    exact absurd (h.all x hx) (by simp)
  | cons y ys =>
    have hy : y = x := by simpa using h.stops y (by simp [hd])
    exact ⟨by simp [hd, hy], rfl⟩

/-- The characters before the first occurrence of `x` are a run. -/
theorem run_of_find? {x : Char} {n : Nat} (h : find? [x] c.rest = some n) :
    c.Run (· != x) (c.take n) (c.drop n) ∧ (c.drop n).Spans [x] (c.drop (n + 1)) := by
  rw [find?_singleton] at h
  split at h <;> cases h
  next hx =>
  have hrun := run_count c (· != x)
  rw [← drop_drop]
  exact ⟨hrun, hrun.spans_of_mem hx⟩

theorem Run.find?_eq {x : Char} (h : c.Run (· != x) v d) (hd : d.Spans [x] e) :
    find? [x] c.rest = some v.toList.length := by
  have hx : x ∈ c.rest := by simp [h.spans.rest_eq, hd.rest_eq]
  rw [find?_singleton, if_pos hx, ← h.count_eq, count]

-- ---------------------------------------------------------------------------
-- Lines and spaces inside a line
-- ---------------------------------------------------------------------------

open Source

theorem run_line (c : Cursor) : c.Run (!isLineEnd ·) c.line c.lineEnd :=
  c.run_count (!isLineEnd ·)

theorem Run.line_eq (h : c.Run (!isLineEnd ·) v d) : c.line = v := h.take_eq

theorem Run.lineEnd_eq (h : c.Run (!isLineEnd ·) v d) : c.lineEnd = d := h.drop_eq

theorem Run.skipInlineSpace_eq (h : c.Run isInlineSpace v d) : c.skipInlineSpace = d := h.drop_eq

/-- A text that moves on over spaces and tabs has a gap of them. -/
theorem exists_gap (h : c.skipInlineSpace.offset ≠ c.offset) :
    ∃ gap, gap ≠ "" ∧ c.Run isInlineSpace gap c.skipInlineSpace := by
  refine ⟨_, take_count_ne_empty (fun hzero => h ?_), c.run_count isInlineSpace⟩
  rw [skipInlineSpace, hzero, drop_zero]

-- ---------------------------------------------------------------------------
-- Noise
-- ---------------------------------------------------------------------------

theorem startsNoise_of_head {x : Char} (hs : s.head? = some x) (hx : isPlain x = true) :
    startsNoise s = false := by
  simp only [isPlain, Bool.and_eq_true, Bool.not_eq_true', bne_iff_ne] at hx
  obtain ⟨⟨hspace, hslash⟩, hhash⟩ := hx
  cases s with
  | nil => cases hs
  | cons y ys =>
    cases hs
    have hcomment : comment? (x :: ys) = none := by
      unfold comment?
      split <;> simp_all
    simp [startsNoise, unit?, hspace, hcomment]

theorem Spans.startsNoise_eq_false {x : Char} (h : c.Spans s d) (hs : s.head? = some x)
    (hx : isPlain x = true) : startsNoise c.rest = false :=
  startsNoise_of_head (h.head?_eq hs) hx

theorem noise_eq_zero (h : startsNoise s = false) : noise s = 0 := by
  have hunit : unit? s = none := by simpa [startsNoise] using h
  unfold noise
  split
  · rfl
  · next heq => rw [hunit] at heq; cases heq

theorem skipNoise_eq_self (h : startsNoise c.rest = false) : c.skipNoise = c := by
  rw [skipNoise, noise_eq_zero h, drop_zero]

/-- One space with no noise behind it is all the noise there is. -/
theorem noise_of_space {x : Char} (h : c.Spans [x] d) (hx : isSpace x = true)
    (hd : startsNoise d.rest = false) : noise c.rest = 1 := by
  have hunit : unit? c.rest = some 1 := by simp [h.rest_eq, unit?, hx]
  unfold noise
  split
  · next heq => rw [hunit] at heq; cases heq
  · next n heq =>
    rw [hunit] at heq
    cases heq
    rw [h.rest_eq, List.singleton_append, List.drop_succ_cons, List.drop_zero, noise_eq_zero hd]

theorem skipNoise_of_space {x : Char} (h : c.Spans [x] d) (hx : isSpace x = true)
    (hd : startsNoise d.rest = false) : c.skipNoise = d := by
  rw [skipNoise, noise_of_space h hx hd, h.eq_drop, List.length_singleton]

theorem noise?_of_space {x : Char} (h : c.Spans [x] d) (hx : isSpace x = true)
    (hd : startsNoise d.rest = false) : c.noise? = some d := by
  have hone := noise_of_space h hx hd
  rw [noise?, if_neg (by rw [hone]; exact Nat.one_ne_zero), skipNoise_of_space h hx hd]

end Cursor

end Text

theorem Source.skipNoise_of_noise? {c d : Text.Cursor} (h : c.noise? = some d) :
    c.skipNoise = d := by
  unfold Text.Cursor.noise? at h
  split at h <;> cases h
  rfl

/-- No noise follows all the noise. -/
theorem Source.startsNoise_drop_noise (s : List Char) :
    startsNoise (s.drop (noise s)) = false := by
  fun_induction noise s with
  | case1 s h => simp [startsNoise, h]
  | case2 s n h ih => rwa [← List.drop_drop]

end ApiStubs
