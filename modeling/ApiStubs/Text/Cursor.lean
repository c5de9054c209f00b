-- SUMMARY: A place in a text: how much lies before it and what follows.

/-!
# Cursors

A cursor is a place in a text. It knows how many characters lie before it and
which characters follow. Reading finds a number of characters at the front of
`rest` and drops them, so every place that a reading reaches from `c` is
`c.drop n` for some `n`.

The lexical functions below take the characters that follow and answer with the
length of what they find.
-/

namespace ApiStubs.Text

structure Cursor where
  offset : Nat
  rest : List Char
deriving DecidableEq, Repr

/-- The number of characters before the first occurrence of `word`. -/
def find? (word : List Char) : List Char → Option Nat
  | [] => if word.isEmpty then some 0 else none
  | c :: cs => if word.isPrefixOf (c :: cs) then some 0 else (find? word cs).map (· + 1)

theorem length_le_of_find? {word s : List Char} {n : Nat} (h : find? word s = some n) :
    n + word.length ≤ s.length := by
  induction s generalizing n with
  | nil =>
    simp only [find?] at h
    split at h
    · next hw => cases h; simp [List.isEmpty_iff.1 hw]
    · cases h
  | cons c cs ih =>
    simp only [find?] at h
    split at h
    · next hp =>
      cases h
      simpa using (List.isPrefixOf_iff_prefix.1 hp).length_le
    · obtain ⟨k, hk, rfl⟩ := Option.map_eq_some_iff.1 h
      have := ih hk
      simp only [List.length_cons]
      omega

namespace Cursor

/-- The beginning of the text. -/
def start (text : List Char) : Cursor := ⟨0, text⟩

/-- The place after `offset` characters. Beyond the end nothing follows. -/
def ofOffset (text : List Char) (offset : Nat) : Cursor := ⟨offset, text.drop offset⟩

/-- The place `n` characters further on. -/
def drop (c : Cursor) (n : Nat) : Cursor := ⟨c.offset + n, c.rest.drop n⟩

/-- The text of the next `n` characters. -/
def take (c : Cursor) (n : Nat) : String := .ofList (c.rest.take n)

def atEnd (c : Cursor) : Bool := c.rest.isEmpty

def startsWith (c : Cursor) (word : String) : Bool := word.toList.isPrefixOf c.rest

/-- The place after `word`, if `word` comes next. -/
def eat? (c : Cursor) (word : String) : Option Cursor :=
  if c.startsWith word then some (c.drop word.length) else none

/-- The number of characters at the front that satisfy `p`. -/
def count (c : Cursor) (p : Char → Bool) : Nat := (c.rest.takeWhile p).length

@[simp] theorem offset_drop (c : Cursor) (n : Nat) : (c.drop n).offset = c.offset + n := rfl

@[simp] theorem rest_drop (c : Cursor) (n : Nat) : (c.drop n).rest = c.rest.drop n := rfl

@[simp] theorem drop_zero (c : Cursor) : c.drop 0 = c := rfl

@[simp] theorem drop_drop (c : Cursor) (m n : Nat) : (c.drop m).drop n = c.drop (m + n) := by
  simp [drop, Nat.add_assoc]

/-! ## Order of places

`c.Reaches d` says that `d` is a place of the same text at or after `c`, and
`c.Precedes d` that it lies after `c`. -/

def Reaches (c d : Cursor) : Prop := ∃ n, n ≤ c.rest.length ∧ d = c.drop n

def Precedes (c d : Cursor) : Prop := ∃ n, 0 < n ∧ n ≤ c.rest.length ∧ d = c.drop n

theorem reaches_drop {c : Cursor} {n : Nat} (h : n ≤ c.rest.length) : c.Reaches (c.drop n) :=
  ⟨n, h, rfl⟩

theorem precedes_drop {c : Cursor} {n : Nat} (hn : 0 < n) (h : n ≤ c.rest.length) :
    c.Precedes (c.drop n) :=
  ⟨n, hn, h, rfl⟩

theorem Reaches.refl (c : Cursor) : c.Reaches c := ⟨0, by simp, by simp⟩

theorem Precedes.reaches {c d : Cursor} (h : c.Precedes d) : c.Reaches d := by
  obtain ⟨n, _, hn, rfl⟩ := h
  exact ⟨n, hn, rfl⟩

theorem Reaches.trans {c d e : Cursor} (h : c.Reaches d) (h' : d.Reaches e) : c.Reaches e := by
  obtain ⟨m, hm, rfl⟩ := h
  obtain ⟨n, hn, rfl⟩ := h'
  simp only [rest_drop, List.length_drop] at hn
  exact ⟨m + n, by omega, by simp⟩

theorem Precedes.trans_reaches {c d e : Cursor} (h : c.Precedes d) (h' : d.Reaches e) :
    c.Precedes e := by
  obtain ⟨m, hpos, hm, rfl⟩ := h
  obtain ⟨n, hn, rfl⟩ := h'
  simp only [rest_drop, List.length_drop] at hn
  exact ⟨m + n, by omega, by omega, by simp⟩

theorem Reaches.trans_precedes {c d e : Cursor} (h : c.Reaches d) (h' : d.Precedes e) :
    c.Precedes e := by
  obtain ⟨m, hm, rfl⟩ := h
  obtain ⟨n, hpos, hn, rfl⟩ := h'
  simp only [rest_drop, List.length_drop] at hn
  exact ⟨m + n, by omega, by omega, by simp⟩

theorem Precedes.length_lt {c d : Cursor} (h : c.Precedes d) : d.rest.length < c.rest.length := by
  obtain ⟨n, hpos, hn, rfl⟩ := h
  simp only [rest_drop, List.length_drop]
  omega

theorem count_le_length (c : Cursor) (p : Char → Bool) : c.count p ≤ c.rest.length := by
  simpa [count] using (List.takeWhile_sublist p).length_le

theorem eat?_reaches {c d : Cursor} {word : String} (h : c.eat? word = some d) : c.Reaches d := by
  unfold eat? at h
  split at h
  · next hw =>
    cases h
    refine reaches_drop ?_
    simpa [String.length_toList] using (List.isPrefixOf_iff_prefix.1 hw).length_le
  · cases h

theorem eat?_precedes {c d : Cursor} {word : String} (hw : 0 < word.length)
    (h : c.eat? word = some d) : c.Precedes d := by
  unfold eat? at h
  split at h
  · next hp =>
    cases h
    refine precedes_drop hw ?_
    simpa [String.length_toList] using (List.isPrefixOf_iff_prefix.1 hp).length_le
  · cases h

end Cursor

end ApiStubs.Text
