-- SUMMARY: Texts are decoded from the octets they are encoded as, and raw texts are not encoded.
import ApiStubs.Text.Utf8

/-!
# Encoding

A text is encoded as its UTF-8 octets (`encode_ofString`), and from these it is decoded
(`decode_toUTF8`). A raw text that is no text cannot be encoded. The failure covers the first
octets in it that are no characters (`covers_of_encode_error`).

`chars?_decodeRaw` says that octets are read as a text just if they can be decoded.
-/

namespace ApiStubs.Text

theorem RawText.chars?_ofChars (s : List Char) : (ofChars s).chars? = some s := by
  induction s with
  | nil => rfl
  | cons c s ih =>
    have hcons : ofChars (c :: s) = .char c :: ofChars s := rfl
    rw [hcons, chars?, ih]
    rfl

theorem RawText.eq_ofChars_of_chars? {t : RawText} {s : List Char} (h : t.chars? = some s) :
    t = ofChars s := by
  fun_induction chars? t generalizing s with
  | case1 => cases h; rfl
  | case2 c rest ih =>
    obtain ⟨s', hrest, rfl⟩ := Option.map_eq_some_iff.1 h
    exact congrArg (Symbol.char c :: ·) (ih hrest)
  | case3 b rest => cases h

namespace Utf8

-- ---------------------------------------------------------------------------
-- The octets of one character
-- ---------------------------------------------------------------------------

theorem toNat_ofNat {n : Nat} (h : n < 0x100) : (UInt8.ofNat n).toNat = n := by
  rw [UInt8.toNat_ofNat']
  exact Nat.mod_eq_of_lt h

theorem following?_eq (b : UInt8) :
    following? b =
      if b.toNat < 0x80 then some []
      else if b.toNat < 0xC2 then none
      else if b.toNat < 0xE0 then some [(0x80, 0xBF)]
      else if b.toNat = 0xE0 then some [(0xA0, 0xBF), (0x80, 0xBF)]
      else if b.toNat = 0xED then some [(0x80, 0x9F), (0x80, 0xBF)]
      else if b.toNat < 0xF0 then some [(0x80, 0xBF), (0x80, 0xBF)]
      else if b.toNat = 0xF0 then some [(0x90, 0xBF), (0x80, 0xBF), (0x80, 0xBF)]
      else if b.toNat < 0xF4 then some [(0x80, 0xBF), (0x80, 0xBF), (0x80, 0xBF)]
      else if b.toNat = 0xF4 then some [(0x80, 0x8F), (0x80, 0xBF), (0x80, 0xBF)]
      else none := by
  simp only [following?, UInt8.lt_iff_toNat_lt, ← UInt8.toNat_inj]
  rfl

theorem inOrder_cons {low high b : UInt8} {ranges : List (UInt8 × UInt8)} {bs : List UInt8}
    (hlow : low.toNat ≤ b.toNat) (hhigh : b.toNat ≤ high.toNat) :
    inOrder ((low, high) :: ranges) (b :: bs) = inOrder ranges bs + 1 := by
  rw [inOrder, if_pos]
  simp [UInt8.le_iff_toNat_le, hlow, hhigh]

/-- `b` and the octets `more` after it are read as the character with the code. -/
structure Spells (code : Nat) (b : UInt8) (more : List UInt8) : Prop where
  follow : ∃ ranges, following? b = some ranges ∧ ranges.length = more.length ∧
    ∀ rest, inOrder ranges (more ++ rest) = more.length
  code : codePoint b more = code

/-- The octet with the last six bits of a number, as it follows a first octet. -/
def continuation (n : Nat) : UInt8 := .ofNat (n % 0x40 + 0x80)

theorem toNat_continuation (n : Nat) : (continuation n).toNat = n % 0x40 + 0x80 :=
  toNat_ofNat (by omega)

theorem inOrder_continuations (ns : List Nat) (rest : List UInt8) :
    inOrder (ns.map fun _ => (0x80, 0xBF)) (ns.map continuation ++ rest) = ns.length := by
  induction ns with
  | nil => rfl
  | cons n ns ih =>
    have hn := toNat_continuation n
    rw [List.map_cons, List.map_cons, List.cons_append, List.length_cons, ← ih]
    exact inOrder_cons (hn ▸ Nat.le_add_left ..) (hn ▸ by change _ ≤ 0xBF; omega)

/-- Only the octet right after the first one has a range that depends on it. -/
theorem spells_of_following {code : Nat} {b low high : UInt8} (n : Nat) (ns : List Nat)
    (hfollowing : following? b = some ((low, high) :: ns.map fun _ => (0x80, 0xBF)))
    (hlow : low.toNat ≤ n % 0x40 + 0x80) (hhigh : n % 0x40 + 0x80 ≤ high.toNat)
    (hcode : codePoint b ((n :: ns).map continuation) = code) :
    Spells code b ((n :: ns).map continuation) where
  follow := by
    have hn := toNat_continuation n
    refine ⟨_, hfollowing, by simp, fun rest => ?_⟩
    rw [List.map_cons, List.cons_append, inOrder_cons (hn ▸ hlow) (hn ▸ hhigh),
      inOrder_continuations, List.length_cons, List.length_map]
  code := hcode

theorem spells_one {v : Nat} (h : v ≤ 0x7F) : Spells v (.ofNat v) [] where
  follow := by
    refine ⟨[], ?_, rfl, fun rest => rfl⟩
    rw [following?_eq, toNat_ofNat (by omega), if_pos (by omega)]
  code := toNat_ofNat (by omega)

theorem spells_two {v : Nat} (h : 0x7F < v) (h' : v ≤ 0x7FF) :
    Spells v (.ofNat (v / 64 % 0x20 + 0xC0)) [continuation v] := by
  have hb : (UInt8.ofNat (v / 64 % 0x20 + 0xC0)).toNat = v / 64 % 0x20 + 0xC0 :=
    toNat_ofNat (by omega)
  have hranges : following? (.ofNat (v / 64 % 0x20 + 0xC0)) = some [(0x80, 0xBF)] := by
    rw [following?_eq, hb, if_neg (by omega), if_neg (by omega), if_pos (by omega)]
  refine spells_of_following v [] hranges (Nat.le_add_left ..) ?_ ?_
  · change _ ≤ 0xBF
    omega
  · simp only [codePoint, List.map_cons, List.map_nil, List.length_singleton, List.foldl_cons,
      List.foldl_nil, toNat_continuation, hb]
    omega

/-- The range of the second octet is narrower after two first octets, so that a code is neither
    too small nor one of a surrogate. -/
theorem spells_three {v : Nat} (h : 0x7FF < v) (h' : v ≤ 0xFFFF)
    (hvalid : v < 0xD800 ∨ 0xDFFF < v) :
    Spells v (.ofNat (v / 4096 % 0x10 + 0xE0)) [continuation (v / 64), continuation v] := by
  have hb : (UInt8.ofNat (v / 4096 % 0x10 + 0xE0)).toNat = v / 4096 % 0x10 + 0xE0 :=
    toNat_ofNat (by omega)
  obtain ⟨low, high, hranges, hlow, hhigh⟩ : ∃ low high : UInt8,
      following? (.ofNat (v / 4096 % 0x10 + 0xE0)) = some [(low, high), (0x80, 0xBF)] ∧
        low.toNat ≤ v / 64 % 0x40 + 0x80 ∧ v / 64 % 0x40 + 0x80 ≤ high.toNat := by
    rw [following?_eq, hb, if_neg (by omega), if_neg (by omega), if_neg (by omega)]
    split
    · exact ⟨0xA0, 0xBF, rfl, by change 0xA0 ≤ _; omega, by change _ ≤ 0xBF; omega⟩
    · split
      · exact ⟨0x80, 0x9F, rfl, by change 0x80 ≤ _; omega, by change _ ≤ 0x9F; omega⟩
      · rw [if_pos (by omega)]
        exact ⟨0x80, 0xBF, rfl, by change 0x80 ≤ _; omega, by change _ ≤ 0xBF; omega⟩
  refine spells_of_following (v / 64) [v] hranges hlow hhigh ?_
  simp only [codePoint, List.map_cons, List.map_nil, List.length_cons, List.length_nil,
    List.foldl_cons, List.foldl_nil, toNat_continuation, hb]
  omega

/-- The range of the second octet is narrower after two first octets, so that a code is neither
    too small nor too large. -/
theorem spells_four {v : Nat} (h : 0xFFFF < v) (h' : v < 0x110000) :
    Spells v (.ofNat (v / 262144 % 0x08 + 0xF0))
      [continuation (v / 4096), continuation (v / 64), continuation v] := by
  have hb : (UInt8.ofNat (v / 262144 % 0x08 + 0xF0)).toNat = v / 262144 % 0x08 + 0xF0 :=
    toNat_ofNat (by omega)
  obtain ⟨low, high, hranges, hlow, hhigh⟩ : ∃ low high : UInt8,
      following? (.ofNat (v / 262144 % 0x08 + 0xF0)) =
          some [(low, high), (0x80, 0xBF), (0x80, 0xBF)] ∧
        low.toNat ≤ v / 4096 % 0x40 + 0x80 ∧ v / 4096 % 0x40 + 0x80 ≤ high.toNat := by
    rw [following?_eq, hb, if_neg (by omega), if_neg (by omega), if_neg (by omega),
      if_neg (by omega), if_neg (by omega), if_neg (by omega)]
    split
    · exact ⟨0x90, 0xBF, rfl, by change 0x90 ≤ _; omega, by change _ ≤ 0xBF; omega⟩
    · split
      · exact ⟨0x80, 0xBF, rfl, by change 0x80 ≤ _; omega, by change _ ≤ 0xBF; omega⟩
      · rw [if_pos (by omega)]
        exact ⟨0x80, 0x8F, rfl, by change 0x80 ≤ _; omega, by change _ ≤ 0x8F; omega⟩
  refine spells_of_following (v / 4096) [v / 64, v] hranges hlow hhigh ?_
  simp only [codePoint, List.map_cons, List.map_nil, List.length_cons, List.length_nil,
    List.foldl_cons, List.foldl_nil, toNat_continuation, hb]
  omega

theorem exists_spells (c : Char) :
    ∃ b more, String.utf8EncodeChar c = b :: more ∧ Spells c.toNat b more := by
  have hvalid : c.toNat < 0xD800 ∨ 0xDFFF < c.toNat ∧ c.toNat < 0x110000 := c.valid
  fun_cases String.utf8EncodeChar c with
  | case1 v h => exact ⟨_, _, rfl, spells_one h⟩
  | case2 v h h' => exact ⟨_, _, rfl, spells_two (Nat.lt_of_not_le h) h'⟩
  | case3 v h h' h'' =>
    exact ⟨_, _, rfl, spells_three (Nat.lt_of_not_le h') h'' (hvalid.imp_right And.left)⟩
  | case4 v h h' h'' =>
    have hlarge : 0xFFFF < c.toNat := Nat.lt_of_not_le h''
    exact ⟨_, _, rfl, spells_four hlarge (by omega)⟩

-- ---------------------------------------------------------------------------
-- Decoding what has been encoded
-- ---------------------------------------------------------------------------

/-- The octets of a character are decoded as the character. -/
theorem decodeFrom_utf8EncodeChar (c : Char) (offset : Nat) (rest : List UInt8) :
    decodeFrom offset (String.utf8EncodeChar c ++ rest) =
      (decodeFrom (offset + (String.utf8EncodeChar c).length) rest).map (c :: ·) := by
  obtain ⟨b, more, hencode, ⟨ranges, hfollowing, hlength, horder⟩, hcode⟩ := exists_spells c
  rw [hencode, List.cons_append, decodeFrom, hfollowing]
  dsimp only
  rw [horder, if_pos hlength.symm, List.drop_left, List.take_left, hcode, Char.ofNat_toNat,
    List.length_cons, ← Nat.add_assoc]
  cases decodeFrom (offset + more.length + 1) rest with
  | ok s => rfl
  | error failure => rfl

/-- The octets of a text are decoded as the text. -/
theorem decode_flatMap (s : List Char) : decode (s.flatMap String.utf8EncodeChar) = .ok s := by
  have hfrom (offset : Nat) : decodeFrom offset (s.flatMap String.utf8EncodeChar) = .ok s := by
    induction s generalizing offset with
    | nil => rw [List.flatMap_nil, decodeFrom]
    | cons c s ih => rw [List.flatMap_cons, decodeFrom_utf8EncodeChar, ih]; rfl
  exact hfrom 0

-- ---------------------------------------------------------------------------
-- Encoding
-- ---------------------------------------------------------------------------

theorem encodeFrom_ofChars (offset : Nat) (s : List Char) :
    encodeFrom offset (RawText.ofChars s) = .ok (s.flatMap String.utf8EncodeChar) := by
  induction s generalizing offset with
  | nil => rfl
  | cons c s ih =>
    have hcons : RawText.ofChars (c :: s) = .char c :: RawText.ofChars s := rfl
    rw [hcons, encodeFrom, ih]
    rfl

theorem exists_of_encodeFrom_ok {offset : Nat} {t : RawText} {octets : List UInt8}
    (h : encodeFrom offset t = .ok octets) : ∃ s, t = RawText.ofChars s := by
  induction t generalizing offset octets with
  | nil => exact ⟨[], rfl⟩
  | cons x t ih =>
    cases x with
    | octet b => cases h
    | char c =>
      unfold encodeFrom at h
      split at h <;> cases h
      next hrest =>
      obtain ⟨s, rfl⟩ := ih hrest
      exact ⟨c :: s, rfl⟩

theorem octets_toUTF8 (s : String) :
    s.toUTF8.data.toList = s.toList.flatMap String.utf8EncodeChar := by
  have hbytes : s.toUTF8 = s.toList.utf8Encode := by
    rw [← String.toByteArray_ofList, String.ofList_toList]
    rfl
  rw [hbytes]
  exact List.toList_data_toByteArray

/-- A text is encoded in UTF-8. -/
theorem encode_ofString (s : String) : encode (RawText.ofString s) = .ok s.toUTF8.data.toList := by
  rw [octets_toUTF8]
  exact encodeFrom_ofChars 0 s.toList

/-- A text is decoded from its octets. -/
theorem decode_toUTF8 (s : String) : decode s.toUTF8.data.toList = .ok s.toList := by
  rw [octets_toUTF8]
  exact decode_flatMap s.toList

/-- Only a text can be encoded. -/
theorem exists_of_encode_ok {t : RawText} {octets : List UInt8} (h : encode t = .ok octets) :
    ∃ s : String, t = RawText.ofString s ∧ octets = s.toUTF8.data.toList := by
  obtain ⟨s, hs⟩ := exists_of_encodeFrom_ok h
  have ht : t = RawText.ofString (.ofList s) := by
    rw [hs, RawText.ofString, String.toList_ofList]
  rw [ht, encode_ofString] at h
  exact ⟨.ofList s, ht, (Except.ok.inj h).symm⟩

theorem leadingOctets_append (t : RawText) :
    ∃ after, t = (leadingOctets t).map .octet ++ after ∧ leadingOctets after = [] := by
  fun_induction leadingOctets t with
  | case1 b rest ih =>
    obtain ⟨after, hrest, hafter⟩ := ih
    exact ⟨after, congrArg (Symbol.octet b :: ·) hrest, hafter⟩
  | case2 t ht =>
    refine ⟨t, rfl, ?_⟩
    unfold leadingOctets
    split
    · next b rest => exact absurd rfl (ht b rest)
    · rfl

/-- The failure covers the first octets in the text that are no characters. -/
structure Unencodable.Covers (u : Unencodable) (t : RawText) : Prop where
  place : ∃ before after, t = RawText.ofChars before ++ u.octets.map .octet ++ after ∧
    u.offset = before.length ∧ leadingOctets after = []
  nonempty : u.octets ≠ []

theorem encodeFrom_error {offset : Nat} {t : RawText} {u : Unencodable}
    (h : encodeFrom offset t = .error u) :
    ∃ before after, t = RawText.ofChars before ++ u.octets.map .octet ++ after ∧
      u.offset = offset + before.length ∧ leadingOctets after = [] ∧ u.octets ≠ [] := by
  induction t generalizing offset with
  | nil => cases h
  | cons x t ih =>
    cases x with
    | octet b =>
      cases h
      obtain ⟨after, ht, hafter⟩ := leadingOctets_append t
      refine ⟨[], after, ?_, rfl, hafter, nofun⟩
      exact congrArg (Symbol.octet b :: ·) ht
    | char c =>
      unfold encodeFrom at h
      split at h <;> cases h
      next hrest =>
      obtain ⟨before, after, ht, hoffset, hafter, hne⟩ := ih hrest
      refine ⟨c :: before, after, congrArg (Symbol.char c :: ·) ht, ?_, hafter, hne⟩
      rw [hoffset, List.length_cons]
      omega

theorem covers_of_encode_error {t : RawText} {u : Unencodable} (h : encode t = .error u) :
    u.Covers t := by
  obtain ⟨before, after, ht, hoffset, hafter, hne⟩ := encodeFrom_error h
  exact ⟨⟨before, after, ht, hoffset.trans (Nat.zero_add _), hafter⟩, hne⟩

theorem Unencodable.not_covers_ofString {u : Unencodable} {s : String} :
    ¬ u.Covers (RawText.ofString s) := by
  rintro ⟨⟨before, after, ht, -, -⟩, hne⟩
  obtain ⟨b, octets, hoctets⟩ := List.exists_cons_of_ne_nil hne
  have hmem : Symbol.octet b ∈ RawText.ofString s := by
    rw [ht, hoctets]
    simp
  obtain ⟨c, -, hc⟩ := List.mem_map.1 hmem
  cases hc

-- ---------------------------------------------------------------------------
-- Raw texts
-- ---------------------------------------------------------------------------

/-- A text is read from octets without anything but characters in it just if the octets can be
    decoded. -/
theorem chars?_decodeRaw (offset : Nat) (octets : List UInt8) :
    (decodeRaw octets).chars? = (decodeFrom offset octets).toOption := by
  fun_induction decodeRaw octets generalizing offset with
  | case1 => rw [decodeFrom]; rfl
  | case2 b bs hfollowing => rw [decodeFrom, hfollowing]; rfl
  | case3 b bs ranges hfollowing n hn ih =>
    rw [RawText.chars?, ih (offset + n + 1), decodeFrom, hfollowing]
    dsimp only
    rw [if_pos hn]
    cases decodeFrom (offset + n + 1) (bs.drop n) with
    | ok s => rfl
    | error failure => rfl
  | case4 b bs ranges hfollowing n hn =>
    rw [decodeFrom, hfollowing]
    dsimp only
    rw [if_neg hn]
    split <;> rfl

theorem decodeRaw_of_decode {octets : List UInt8} {s : List Char} (h : decode octets = .ok s) :
    decodeRaw octets = RawText.ofChars s := by
  have hchars := chars?_decodeRaw 0 octets
  rw [show decodeFrom 0 octets = .ok s from h] at hchars
  exact RawText.eq_ofChars_of_chars? hchars

end Utf8

end ApiStubs.Text
