-- SUMMARY: Every name becomes an identifier of the generated code.
import ApiStubs.Naming.Generated
import ApiStubs.Proofs.Spans

/-!
# Identifiers

Whatever a template calls its endpoints and parameters, the generated code gets an
identifier for them: letters, digits and underscores of ASCII, with no digit in front, and
no word that has a meaning of its own.

Different names may become one identifier. `identifier_eq_iff` says which ones: names that
differ only in characters that an identifier cannot hold, and a name spelled like the
identifier of another one that gets an underscore for protection. A name that is an
identifier already stays as it is.
-/

namespace ApiStubs.Naming

open Text

/-- An identifier that the generated code is free to use. -/
structure IsIdentifier (s : String) : Prop where
  nonempty : s ≠ ""
  chars : AllChars isIdentifierChar s
  lead : ∀ c ∈ s.toList.head?, c.isDigit = false
  notKeyword : s ∉ keywords
  notClassName : s ∉ classNames

theorem isIdentifierChar_of_mem_cleaned {name : List Char} {c : Char} (h : c ∈ cleaned name) :
    isIdentifierChar c = true := by
  obtain ⟨x, -, rfl⟩ := List.mem_map.1 h
  split
  · assumption
  · rfl

theorem withLead_ne_nil (name : List Char) : withLead name ≠ [] := by
  unfold withLead
  split
  · simp
  · split <;> simp

theorem mem_withLead {name : List Char} {c : Char} (h : c ∈ withLead name) :
    c = '_' ∨ c ∈ name := by
  unfold withLead at h
  split at h
  · simpa using h
  · split at h
    · simpa using h
    · exact .inr h

theorem isDigit_head?_withLead (name : List Char) :
    ∀ c ∈ (withLead name).head?, c.isDigit = false := by
  intro c hc
  unfold withLead at hc
  split at hc
  · cases hc; rfl
  · split at hc
    · cases hc; rfl
    · next hdigit => cases hc; simpa using hdigit

theorem isTaken_eq_false_iff {s : String} :
    isTaken s = false ↔ s ∉ keywords ∧ s ∉ classNames := by
  simp [isTaken]

theorem mem_of_isTaken {s : String} (h : isTaken s = true) : s ∈ keywords ++ classNames := by
  simpa [isTaken] using h

/-- An underscore makes a taken word free. -/
theorem isTaken_append_underscore {s : String} (h : isTaken s = true) :
    isTaken (s ++ "_") = false := by
  have hall : ∀ word ∈ keywords ++ classNames, isTaken (word ++ "_") = false := by decide +kernel
  exact hall s (mem_of_isTaken h)

theorem isTaken_identifier (name : String) : isTaken (identifier name) = false := by
  unfold identifier
  dsimp only
  split
  · next htaken => exact isTaken_append_underscore htaken
  · next htaken => simpa using htaken

theorem toList_identifier_eq (name : String) :
    (identifier name).toList =
      if isTaken (.ofList (withLead (cleaned name.toList))) then
        withLead (cleaned name.toList) ++ ['_']
      else withLead (cleaned name.toList) := by
  unfold identifier
  dsimp only
  split
  · rw [String.toList_append, String.toList_ofList]
    rfl
  · rw [String.toList_ofList]

/-- The identifier of a name is the name with a lead, or that and an underscore. -/
theorem toList_identifier (name : String) :
    ∃ tail, (identifier name).toList = withLead (cleaned name.toList) ++ tail ∧
      ∀ c ∈ tail, c = '_' := by
  rw [toList_identifier_eq]
  split
  · exact ⟨['_'], rfl, by simp⟩
  · exact ⟨[], (List.append_nil _).symm, by simp⟩

theorem isIdentifier_identifier (name : String) : IsIdentifier (identifier name) := by
  obtain ⟨tail, htoList, htail⟩ := toList_identifier name
  obtain ⟨hkeyword, hclass⟩ := isTaken_eq_false_iff.1 (isTaken_identifier name)
  have hlead := withLead_ne_nil (cleaned name.toList)
  refine ⟨?_, ?_, ?_, hkeyword, hclass⟩
  · intro hempty
    rw [hempty] at htoList
    exact hlead (List.append_eq_nil_iff.1 htoList.symm).1
  · intro c hc
    rw [htoList, List.mem_append] at hc
    rcases hc with hc | hc
    · rcases mem_withLead hc with rfl | hc
      · rfl
      · exact isIdentifierChar_of_mem_cleaned hc
    · rw [htail c hc]
      rfl
  · have hdigit := isDigit_head?_withLead (cleaned name.toList)
    obtain ⟨x, xs, hcons⟩ := List.exists_cons_of_ne_nil hlead
    rw [hcons] at htoList hdigit
    rw [htoList]
    exact hdigit

-- ---------------------------------------------------------------------------
-- Names of one identifier
-- ---------------------------------------------------------------------------

/-- Whether a word is nothing or begins with a digit. -/
def needsLead (word : List Char) : Bool := word.head?.all Char.isDigit

/-- How a word is written that is no identifier as it is. -/
inductive Protects (word : List Char) : List Char → Prop where
  | lead (h : needsLead word = true) : Protects word ('_' :: word)
  | tail (h : isTaken (.ofList word) = true) : Protects word (word ++ ['_'])

/-- A word of identifier characters that is an identifier as it is. -/
structure Stands (word : List Char) : Prop where
  lead : needsLead word = false
  free : isTaken (.ofList word) = false

theorem needsLead_underscore (word : List Char) : needsLead ('_' :: word) = false := rfl

/-- The words with a meaning of their own begin with a letter. -/
theorem exists_letter_of_isTaken {word : List Char} (h : isTaken (.ofList word) = true) :
    ∃ c cs, word = c :: cs ∧ c.isAlpha = true := by
  have hall : ∀ w ∈ keywords ++ classNames, w.toList.head?.any Char.isAlpha = true := by
    decide +kernel
  have hhead := hall _ (mem_of_isTaken h)
  rw [String.toList_ofList] at hhead
  cases word with
  | nil => cases hhead
  | cons c cs => exact ⟨c, cs, rfl, hhead⟩

theorem needsLead_of_isTaken {word : List Char} (h : isTaken (.ofList word) = true) :
    needsLead word = false := by
  have hall : ∀ w ∈ keywords ++ classNames, needsLead w.toList = false := by decide +kernel
  have hword := hall _ (mem_of_isTaken h)
  rwa [String.toList_ofList] at hword

theorem isTaken_underscore (word : List Char) : isTaken (.ofList ('_' :: word)) = false := by
  rw [← Bool.not_eq_true]
  intro htaken
  obtain ⟨c, cs, hcons, hletter⟩ := exists_letter_of_isTaken htaken
  cases hcons
  cases hletter

namespace Protects

variable {v v' w w' : List Char}

theorem stands (h : Protects v w) : Stands w := by
  cases h with
  | lead => exact ⟨needsLead_underscore v, isTaken_underscore v⟩
  | tail h =>
    have hlead := needsLead_of_isTaken h
    obtain ⟨c, cs, rfl, hletter⟩ := exists_letter_of_isTaken h
    refine ⟨hlead, ?_⟩
    rw [String.ofList_append]
    exact isTaken_append_underscore h

theorem not_stands (h : Protects v w) : ¬ Stands v := by
  rintro ⟨hlead, hfree⟩
  cases h with
  | lead h => exact absurd (h.symm.trans hlead) nofun
  | tail h => exact absurd (h.symm.trans hfree) nofun

theorem eq_right (h : Protects v w) (h' : Protects v w') : w = w' := by
  cases h with
  | lead h =>
    cases h' with
    | lead => rfl
    | tail h' => exact absurd (h.symm.trans (needsLead_of_isTaken h')) nofun
  | tail h =>
    cases h' with
    | lead h' => exact absurd (h'.symm.trans (needsLead_of_isTaken h)) nofun
    | tail => rfl

theorem eq_left (h : Protects v w) (h' : Protects v' w) : v = v' := by
  cases h with
  | lead =>
    generalize hw : '_' :: v = w at h'
    cases h' with
    | lead => exact List.tail_eq_of_cons_eq hw
    | tail h' =>
      -- A protected word begins with its own first letter.
      obtain ⟨c, cs, rfl, hletter⟩ := exists_letter_of_isTaken h'
      cases hw
      cases hletter
  | tail h =>
    generalize hw : v ++ ['_'] = w at h'
    cases h' with
    | lead =>
      obtain ⟨c, cs, rfl, hletter⟩ := exists_letter_of_isTaken h
      cases hw
      cases hletter
    | tail => exact List.append_cancel_right hw

end Protects

theorem withLead_eq (word : List Char) :
    withLead word = if needsLead word then '_' :: word else word := by
  cases word with
  | nil => rfl
  | cons c cs => rfl

/-- An identifier is its name, or what protects it. -/
theorem identifier_cases (name : String) :
    Protects (cleaned name.toList) (identifier name).toList ∨
      Stands (cleaned name.toList) ∧ (identifier name).toList = cleaned name.toList := by
  rw [toList_identifier_eq, withLead_eq]
  generalize cleaned name.toList = word
  cases hlead : needsLead word with
  | true =>
    simp only [if_true, isTaken_underscore, Bool.false_eq_true, if_false]
    exact .inl (.lead hlead)
  | false =>
    simp only [Bool.false_eq_true, if_false]
    cases htaken : isTaken (.ofList word) with
    | true => exact .inl (.tail htaken)
    | false => exact .inr ⟨⟨hlead, htaken⟩, rfl⟩

theorem identifier_of_stands {name : String} (h : Stands (cleaned name.toList)) :
    (identifier name).toList = cleaned name.toList :=
  (identifier_cases name).elim (fun hprotects => absurd h hprotects.not_stands) (·.2)

theorem identifier_of_protects {name : String} {word : List Char}
    (h : Protects (cleaned name.toList) word) : (identifier name).toList = word :=
  (identifier_cases name).elim (fun hprotects => hprotects.eq_right h)
    (fun hstands => absurd hstands.1 h.not_stands)

/-- The two names become one identifier: only characters that it cannot hold tell them
    apart, or one is spelled like the other one with its protection. -/
def SameIdentifier (a b : String) : Prop :=
  cleaned a.toList = cleaned b.toList ∨
    Protects (cleaned a.toList) (cleaned b.toList) ∨ Protects (cleaned b.toList) (cleaned a.toList)

theorem identifier_eq_iff {a b : String} : identifier a = identifier b ↔ SameIdentifier a b := by
  rw [← String.toList_inj]
  constructor
  · intro h
    have hb := identifier_cases b
    rw [← h] at hb
    rcases identifier_cases a with ha | ⟨-, ha⟩ <;> rcases hb with hb | ⟨-, hb⟩
    · exact .inl (ha.eq_left hb)
    · rw [hb] at ha
      exact .inr (.inl ha)
    · rw [ha] at hb
      exact .inr (.inr hb)
    · exact .inl (ha.symm.trans hb)
  · rintro (h | h | h)
    · rw [toList_identifier_eq, toList_identifier_eq, h]
    · rw [identifier_of_protects h, identifier_of_stands h.stands]
    · rw [identifier_of_protects h, identifier_of_stands h.stands]

/-- Only one spelling becomes an identifier that begins with an underscore and has no need
    of it. -/
theorem identifier_eq_underscore_iff {name : String} {word : List Char}
    (h : needsLead word = false) :
    (identifier name).toList = '_' :: word ↔ cleaned name.toList = '_' :: word := by
  constructor
  · intro heq
    rcases identifier_cases name with hprotects | ⟨-, hname⟩
    · rw [heq] at hprotects
      generalize cleaned name.toList = v at hprotects
      generalize hw : '_' :: word = w at hprotects
      cases hprotects with
      | lead hlead =>
        cases hw
        exact absurd (hlead.symm.trans h) nofun
      | tail htaken =>
        obtain ⟨c, cs, rfl, hletter⟩ := exists_letter_of_isTaken htaken
        cases hw
        cases hletter
    · exact hname.symm.trans heq
  · intro heq
    rw [identifier_of_stands, heq]
    rw [heq]
    exact ⟨needsLead_underscore word, isTaken_underscore word⟩

theorem isIdentifier_methodName (endpoint : String) : IsIdentifier (methodName endpoint) :=
  isIdentifier_identifier (snakeCase endpoint)

-- ---------------------------------------------------------------------------
-- Names that stay
-- ---------------------------------------------------------------------------

theorem isIdentifierChar_iff {c : Char} :
    isIdentifierChar c = true ↔
      'A' ≤ c ∧ c ≤ 'Z' ∨ 'a' ≤ c ∧ c ≤ 'z' ∨ '0' ≤ c ∧ c ≤ '9' ∨ c = '_' := by
  change (decide ('A'.val ≤ c.val ∧ c.val ≤ 'Z'.val) ||
    (decide ('a'.val ≤ c.val) && decide (c.val ≤ 'z'.val)) ||
    (decide ('0'.val ≤ c.val) && decide (c.val ≤ '9'.val)) || c == '_') = true ↔ _
  simp only [Bool.or_eq_true, Bool.and_eq_true, decide_eq_true_eq, beq_iff_eq, or_assoc]
  exact Iff.rfl

theorem cleaned_eq_self {s : String} (h : AllChars isIdentifierChar s) :
    cleaned s.toList = s.toList :=
  calc
    cleaned s.toList = s.toList.map id := List.map_congr_left fun c hc => if_pos (h c hc)
    _ = s.toList := List.map_id _

theorem needsLead_of_isIdentifier {s : String} (h : IsIdentifier s) :
    needsLead s.toList = false := by
  have hlead := h.lead
  cases hs : s.toList with
  | nil => exact absurd (String.toList_inj.1 (hs.trans rfl)) h.nonempty
  | cons c cs =>
    rw [hs] at hlead
    exact hlead c rfl

namespace IsIdentifier

variable {s : String}

theorem stands (h : IsIdentifier s) : Stands s.toList where
  lead := needsLead_of_isIdentifier h
  free := by
    rw [String.ofList_toList]
    exact isTaken_eq_false_iff.2 ⟨h.notKeyword, h.notClassName⟩

/-- None of the repairs applies to an identifier. -/
theorem identifier_eq (h : IsIdentifier s) : identifier s = s := by
  have hcleaned := cleaned_eq_self h.chars
  have hstands : Stands (cleaned s.toList) := by
    rw [hcleaned]
    exact h.stands
  rw [← String.toList_inj, identifier_of_stands hstands, hcleaned]

end IsIdentifier

/-- Every name becomes an identifier, made of the letters and digits of ASCII and underscores.
    Identifiers become themselves, and no other name does. -/
theorem identifier_usable_and_stable (name : String) :
    IsIdentifier (identifier name) ∧
    (∀ c, isIdentifierChar c = true ↔
      'A' ≤ c ∧ c ≤ 'Z' ∨ 'a' ≤ c ∧ c ≤ 'z' ∨ '0' ≤ c ∧ c ≤ '9' ∨ c = '_') ∧
    identifier (identifier name) = identifier name ∧
    (identifier name = name ↔ IsIdentifier name) := by
  refine ⟨isIdentifier_identifier name, fun _ => isIdentifierChar_iff, ?_, ?_, ?_⟩
  · exact (isIdentifier_identifier name).identifier_eq
  · intro h
    rw [← h]
    exact isIdentifier_identifier name
  · exact IsIdentifier.identifier_eq

end ApiStubs.Naming
