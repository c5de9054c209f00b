-- SUMMARY: The letters and digits of a name survive in its generated form.
import ApiStubs.Proofs.Identifiers

/-!
# Letters of names

On its way into generated code a name gets underscores, is put into small letters and loses
the characters that an identifier cannot hold. Its letters and digits stay, in order and in
small letters. So names that differ in more than case and other characters become different
identifiers (`letters_eq_of_methodName_eq`).
-/

namespace ApiStubs.Naming

open Text

/-- The letters and digits of ASCII that a name holds in small letters. -/
def letters (name : String) : List Char := (lowercase name.toList).filter Char.isAlphanum

-- ---------------------------------------------------------------------------
-- Dividing a name
-- ---------------------------------------------------------------------------

theorem filter_divideRun (s : List Char) :
    (divideRun s).filter (· ≠ '_') = s.filter (· ≠ '_') := by
  fun_induction divideRun s with
  | case1 => rfl
  | case2 c => rfl
  | case3 c d => simp [List.filter_cons]
  | case4 c d cs _ ih => simp only [List.filter_cons, ih]

/-- Dividing the runs of capitals adds underscores only. -/
theorem filter_divideRuns (s : List Char) :
    (divideRuns s).filter (· ≠ '_') = s.filter (· ≠ '_') := by
  fun_induction divideRuns s with
  | case1 => rfl
  | case2 c cs hupper run rest ih =>
    have hrun : run ++ rest = c :: cs := by
      simp only [run, rest, List.cons_append, List.takeWhile_append_dropWhile]
    rw [List.filter_append, ih, ← hrun, List.filter_append]
    congr 1
    split
    · exact filter_divideRun run
    · rfl
  | case3 c cs hupper ih => simp only [List.filter_cons, ih]

/-- Dividing words adds underscores only. -/
theorem filter_divideWords (s : List Char) :
    (divideWords s).filter (· ≠ '_') = s.filter (· ≠ '_') := by
  fun_induction divideWords s with
  | case1 => rfl
  | case2 c => rfl
  | case3 c d cs hword ih =>
    have hbar : ('_' :: divideWords (d :: cs)).filter (· ≠ '_') = (d :: cs).filter (· ≠ '_') :=
      (List.filter_cons_of_neg (by simp)).trans ih
    rw [List.filter_cons (x := c), hbar, List.filter_cons (x := c)]
  | case4 c d cs hword ih => rw [List.filter_cons (x := c), ih, List.filter_cons (x := c)]

theorem head?_divideRun (s : List Char) : (divideRun s).head? = s.head? := by
  fun_induction divideRun s <;> rfl

theorem head?_divideRuns (s : List Char) : (divideRuns s).head? = s.head? := by
  fun_cases divideRuns s with
  | case1 => rfl
  | case2 c cs hupper run rest =>
    rw [List.head?_append]
    split
    · rw [head?_divideRun]
      rfl
    · rfl
  | case3 c cs hupper => rfl

theorem head?_divideWords (s : List Char) : (divideWords s).head? = s.head? := by
  fun_induction divideWords s <;> rfl

-- ---------------------------------------------------------------------------
-- Small letters
-- ---------------------------------------------------------------------------

/-- Which sigma is written depends on its neighbours, but no sigma is a letter of ASCII. -/
theorem filter_lowercaseAfter (before s : List Char) :
    (lowercaseAfter before s).filter Char.isAlphanum =
      s.flatMap fun c => (lowercaseChar c).filter Char.isAlphanum := by
  induction s generalizing before with
  | nil => rfl
  | cons c cs ih =>
    rw [lowercaseAfter, List.filter_append, ih, List.flatMap_cons]
    congr 1
    split
    · next hsigma =>
      have hc : c = 'Σ' := Char.toNat_inj.1 hsigma
      subst hc
      split <;> decide +kernel
    · rfl

/-- Underscores do not change the letters of a name. -/
theorem filter_lowercase_congr {s t : List Char}
    (h : s.filter (· ≠ '_') = t.filter (· ≠ '_')) :
    (lowercase s).filter Char.isAlphanum = (lowercase t).filter Char.isAlphanum := by
  have hbars (u : List Char) : (lowercase u).filter Char.isAlphanum =
      (u.filter (· ≠ '_')).flatMap fun c => (lowercaseChar c).filter Char.isAlphanum := by
    rw [lowercase, filter_lowercaseAfter]
    induction u with
    | nil => rfl
    | cons c cs ih =>
      rw [List.flatMap_cons, ih, List.filter_cons]
      split
      · rw [List.flatMap_cons]
      · next hbar =>
        have hc : c = '_' := by simpa using hbar
        subst hc
        rfl
  rw [hbars, hbars, h]

theorem filter_snakeCaseChars (s : List Char) :
    (snakeCaseChars s).filter Char.isAlphanum = (lowercase s).filter Char.isAlphanum :=
  filter_lowercase_congr ((filter_divideWords _).trans (filter_divideRuns s))

theorem toNat_of_isAlphanum {c : Char} (h : c.isAlphanum = true) : c.toNat < 0x80 := by
  change (decide ('A'.val ≤ c.val ∧ c.val ≤ 'Z'.val) ||
    (decide ('a'.val ≤ c.val) && decide (c.val ≤ 'z'.val)) ||
    (decide ('0'.val ≤ c.val) && decide (c.val ≤ '9'.val))) = true at h
  simp only [Bool.or_eq_true, Bool.and_eq_true, decide_eq_true_eq, UInt32.le_iff_toNat_le] at h
  change c.val.toNat < 0x80
  rcases h with (⟨-, h⟩ | ⟨-, h⟩) | ⟨-, h⟩ <;> exact Nat.lt_of_le_of_lt h (by decide)

theorem isAlphanum_toLower {c : Char} (h : c.isAlphanum = true) : c.toLower.isAlphanum = true := by
  have hall : ∀ n < 0x80, (Char.ofNat n).isAlphanum = true →
      (Char.ofNat n).toLower.isAlphanum = true := by
    decide +kernel
  have hc := hall c.toNat (toNat_of_isAlphanum h)
  rw [Char.ofNat_toNat] at hc
  exact hc h

/-- The snake case of a name that begins with a letter or digit begins with one. -/
theorem exists_head_snakeCaseChars {c : Char} {s : List Char} (hhead : s.head? = some c)
    (h : c.isAlphanum = true) :
    ∃ d ds, snakeCaseChars s = d :: ds ∧ d.isAlphanum = true := by
  have hdivided : (divideWords (divideRuns s)).head? = some c := by
    rw [head?_divideWords, head?_divideRuns, hhead]
  obtain ⟨cs, hcs⟩ := List.head?_eq_some_iff.1 hdivided
  have hascii := toNat_of_isAlphanum h
  refine ⟨c.toLower, lowercaseAfter [c] cs, ?_, isAlphanum_toLower h⟩
  unfold snakeCaseChars lowercase
  rw [hcs, lowercaseAfter, if_neg (by omega), lowercaseChar_of_ascii hascii]
  rfl

-- ---------------------------------------------------------------------------
-- Identifiers
-- ---------------------------------------------------------------------------

theorem filter_cleaned (s : List Char) :
    (cleaned s).filter Char.isAlphanum = s.filter Char.isAlphanum := by
  induction s with
  | nil => rfl
  | cons c cs ih =>
    have hcons : cleaned (c :: cs) = (if isIdentifierChar c then c else '_') :: cleaned cs := rfl
    rw [hcons, List.filter_cons, ih, List.filter_cons]
    split
    · rfl
    · next hchar =>
      have hletter : c.isAlphanum = false := by
        simp [isIdentifierChar] at hchar
        exact hchar.1
      rw [hletter]
      rfl

/-- Protection adds no letter and no digit. -/
theorem filter_identifier (name : String) :
    (identifier name).toList.filter Char.isAlphanum = name.toList.filter Char.isAlphanum := by
  rw [← filter_cleaned name.toList]
  rcases identifier_cases name with hprotects | ⟨-, heq⟩
  · generalize (identifier name).toList = word at hprotects
    cases hprotects with
    | lead => rfl
    | tail =>
      rw [List.filter_append]
      exact List.append_nil _
  · rw [heq]

/-- Names of one identifier have the same letters and digits, apart from case. -/
theorem letters_eq_of_methodName_eq {a b : String} (h : methodName a = methodName b) :
    letters a = letters b := by
  have hletters (name : String) : (methodName name).toList.filter Char.isAlphanum =
      letters name := by
    unfold methodName
    rw [filter_identifier, snakeCase, String.toList_ofList, filter_snakeCaseChars]
    rfl
  rw [← hletters a, ← hletters b, h]

end ApiStubs.Naming
