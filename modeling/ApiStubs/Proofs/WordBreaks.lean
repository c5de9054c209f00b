-- SUMMARY: Snake case as one rule on neighbouring characters.
import ApiStubs.Proofs.SnakeCase

/-!
# Word breaks

Snake case divides a name in two passes, and the second one reads what the first one wrote.
Together they insert an underscore where a rule on three neighbouring characters says so
(`divideWords_divideRuns`). Small letters stay as they are, and a name without capitals has no
place to divide. So the snake case of a snake case is the same name.
-/

namespace ApiStubs.Text

-- ---------------------------------------------------------------------------
-- Single characters
-- ---------------------------------------------------------------------------

/-- A character that is its own lowercase form. -/
def IsSmall (c : Char) : Prop := lowercaseChar c = [c]

instance (c : Char) : Decidable (IsSmall c) := inferInstanceAs (Decidable (lowercaseChar c = [c]))

/-- What holds of each of the first 128 characters holds of every character of ASCII. -/
theorem of_ascii (p : Char → Prop) (hall : ∀ n < 0x80, p (Char.ofNat n)) {c : Char}
    (h : c.toNat < 0x80) : p c := by
  have hc := hall c.toNat h
  rwa [Char.ofNat_toNat] at hc

/-- A lowercase form in ASCII is small. Above the capitals it is the character itself, and
    letters and digits have letters and digits. -/
theorem toLower_of_ascii {c : Char} (h : c.toNat < 0x80) :
    IsSmall c.toLower ∧ (0x5A < c.toNat → c.toLower = c) ∧
      c.toLower.isAlphanum = c.isAlphanum :=
  of_ascii (fun d => IsSmall d.toLower ∧ (0x5A < d.toNat → d.toLower = d) ∧
    d.toLower.isAlphanum = d.isAlphanum) (by decide +kernel) h

/-- The forms that are written out where lowercase is defined are small, other than the letter
    that two of them are forms of. -/
theorem isSmall_forms :
    IsSmall 'i' ∧ IsSmall (Char.ofNat 0x307) ∧ IsSmall 'ς' ∧ IsSmall 'σ' ∧ ¬ IsSmall 'Σ' := by
  decide +kernel

end ApiStubs.Text

namespace ApiStubs.Naming

open Text

theorem toNat_of_isUpper {c : Char} (h : c.isUpper = true) : c.toNat < 0x80 := by
  apply toNat_of_isAlphanum
  change (c.isUpper || c.isLower || c.isDigit) = true
  rw [h]
  rfl

/-- A capital is not small and does not end a word. -/
theorem classes_of_isUpper {c : Char} (h : c.isUpper = true) :
    ¬ IsSmall c ∧ c.isLower = false ∧ endsWord c = false :=
  of_ascii (fun d => d.isUpper = true → ¬ IsSmall d ∧ d.isLower = false ∧ endsWord d = false)
    (by decide +kernel) (toNat_of_isUpper h) h

theorem isLower_of_isUpper {c : Char} (h : c.isUpper = true) : c.isLower = false :=
  (classes_of_isUpper h).2.1

theorem endsWord_of_isUpper {c : Char} (h : c.isUpper = true) : endsWord c = false :=
  (classes_of_isUpper h).2.2

theorem isUpper_of_isSmall {c : Char} (h : IsSmall c) : c.isUpper = false := by
  cases hupper : c.isUpper with
  | false => rfl
  | true => exact absurd h (classes_of_isUpper hupper).1

end ApiStubs.Naming

-- ---------------------------------------------------------------------------
-- Small letters stay
-- ---------------------------------------------------------------------------

namespace ApiStubs.Text

namespace CaseRun

/-- The lowercase form of the first letter. -/
def least (r : CaseRun) : Nat := (r.first + r.shift).toNat

/-- The lowercase form of the last letter. -/
def greatest (r : CaseRun) : Nat := (r.last + r.shift).toNat

/-- The forms of `r` stand outside `q` or between its letters. -/
def misses (r q : CaseRun) : Bool :=
  r.greatest < q.first || q.last < r.least ||
    (r.step == 2 || r.least == r.greatest) && q.step == 2 && (r.least + q.first) % 2 == 1

/-- The forms of `r` are characters, none of them a capital. -/
def settles (r : CaseRun) : Bool :=
  0x5A < r.least && (r.greatest < 0x130 || 0x130 < r.least) &&
    (r.greatest < 0xD800 || 0xE000 ≤ r.least && r.greatest < 0x110000) &&
    capitalRuns.all r.misses

end CaseRun

theorem settles_of_mem {r : CaseRun} (h : r ∈ capitalRuns) : r.settles = true := by
  have hall : capitalRuns.all CaseRun.settles = true := by decide +kernel
  exact List.all_eq_true.1 hall r h

/-- The code point of a letter's lowercase form lies between those of the run's ends. -/
theorem form_bounds {r : CaseRun} {n : Nat} (hn : r.covers n = true) :
    r.least ≤ (n + r.shift).toNat ∧ (n + r.shift).toNat ≤ r.greatest := by
  simp only [CaseRun.covers, Bool.and_eq_true, decide_eq_true_eq] at hn
  simp only [CaseRun.least, CaseRun.greatest]
  omega

/-- Runs of every second letter miss each other by their parity. -/
theorem covers_form_of_misses {r q : CaseRun} {n : Nat} (hleast : 0 < r.least)
    (hn : r.covers n = true) (hmiss : r.misses q = true) :
    q.covers (n + r.shift).toNat = false := by
  have hbounds := form_bounds hn
  simp only [CaseRun.misses, Bool.or_eq_true, Bool.and_eq_true, decide_eq_true_eq,
    beq_iff_eq] at hmiss
  simp only [CaseRun.covers, Bool.and_eq_false_iff, decide_eq_false_iff_not, beq_eq_false_iff_ne]
  rcases hmiss with (hbelow | habove) | ⟨⟨hr, hq⟩, hparity⟩
  · omega
  · omega
  · simp only [CaseRun.covers, Bool.and_eq_true, decide_eq_true_eq, beq_iff_eq] at hn
    simp only [CaseRun.least, CaseRun.greatest] at *
    rw [hq]
    rcases hr with hstep | hsame
    · rw [hstep] at hn
      omega
    · omega

theorem isSmall_form {r : CaseRun} {n : Nat} (hr : r ∈ capitalRuns) (hn : r.covers n = true) :
    IsSmall (Char.ofNat (n + r.shift).toNat) := by
  have hbounds := form_bounds hn
  have hsettles := settles_of_mem hr
  simp only [CaseRun.settles, Bool.and_eq_true, Bool.or_eq_true, decide_eq_true_eq,
    List.all_eq_true] at hsettles
  obtain ⟨⟨⟨hleast, hdotted⟩, hvalid⟩, hmisses⟩ := hsettles
  have hform : (Char.ofNat (n + r.shift).toNat).toNat = (n + r.shift).toNat := by
    have hchar : (n + r.shift).toNat.isValidChar := by
      unfold Nat.isValidChar
      omega
    rw [Char.ofNat, dif_pos hchar]
    rfl
  have hnone : capitalRuns.find? (·.covers (n + r.shift).toNat) = none := by
    rw [List.find?_eq_none]
    intro q hq
    rw [covers_form_of_misses (by omega) hn (hmisses q hq)]
    decide
  unfold IsSmall lowercaseChar
  rw [hform, hnone, if_neg (c := _ = 0x130) (by omega)]
  split
  · next hascii => rw [(toLower_of_ascii (by omega)).2.1 (by omega)]
  · rfl

/-- A lowercase form is small, also where it is two characters. -/
theorem isSmall_of_mem_lowercaseChar {c d : Char} (h : d ∈ lowercaseChar c) : IsSmall d := by
  unfold lowercaseChar at h
  split at h
  · next hascii =>
    rw [List.mem_singleton.1 h]
    exact (toLower_of_ascii hascii).1
  · next hascii =>
    split at h
    · obtain ⟨hi, hdot, -⟩ := isSmall_forms
      simp only [List.mem_cons, List.not_mem_nil, or_false] at h
      rcases h with rfl | rfl
      · exact hi
      · exact hdot
    · next hdotted =>
      split at h
      · next r hr =>
        rw [List.mem_singleton.1 h]
        have hcovers : r.covers c.toNat = true :=
          List.find?_some (p := fun q : CaseRun => q.covers c.toNat) hr
        exact isSmall_form (List.mem_of_find?_eq_some hr) hcovers
      · next hnone =>
        rw [List.mem_singleton.1 h]
        unfold IsSmall lowercaseChar
        rw [if_neg hascii, if_neg hdotted, hnone]

theorem isSmall_of_mem_lowercaseAfter {before s : List Char} {d : Char}
    (h : d ∈ lowercaseAfter before s) : IsSmall d := by
  induction s generalizing before with
  | nil => cases h
  | cons c cs ih =>
    rw [lowercaseAfter, List.mem_append] at h
    rcases h with h | h
    · split at h
      · rw [List.mem_singleton.1 h]
        obtain ⟨-, -, hfinal, hinner, -⟩ := isSmall_forms
        split
        · exact hfinal
        · exact hinner
      · exact isSmall_of_mem_lowercaseChar h
    · exact ih h

theorem lowercaseAfter_of_isSmall {s : List Char} (h : ∀ c ∈ s, IsSmall c) (before : List Char) :
    lowercaseAfter before s = s := by
  induction s generalizing before with
  | nil => rfl
  | cons c cs ih =>
    have hsmall : IsSmall c := h c List.mem_cons_self
    have hsigma : c.toNat ≠ 0x3A3 := by
      intro hc
      have hc : c = 'Σ' := Char.toNat_inj.1 hc
      exact isSmall_forms.2.2.2.2 (hc ▸ hsmall)
    rw [lowercaseAfter, if_neg hsigma, hsmall, ih fun d hd => h d (List.mem_cons_of_mem c hd)]
    rfl

end ApiStubs.Text

namespace ApiStubs.Naming

open Text

-- ---------------------------------------------------------------------------
-- The rule
-- ---------------------------------------------------------------------------

/-- Whether a word begins after position `i`: at a capital that a small letter or digit stands
    before, or at the last one of several capitals with a small letter after them. -/
def breaksAfter (s : List Char) (i : Nat) : Bool :=
  s[i + 1]?.any Char.isUpper &&
    (s[i]?.any (fun c => c.isLower || isDecimalDigit c) ||
      s[i]?.any Char.isUpper && s[i + 2]?.any Char.isLower)

/-- The characters of a name, each with an underscore after it where a word begins. -/
def divided (s : List Char) : List Char :=
  (List.range s.length).flatMap fun i => s[i]?.toList ++ if breaksAfter s i then ['_'] else []

theorem divided_cons (c : Char) (cs : List Char) :
    divided (c :: cs) = c :: ((if breaksAfter (c :: cs) 0 then ['_'] else []) ++ divided cs) := by
  have hshift (i : Nat) : breaksAfter (c :: cs) (i + 1) = breaksAfter cs i := by
    simp only [breaksAfter, List.getElem?_cons_succ]
  simp only [divided, List.length_cons, List.range_succ_eq_map, List.flatMap_cons,
    List.flatMap_map, List.getElem?_cons_succ, hshift, Nat.succ_eq_add_one]
  rfl

/-- A word begins at capitals only. -/
theorem breaksAfter_of_no_capital {cs : List Char} (h : cs.head?.any Char.isUpper = false)
    (c : Char) : breaksAfter (c :: cs) 0 = false := by
  simp [breaksAfter, ← List.head?_eq_getElem?, h]

/-- After a capital, the character after the next one decides. -/
theorem breaksAfter_capital {c : Char} (h : c.isUpper = true) (d : Char) (cs : List Char) :
    breaksAfter (c :: d :: cs) 0 = (d.isUpper && cs.head?.any Char.isLower) := by
  have hword : (c.isLower || isDecimalDigit c) = false := endsWord_of_isUpper h
  simp [breaksAfter, List.head?_eq_getElem?, h, hword]

/-- After any other character, the next one decides. -/
theorem breaksAfter_other {c : Char} (h : c.isUpper = false) (cs : List Char) :
    breaksAfter (c :: cs) 0 = (endsWord c && cs.head?.any Char.isUpper) := by
  simp [breaksAfter, endsWord, h, List.head?_eq_getElem?, Bool.and_comm]

theorem divided_of_no_capital {s : List Char} (h : ∀ c ∈ s, c.isUpper = false) :
    divided s = s := by
  induction s with
  | nil => rfl
  | cons c cs ih =>
    have htail : ∀ d ∈ cs, d.isUpper = false := fun d hd => h d (List.mem_cons_of_mem c hd)
    have hhead : cs.head?.any Char.isUpper = false := by
      cases cs with
      | nil => rfl
      | cons d ds => exact htail d List.mem_cons_self
    rw [divided_cons, breaksAfter_of_no_capital hhead, ih htail]
    rfl

-- ---------------------------------------------------------------------------
-- The two passes
-- ---------------------------------------------------------------------------

theorem divideWords_cons (c : Char) (cs : List Char) :
    divideWords (c :: cs) =
      c :: ((if endsWord c && cs.head?.any Char.isUpper then ['_'] else []) ++ divideWords cs) := by
  cases cs with
  | nil => simp [divideWords]
  | cons d ds =>
    rw [divideWords, List.head?_cons, Option.any_some]
    cases endsWord c && d.isUpper <;> rfl

/-- The second pass changes nothing in what the first one makes of a run of capitals. -/
theorem divideWords_append {u : List Char} (hu : ∀ c ∈ u, endsWord c = false) (t : List Char) :
    divideWords (u ++ t) = u ++ divideWords t := by
  induction u with
  | nil => rfl
  | cons c cs ih =>
    rw [List.cons_append, divideWords_cons, hu c List.mem_cons_self,
      ih fun d hd => hu d (List.mem_cons_of_mem c hd)]
    rfl

theorem mem_divideRun {s : List Char} {c : Char} (h : c ∈ divideRun s) : c = '_' ∨ c ∈ s := by
  fun_induction divideRun s with
  | case1 => exact .inr h
  | case2 d => exact .inr h
  | case3 d e =>
    rcases List.mem_cons.1 h with rfl | h
    · exact .inr List.mem_cons_self
    · exact (List.mem_cons.1 h).imp_right (List.mem_cons_of_mem d)
  | case4 d e cs _ ih =>
    rcases List.mem_cons.1 h with rfl | h
    · exact .inr List.mem_cons_self
    · exact (ih h).imp_right (List.mem_cons_of_mem d)

/-- A run of capitals is divided once, before the last one, and only for a small letter. -/
theorem divided_run {run rest : List Char} (hrun : ∀ c ∈ run, c.isUpper = true)
    (hrest : rest.head?.any Char.isUpper = false) :
    divided (run ++ rest) =
      (if rest.head?.any Char.isLower then divideRun run else run) ++ divided rest := by
  -- As in `divideRun`, only the last two capitals of the run see what follows it.
  fun_induction divideRun run with
  | case1 => simp
  | case2 c =>
    rw [List.singleton_append, divided_cons, breaksAfter_of_no_capital hrest, ite_self]
    rfl
  | case3 c d =>
    have hc : c.isUpper = true := hrun c List.mem_cons_self
    have hd : d.isUpper = true := hrun d (List.mem_cons_of_mem c List.mem_cons_self)
    rw [List.cons_append, List.singleton_append, divided_cons, breaksAfter_capital hc, hd,
      divided_cons, breaksAfter_of_no_capital hrest]
    cases rest.head?.any Char.isLower <;> rfl
  | case4 c d cs hcs ih =>
    obtain ⟨e, es, rfl⟩ := List.exists_cons_of_ne_nil hcs
    have hc : c.isUpper = true := hrun c List.mem_cons_self
    have he : e.isLower = false := isLower_of_isUpper (hrun e (by simp))
    have hnext : breaksAfter (c :: (d :: e :: es ++ rest)) 0 = false := by
      rw [List.cons_append, breaksAfter_capital hc, List.cons_append, List.head?_cons,
        Option.any_some, he, Bool.and_false]
    rw [List.cons_append, divided_cons, hnext, ih fun x hx => hrun x (List.mem_cons_of_mem c hx)]
    cases rest.head?.any Char.isLower <;> rfl

/-- Both passes together follow the rule. -/
theorem divideWords_divideRuns (s : List Char) : divideWords (divideRuns s) = divided s := by
  fun_induction divideRuns s with
  | case1 => rfl
  | case2 c cs hupper run rest ih =>
    have hrun : ∀ d ∈ run, d.isUpper = true := by
      intro d hd
      rcases List.mem_cons.1 hd with rfl | hd
      · exact hupper
      · exact List.all_eq_true.1 List.all_takeWhile d hd
    have hrest : rest.head?.any Char.isUpper = false := by
      have hhead := List.head?_dropWhile_not Char.isUpper cs
      cases h : rest.head? with
      | none => rfl
      | some d => simpa [rest, h] using hhead
    have hsplit : run ++ rest = c :: cs := by
      simp only [run, rest, List.cons_append, List.takeWhile_append_dropWhile]
    rw [← hsplit, divided_run hrun hrest, divideWords_append, ih]
    intro d hd
    split at hd
    · rcases mem_divideRun hd with rfl | hd
      · rfl
      · exact endsWord_of_isUpper (hrun d hd)
    · exact endsWord_of_isUpper (hrun d hd)
  | case3 c cs hupper ih =>
    rw [divideWords_cons, head?_divideRuns, ih, divided_cons,
      breaksAfter_other (Bool.eq_false_iff.2 hupper)]

-- ---------------------------------------------------------------------------
-- Snake case
-- ---------------------------------------------------------------------------

theorem isSmall_of_mem_snakeCase {s : String} {c : Char} (h : c ∈ (snakeCase s).toList) :
    IsSmall c := by
  rw [snakeCase, String.toList_ofList] at h
  exact isSmall_of_mem_lowercaseAfter h

/-- On ASCII the letters and digits of a name in small letters are those of the name itself. -/
theorem filter_lowercase_of_ascii {s : List Char} (h : ∀ c ∈ s, c.toNat < 0x80) :
    (lowercase s).filter Char.isAlphanum = (s.filter Char.isAlphanum).map Char.toLower := by
  rw [lowercase_of_ascii h, List.filter_map]
  congr 1
  apply List.filter_congr
  intro c hc
  exact (toLower_of_ascii (h c hc)).2.2

/-- The snake case of a name is the name divided by the rule, in small letters. It holds no
    capital and is its own snake case, and a name of ASCII keeps its letters and digits. -/
theorem snakeCase_eq_divided (s : String) :
    snakeCase s = .ofList (lowercase (divided s.toList)) ∧
      (∀ c ∈ (snakeCase s).toList, c.isUpper = false) ∧
      snakeCase (snakeCase s) = snakeCase s ∧
      ((∀ c ∈ s.toList, c.toNat < 0x80) →
        (snakeCase s).toList.filter Char.isAlphanum =
          (s.toList.filter Char.isAlphanum).map Char.toLower) := by
  have hrule (t : String) : snakeCase t = .ofList (lowercase (divided t.toList)) := by
    rw [snakeCase, snakeCaseChars, divideWords_divideRuns]
  have hsmall : ∀ c ∈ (snakeCase s).toList, IsSmall c := fun c => isSmall_of_mem_snakeCase
  have hcapital : ∀ c ∈ (snakeCase s).toList, c.isUpper = false :=
    fun c hc => isUpper_of_isSmall (hsmall c hc)
  refine ⟨hrule s, hcapital, ?_, fun hascii => ?_⟩
  · rw [hrule (snakeCase s), divided_of_no_capital hcapital, lowercase,
      lowercaseAfter_of_isSmall hsmall, String.ofList_toList]
  · rw [snakeCase, String.toList_ofList, filter_snakeCaseChars, filter_lowercase_of_ascii hascii]

/-- A run of capitals before a word, and one at the end after a digit. -/
theorem snakeCase_eq_divided_run :
    snakeCase "getHTTPServer2ID" = "get_http_server2_id" ∧
      snakeCase "get_http_server2_id" = "get_http_server2_id" ∧
      (snakeCase "getHTTPServer2ID").toList.filter Char.isAlphanum =
        ("getHTTPServer2ID".toList.filter Char.isAlphanum).map Char.toLower := by
  obtain ⟨hrule, -, hidem, hletters⟩ := snakeCase_eq_divided "getHTTPServer2ID"
  have hdivided : String.ofList (lowercase (divided "getHTTPServer2ID".toList)) =
      "get_http_server2_id" := by
    decide +kernel
  have hascii : "getHTTPServer2ID".toList.all (·.toNat < 0x80) = true := rfl
  rw [hrule, hdivided] at hidem
  exact ⟨hrule.trans hdivided, hidem,
    hletters fun c hc => of_decide_eq_true (List.all_eq_true.1 hascii c hc)⟩

end ApiStubs.Naming
