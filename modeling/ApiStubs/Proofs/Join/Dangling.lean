-- SUMMARY: Tokens that begin a line of a parameter block and only noise follows.
import ApiStubs.Proofs.Join.Param

/-!
# Dangling tokens

Where a parameter line may go on, the reader tries a pair first. A token that begins
with a word for a kind is no type if it is that word, but it may be longer than the
word: comments do not end a token. Such a token is left alone only for want of a name
behind it. Then the word is read as a kind and the rest of the token as noise, and the
same characters make a line of their own.

If nothing but noise follows the token, the name can still come from a text that is
joined to the first. `dangles` finds these tokens. They need a comment that begins with
`/*`: behind any other comment the reading goes on at the end of its line, where
nothing but noise follows, and the block is never closed (`not_trails_of_collect`).
-/

namespace ApiStubs.Source

open Text

-- ---------------------------------------------------------------------------
-- Noise up to the end of a text
-- ---------------------------------------------------------------------------

/-- The text is nothing but noise. -/
def AllNoise (s : List Char) : Prop := s.drop (noise s) = []

/-- Only noise follows the token at the front. -/
def Trails (s : List Char) : Prop := AllNoise (s.dropWhile (!isPairDelimiter ·))

variable {s : List Char} {n : Nat}

theorem allNoise_nil : AllNoise [] := List.drop_nil

theorem trails_nil : Trails [] := allNoise_nil

theorem eq_nil_of_allNoise (h : AllNoise s) (hunit : unit? s = none) : s = [] := by
  unfold AllNoise at h
  rwa [Cursor.noise_eq_zero (by simp [startsNoise, hunit]), List.drop_zero] at h

theorem allNoise_iff_drop (hunit : unit? s = some n) : AllNoise s ↔ AllNoise (s.drop n) := by
  unfold AllNoise
  rw [noise_of_unit? hunit, List.drop_drop]

theorem drop_lineLength (s : List Char) : s.drop (lineLength s) = s.dropWhile (!isLineEnd ·) :=
  Cursor.rest_drop_count ⟨0, s⟩ _

/-- Every comment but one kind is all that is left of its line. -/
theorem eq_lineLength_of_comment? (hopen : ¬ "/*".toList <+: s) (h : comment? s = some n) :
    n = lineLength s := by
  rw [comment?_eq] at h
  split at h
  · next hprefix =>
    obtain ⟨t, rfl⟩ := List.isPrefixOf_iff_prefix.1 hprefix
    cases h
    rfl
  · split at h
    · next hprefix => exact absurd (List.isPrefixOf_iff_prefix.1 hprefix) hopen
    · split at h
      · next hprefix =>
        obtain ⟨t, rfl⟩ := List.isPrefixOf_iff_prefix.1 hprefix
        split at h <;> cases h
        rfl
      · cases h

/-- Without `/*`, noise is noise from the end of any of its lines on. -/
theorem AllNoise.dropLine (hopen : ¬ "/*".toList <:+: s) (h : AllNoise s) :
    AllNoise (s.dropWhile (!isLineEnd ·)) := by
  induction s with
  | nil => exact allNoise_nil
  | cons x xs ih =>
    by_cases hend : isLineEnd x = true
    · rwa [List.dropWhile_cons_of_neg (by simp [hend])]
    cases hunit : unit? (x :: xs) with
    | none => cases eq_nil_of_allNoise h hunit
    | some n =>
      have hrest := (allNoise_iff_drop hunit).1 h
      rw [unit?] at hunit
      split at hunit
      · cases hunit
        rw [List.dropWhile_cons_of_pos (by simpa using hend)]
        exact ih (fun hxs => hopen (List.infix_cons hxs)) hrest
      · rwa [eq_lineLength_of_comment? (fun hprefix => hopen hprefix.isInfix) hunit,
          drop_lineLength] at hrest

/-- A token is part of one line. -/
theorem dropWhile_lineEnd_dropWhile (s : List Char) :
    (s.dropWhile (!isPairDelimiter ·)).dropWhile (!isLineEnd ·) = s.dropWhile (!isLineEnd ·) := by
  induction s with
  | nil => rfl
  | cons x xs ih =>
    by_cases hx : isPairDelimiter x = true
    · rw [List.dropWhile_cons_of_neg (a := x) (p := (!isPairDelimiter ·)) (by simp [hx])]
    · have hend : isLineEnd x = false := by
        rw [Bool.eq_false_iff]
        intro hend
        simp only [isLineEnd, Bool.or_eq_true, beq_iff_eq] at hend
        rcases hend with rfl | rfl <;> exact hx rfl
      rw [List.dropWhile_cons_of_pos (a := x) (p := (!isPairDelimiter ·)) (by simpa using hx), ih,
        List.dropWhile_cons_of_pos (a := x) (p := (!isLineEnd ·)) (by simpa using hend)]

/-- Without `/*`, a text where only noise follows the first token is so from the end of
    its noise on. -/
theorem Trails.drop_noise (hopen : ¬ "/*".toList <:+: s) (h : Trails s) :
    Trails (s.drop (noise s)) := by
  fun_induction noise s with
  | case1 s hunit => exact h
  | case2 s n hunit ih =>
    cases s with
    | nil => cases hunit
    | cons x xs =>
      rw [← List.drop_drop]
      by_cases hx : isPairDelimiter x = true
      · -- no token at all: the text is noise
        have hall : AllNoise (x :: xs) := by
          rwa [Trails, List.dropWhile_cons_of_neg (by simp [hx])] at h
        rw [(allNoise_iff_drop hunit).1 hall]
        exact trails_nil
      rw [unit?] at hunit
      split at hunit
      · cases hunit
        refine ih (fun hxs => hopen (List.infix_cons hxs)) ?_
        rwa [Trails, List.dropWhile_cons_of_pos (by simpa using hx)] at h
      · -- a comment takes the rest of the token and of its line
        have hline := h.dropLine (fun hsub => hopen (hsub.trans (List.dropWhile_suffix _).isInfix))
        rw [dropWhile_lineEnd_dropWhile, ← drop_lineLength,
          ← eq_lineLength_of_comment? (fun hprefix => hopen hprefix.isInfix) hunit] at hline
        rw [hline]
        exact trails_nil

-- ---------------------------------------------------------------------------
-- Lines that trail off
-- ---------------------------------------------------------------------------

variable {c d : Cursor}

theorem RunsOut.trails (h : RunsOut c) : Trails c.rest := by
  obtain ⟨s, d, htoken, -, hend⟩ := h
  obtain ⟨hrun, -⟩ := token?_eq_some_iff.1 htoken
  rwa [← hrun.drop_eq, Cursor.skipNoise, Cursor.rest_drop, Cursor.rest_drop_count] at hend

/-- Characters of a token can be read off its front. -/
theorem trails_iff_of_spans (h : c.Spans s d) (hs : s.all (!isPairDelimiter ·) = true) :
    Trails c.rest ↔ Trails d.rest := by
  unfold Trails
  rw [h.rest_eq, List.dropWhile_append_of_pos (List.all_eq_true.1 hs)]

theorem allNoise_of_trails (h : Trails c.rest) (hstop : c.Stops (!isPairDelimiter ·)) :
    AllNoise c.rest := by
  cases hrest : c.rest with
  | nil => exact allNoise_nil
  | cons x xs =>
    have hx := hstop x (by rw [hrest]; rfl)
    rwa [hrest, Trails, List.dropWhile_cons_of_neg (by simp [hx])] at h

theorem pair?_eq_none_of_trails (h : Trails c.rest) : pair? c = none := by
  cases hpair : pair? c with
  | none => rfl
  | some read =>
    obtain ⟨a, b, ⟨hrun, -⟩, -, hnoise, hname⟩ := pair?_eq_some_iff.1 hpair
    have hend : b.rest = [] := by
      rw [← skipNoise_of_noise? hnoise, Cursor.skipNoise, Cursor.rest_drop, ← hrun.drop_eq,
        Cursor.rest_drop_count]
      exact h
    exact absurd hend (token?_precedes (token?_eq_some_iff.2 hname)).rest_ne_nil

/-- A parameter line is a kind, pairs and possibly a guard. -/
theorem param_cases {p : Param} (h : param c = .ok (some (p, d))) :
    ∃ kind group a, paramKind c = .ok (some ((kind, group), a)) ∧
      (d = (pairs a).2 ∧ guard? d = none ∨
        ∃ condition, guard? (pairs a).2 = some (condition, d)) := by
  unfold param at h
  split at h
  · cases h
  · cases h
  · next kind group a hkind =>
    refine ⟨kind, group, a, hkind, ?_⟩
    dsimp only at h
    split at h
    · next hguard => cases h; exact .inl ⟨rfl, hguard⟩
    · next condition f hguard => cases h; exact .inr ⟨condition, hguard⟩

/-- A word for a kind is a token, and no type. -/
theorem kindWord_facts {word : String} {kind : ParamKind} (h : (word, kind) ∈ kindWords) :
    word.toList.all (!isPairDelimiter ·) = true ∧ word ≠ "" ∧ beginsPair word = false := by
  simp only [kindWords, List.mem_cons, List.not_mem_nil, Prod.mk.injEq, or_false] at h
  rcases h with ⟨rfl, _⟩ | ⟨rfl, _⟩ | ⟨rfl, _⟩ | ⟨rfl, _⟩ <;> decide

theorem trails_of_kind {kind : ParamKind} {group : Nat}
    (h : paramKind c = .ok (some ((kind, group), d))) (hc : Trails c.rest) : Trails d.rest := by
  obtain ⟨word, a, hmem, hword, -, hindex⟩ := paramKind_obeys h
  have ha := (trails_iff_of_spans hword (kindWord_facts hmem).1).1 hc
  rcases hindex with ⟨-, rfl⟩ | ⟨-, b, e, digits, hopen, hdigits, -, hclose, -⟩
  · exact ha
  · have hb := (trails_iff_of_spans hopen (by decide)).1 ha
    have he := (trails_iff_of_spans hdigits.spans ?_).1 hb
    · exact (trails_iff_of_spans hclose (by decide)).1 he
    · refine List.all_eq_true.2 fun x hx => ?_
      rw [not_delimiter_of_isDigit (hdigits.all x hx), Bool.not_false]

/-- Without `/*`, a parameter line at the front of a text that trails off has no pairs,
    and the text trails off behind it. -/
theorem trails_of_param (hopen : ¬ "/*".toList <:+: c.rest) {p : Param}
    (h : param c = .ok (some (p, d))) (hc : Trails c.rest) : Trails d.skipNoise.rest := by
  obtain ⟨kind, group, a, hkind, hguard⟩ := param_cases h
  have ha := trails_of_kind hkind hc
  have haopen : ¬ "/*".toList <:+: a.rest := fun hsub =>
    hopen (hsub.trans (paramKind_advances hkind).reaches.suffix.isInfix)
  have hpairs : pairs a = ([], a) := by
    unfold pairs
    cases hnoise : a.noise? with
    | none => rfl
    | some b =>
      have hb : pair? b = none := by
        refine pair?_eq_none_of_trails ?_
        rw [← skipNoise_of_noise? hnoise]
        exact ha.drop_noise haopen
      rw [Option.bind_some, hb]
  rw [hpairs] at hguard
  rcases hguard with ⟨rfl, -⟩ | ⟨condition, hguard⟩
  · exact ha.drop_noise haopen
  · obtain ⟨b, e, f, gap, hnoise, hwhen, hgap, hne, hline⟩ := guard?_obeys hguard
    have hb : Trails b.rest := by
      rw [← skipNoise_of_noise? hnoise]
      exact ha.drop_noise haopen
    have he : AllNoise e.rest := allNoise_of_trails ((trails_iff_of_spans hwhen (by decide)).1 hb)
      (stops_of_gap hgap hne)
    have hreaches := (Cursor.noise?_precedes hnoise).reaches.trans hwhen.reaches
    have hd := he.dropLine fun hsub => haopen (hsub.trans hreaches.suffix.isInfix)
    have hgapLine : ∀ x ∈ gap.toList, (!isLineEnd x) = true := by
      intro x hx
      have hspace := hgap.all x hx
      simp only [isInlineSpace, Bool.or_eq_true, beq_iff_eq] at hspace
      rcases hspace with rfl | rfl <;> rfl
    rw [hgap.spans.rest_eq, List.dropWhile_append_of_pos hgapLine, ← Cursor.rest_drop_count,
      hline.drop_eq] at hd
    rw [Cursor.skipNoise, Cursor.rest_drop, hd]
    exact trails_nil

/-- A block of parameter lines does not trail off in a text without `/*`. -/
theorem not_trails_of_collect {unclosed : Fault} {stray : Cursor → Fault}
    {result : List Param × Cursor} (hopen : ¬ "/*".toList <:+: c.rest)
    (h : collect param param_advances unclosed stray c = .ok result) : ¬ Trails c.rest := by
  intro hc
  fun_induction collect param param_advances unclosed stray c generalizing result with
  | case2 c _ d hclose =>
    have hspans := Cursor.eat?_eq_some_iff.1 hclose
    have hhead : c.rest.head? = some '}' := hspans.head?_eq rfl
    have hall := allNoise_of_trails hc fun x hx => by
      rw [hhead] at hx
      cases hx
      rfl
    have hquiet := Cursor.startsNoise_of_head hhead (by decide)
    have hnil := eq_nil_of_allNoise hall (by simpa [startsNoise] using hquiet)
    exact (hspans.precedes (by decide)).rest_ne_nil hnil
  | case5 c _ _ v d hparam vs e hrest ih =>
    have hreaches := (param_advances hparam).reaches.trans d.skipNoise_reaches
    exact ih (fun hsub => hopen (hsub.trans hreaches.suffix.isInfix)) hrest
      (trails_of_param hopen hparam hc)
  | _ => cases h

-- ---------------------------------------------------------------------------
-- Dangling tokens
-- ---------------------------------------------------------------------------

/-- Whether a token dangles at the place: it begins with a word for a kind and goes on
    with noise, only noise follows it, and there is a `/*` in all this. -/
def dangles (c : Cursor) : Bool :=
  (token? c).any (fun (s, d) => beginsPair s && d.skipNoise.atEnd) &&
    (kindWords.any fun (word, _) => (keyword? word c).any (startsNoise ·.rest)) &&
    (find? "/*".toList c.rest).isSome

section Collect

variable {unclosed : Fault} {stray : Cursor → Fault} {result : List Param × Cursor}

theorem exists_head_kindWord {word : String} {kind : ParamKind} (h : (word, kind) ∈ kindWords) :
    ∃ x, word.toList.head? = some x ∧ prolongsWord x = true := by
  simp only [kindWords, List.mem_cons, List.not_mem_nil, Prod.mk.injEq, or_false] at h
  rcases h with ⟨rfl, _⟩ | ⟨rfl, _⟩ | ⟨rfl, _⟩ | ⟨rfl, _⟩ <;> exact ⟨_, rfl, by decide⟩

theorem exists_head_of_collect (h : collect param param_advances unclosed stray c = .ok result) :
    ∃ x, c.rest.head? = some x ∧ (x = '}' ∨ prolongsWord x = true) := by
  rcases collect_cases h with ⟨-, hclose⟩ | ⟨p, ps, d, -, -, hparam, -⟩
  · exact ⟨'}', (Cursor.eat?_eq_some_iff.1 hclose).head?_eq rfl, .inl rfl⟩
  · obtain ⟨kind, group, a, hkind, -⟩ := param_cases hparam
    obtain ⟨word, b, hmem, hword, -⟩ := paramKind_obeys hkind
    obtain ⟨x, hx, hprolongs⟩ := exists_head_kindWord hmem
    exact ⟨x, hword.head?_eq hx, .inr hprolongs⟩

theorem exists_head_of_token? {s : String} (h : token? c = some (s, d)) :
    ∃ x, c.rest.head? = some x ∧ isPairDelimiter x = false := by
  obtain ⟨hrun, hne⟩ := token?_eq_some_iff.1 h
  obtain ⟨x, hx, hhead⟩ := exists_head hne
  refine ⟨x, hrun.spans.head?_eq hhead, ?_⟩
  simpa using hrun.all x hx

theorem beginsPair_of_index {s : String} {a b : Cursor} (htoken : token? c = some (s, d))
    (hword : c.Spans "either".toList a) (hopen : a.Spans ['['] b) : beginsPair s = false := by
  obtain ⟨hrun, -⟩ := token?_eq_some_iff.1 htoken
  have hall : ∀ x ∈ "either[".toList, (!isPairDelimiter x) = true :=
    List.all_eq_true.1 (by decide : "either[".toList.all (!isPairDelimiter ·) = true)
  have hs : s.toList = "either[".toList ++ b.rest.takeWhile (!isPairDelimiter ·) := by
    rw [← hrun.take_eq, Cursor.take_count, String.toList_ofList, (hword.trans hopen).rest_eq]
    exact List.takeWhile_append_of_pos hall
  have hstart : "either[".toList.isPrefixOf s.toList = true :=
    List.isPrefixOf_iff_prefix.2 ⟨_, hs.symm⟩
  rw [beginsPair, hstart, Bool.not_true, Bool.and_false]

/-- A line whose token runs out is a word for a kind with noise directly behind it. -/
theorem exists_noisy_kind (h : collect param param_advances unclosed stray c = .ok result)
    (hout : RunsOut c) :
    ∃ word kind a, (word, kind) ∈ kindWords ∧ keyword? word c = some a ∧
      startsNoise a.rest = true := by
  obtain ⟨s, f, htoken, hbegins, -⟩ := hout
  rcases collect_cases h with ⟨-, hclose⟩ | ⟨p, ps, d, -, -, hparam, hrest⟩
  · obtain ⟨x, hx, hdelimiter⟩ := exists_head_of_token? htoken
    rw [(Cursor.eat?_eq_some_iff.1 hclose).head?_eq (x := '}') rfl] at hx
    cases hx
    cases hdelimiter
  · obtain ⟨kind, group, a, hkind, hguard⟩ := param_cases hparam
    obtain ⟨word, b, hmem, hword, hstops, hindex⟩ := paramKind_obeys hkind
    obtain ⟨hall, hne, hstopword⟩ := kindWord_facts hmem
    refine ⟨word, kind, b, hmem, keyword?_eq_some_iff.2 ⟨hword, hstops⟩, ?_⟩
    rw [← Bool.not_eq_false]
    intro hquiet
    rcases hindex with ⟨-, rfl⟩ | ⟨rfl, b', -, -, hopen, -⟩
    · -- without noise behind the word, the line is the word alone, and nothing can follow it
      have hnoise : a.noise? = none := by
        rw [Cursor.noise?, Cursor.noise_eq_zero hquiet, if_pos rfl]
      have hpairs : pairs a = ([], a) := by
        rw [pairs, hnoise, Option.bind_none]
      have hd : d = a := by
        rw [hpairs] at hguard
        rcases hguard with ⟨hd, -⟩ | ⟨condition, hguard⟩
        · exact hd
        · simp [guard?, hnoise] at hguard
      rw [hd, Cursor.skipNoise_eq_self hquiet] at hrest
      obtain ⟨x, hx, hend⟩ := exists_head_of_collect hrest
      have hx' : isPairDelimiter x = true := by
        rcases hend with rfl | hprolongs
        · rfl
        · exact absurd hprolongs (by simp [hstops x hx])
      have hrun : c.Run (!isPairDelimiter ·) word a := by
        refine ⟨hword, List.all_eq_true.1 hall, fun y hy => ?_⟩
        rw [hx] at hy
        cases hy
        simp [hx']
      have htoken' := token?_eq_some_iff.2 ⟨hrun, hne⟩
      rw [htoken] at htoken'
      cases htoken'
      rw [hstopword] at hbegins
      cases hbegins
    · have heither : word = "either" := by
        simpa [kindWords] using hmem
      subst heither
      rw [beginsPair_of_index htoken hword hopen] at hbegins
      cases hbegins

/-- In a block that is read, a token that runs out dangles. -/
theorem dangles_of_runsOut (h : collect param param_advances unclosed stray c = .ok result)
    (hout : RunsOut c) : dangles c = true := by
  have hopen : (find? "/*".toList c.rest).isSome = true := by
    rw [Option.isSome_iff_ne_none]
    intro hnone
    exact not_trails_of_collect ((find?_eq_none_iff (by decide)).1 hnone) h hout.trails
  obtain ⟨word, kind, a, hmem, hword, hnoise⟩ := exists_noisy_kind h hout
  obtain ⟨s, d, htoken, hbegins, hend⟩ := hout
  have hkind : (kindWords.any fun (word, _) => (keyword? word c).any (startsNoise ·.rest)) = true :=
    List.any_eq_true.2 ⟨(word, kind), hmem, by simp [hword, hnoise]⟩
  rw [dangles, htoken, hkind, hopen]
  simp [hbegins, Cursor.atEnd, hend]

/-- A parameter line of a block that is read is settled, unless a token dangles behind
    it. -/
theorem settled_of_collect (hfree : dangles c.skipNoise = false)
    (h : collect param param_advances unclosed stray c.skipNoise = .ok result) : Settled c := by
  obtain ⟨x, hx, hend⟩ := exists_head_of_collect h
  refine ⟨rest_ne_nil_of_collect h, ?_, fun hout => ?_⟩
  · refine Cursor.eat?_eq_none_of_head (x := ',') rfl hx ?_
    rintro rfl
    rcases hend with hend | hend
    · cases hend
    · exact absurd hend (by decide)
  · rw [dangles_of_runsOut h hout] at hfree
    cases hfree

end Collect

end ApiStubs.Source
