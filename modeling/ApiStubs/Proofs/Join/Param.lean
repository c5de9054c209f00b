-- SUMMARY: Rules that read alike in a joined text, and the parameter lines of its first text.
import ApiStubs.Proofs.Copy.Rules
import ApiStubs.Proofs.Join.Lexical
import ApiStubs.Proofs.Spelling

/-!
# Parameter lines of joined texts

`Rule.Extends` says that a rule that answers in the first text gives the same answer
in the joined text. It says nothing of places where the rule stays out or fails: there,
the joined text may hold what the first one lacks.

A parameter line is read as far as the text allows, so what follows the line takes
part in the reading. `Settled` says what has to follow for the line to be read alike
in the joined text: something other than a comma, and no type whose name could come
from the second text. A type of that kind is a token that `RunsOut`.
-/

namespace ApiStubs.Source

open Text

-- ---------------------------------------------------------------------------
-- Rules
-- ---------------------------------------------------------------------------

/-- What the rule reads from the first text, it reads from the joined text. -/
def Rule.Extends {α : Type} (r : Rule α) (j : Join) : Prop :=
  ∀ ⦃c v d⦄, c.In j.before → r c = .ok (some (v, d)) → r (j.extend c) = .ok (some (v, j.extend d))

namespace Rule

variable {α β : Type} {r s : Rule α} {c : Cursor}

theorem map_eq_none_iff {f : α → β} : r.map f c = .ok none ↔ r c = .ok none := by
  unfold Rule.map
  split <;> simp_all

theorem orElse_eq_none_iff : r.orElse s c = .ok none ↔ r c = .ok none ∧ s c = .ok none := by
  unfold Rule.orElse
  split <;> simp_all

end Rule

namespace Rule.Extends

variable {α β : Type} {r s : Rule α} {j : Join}

theorem map {f : α → β} (hr : r.Extends j) : (r.map f).Extends j := by
  intro c v d hc h
  unfold Rule.map at h ⊢
  split at h <;> cases h
  next hread => rw [hr hc hread]

theorem located (hr : r.Extends j) : r.located.Extends j := by
  intro c v d hc h
  unfold Rule.located at h ⊢
  split at h <;> cases h
  next hread => rw [hr hc hread]; rfl

/-- Where the second rule is needed, the first one has to stay out of the joined text
    too. -/
theorem orElse (hr : r.Extends j) (hs : s.Extends j)
    (hnone : ∀ ⦃c v d⦄, c.In j.before → r c = .ok none → s c = .ok (some (v, d)) →
      r (j.extend c) = .ok none) : (r.orElse s).Extends j := by
  intro c v d hc h
  unfold Rule.orElse at h ⊢
  split at h
  · next hnone' => rw [hnone hc hnone' h]; exact hs hc h
  · rw [hr hc h]

end Rule.Extends

section Collect

variable {α : Type} {rule : Rule α} {advances : rule.Advances} {unclosed : Fault}
  {stray : Cursor → Fault}

/-- A loop that succeeds is at a closing brace, or at a value from which it succeeds. -/
theorem collect_cases {c d : Cursor} {vs : List α}
    (h : collect rule advances unclosed stray c = .ok (vs, d)) :
    vs = [] ∧ c.eat? "\x7d" = some d ∨
      ∃ v ws a, vs = v :: ws ∧ c.eat? "\x7d" = none ∧ rule c = .ok (some (v, a)) ∧
        collect rule advances unclosed stray a.skipNoise = .ok (ws, d) := by
  rw [collect_eq] at h
  split at h
  · cases h
  · split at h
    · next hclose => cases h; exact .inl ⟨rfl, hclose⟩
    · next hopen =>
      split at h
      · cases h
      · cases h
      · next v a hrule =>
        split at h <;> cases h
        next hrest => exact .inr ⟨v, _, a, rfl, hopen, hrule, hrest⟩

theorem rest_ne_nil_of_collect {c : Cursor} {result : List α × Cursor}
    (h : collect rule advances unclosed stray c = .ok result) : c.rest ≠ [] := by
  intro hnil
  rw [collect_eq, if_pos (by simp [Cursor.atEnd, hnil])] at h
  cases h

/-- A loop that succeeds is extended, if the rule is at each value from which the loop goes
    on to succeed. -/
theorem collect_extend {j : Join}
    (hrule : ∀ ⦃c v d result⦄, c.In j.before → rule c = .ok (some (v, d)) →
      collect rule advances unclosed stray d.skipNoise = .ok result →
      rule (j.extend c) = .ok (some (v, j.extend d)))
    {c d : Cursor} {vs : List α} (hc : c.In j.before)
    (h : collect rule advances unclosed stray c = .ok (vs, d)) :
    collect rule advances unclosed stray (j.extend c) = .ok (vs, j.extend d) := by
  have hmore (c : Cursor) : (j.extend c).atEnd = false := by
    cases hrest : c.rest <;> simp [Cursor.atEnd, hrest]
  fun_induction collect rule advances unclosed stray c generalizing vs d with
  | case2 c _ e he =>
    cases h
    rw [collect_eq, hmore, Join.eat?_extend (by decide), he]
    rfl
  | case5 c _ hopen v e hr ws f hf ih =>
    cases h
    have hein := hc.of_reaches (advances hr).reaches
    have hskip := Join.skipNoise_extend hein (rest_ne_nil_of_collect hf)
    have hnext := ih (hein.of_reaches e.skipNoise_reaches) hf
    rw [collect_eq, hmore, Join.eat?_extend (by decide), hopen, hrule hc hr hf]
    simp only [Option.map_none, hskip, hnext]
    rfl
  | _ => cases h

end Collect

-- ---------------------------------------------------------------------------
-- Pairs and guards
-- ---------------------------------------------------------------------------

/-- The token at the place may begin a pair, and only noise follows it. -/
def RunsOut (c : Cursor) : Prop :=
  ∃ s d, token? c = some (s, d) ∧ beginsPair s = true ∧ d.skipNoise.rest = []

/-- What follows the place ends a parameter line, here and in a joined text. -/
structure Settled (c : Cursor) : Prop where
  more : c.skipNoise.rest ≠ []
  comma : c.skipNoise.eat? "," = none
  token : ¬ RunsOut c.skipNoise

section Readings

variable {j : Join} {c d : Cursor}

theorem keyword?_extend {w : String} (hw : '\n' ∉ w.toList) :
    keyword? w (j.extend c) = (keyword? w c).map j.extend := by
  unfold keyword?
  rw [Join.eat?_extend hw]
  cases c.eat? w with
  | none => rfl
  | some d =>
    have hhead : (j.extend d).rest.head?.any prolongsWord = d.rest.head?.any prolongsWord := by
      cases hrest : d.rest with
      | nil =>
        have hfeed : prolongsWord '\n' = false := by decide
        simp [hrest, hfeed]
      | cons x xs => simp [hrest]
    simp only [Option.map_some, hhead]
    split <;> rfl

theorem index?_extend : index? (j.extend c) = (index? c).map (Prod.map id j.extend) := by
  unfold index?
  rw [Join.eat?_extend (by decide)]
  cases c.eat? "[" with
  | none => rfl
  | some d =>
    have hle : (d.rest.takeWhile Char.isDigit).length ≤ d.rest.length :=
      d.count_le_length Char.isDigit
    simp only [Option.map_some, Join.rest_extend, takeWhile_append_feed (p := Char.isDigit) rfl,
      Join.drop_extend hle, Join.eat?_extend (show '\n' ∉ "]".toList by decide)]
    split
    · rfl
    · cases (d.drop (d.rest.takeWhile Char.isDigit).length).eat? "]" <;> rfl

theorem paramKind_extends : paramKind.Extends j := by
  intro c v d _ h
  unfold paramKind at h ⊢
  rw [findSome?_kindWords fun word kind hmem => keyword?_extend (withinLine_kindWord hmem).1]
  split at h
  · cases h
  · next kind a hkind =>
    rw [hkind]
    simp only [Option.map_some, Prod.map, id_eq, index?_extend]
    split at h
    · next heither =>
      rw [if_pos heither]
      cases hindex : index? a with
      | none => rw [hindex] at h; cases h; rfl
      | some index =>
        rw [hindex] at h
        simp only [Option.map_some, Prod.map, id_eq] at h ⊢
        split at h <;> cases h
        next hdigits => rw [if_neg hdigits]
    · next heither =>
      rw [if_neg heither]
      cases h
      rfl

theorem token?_extend : token? (j.extend c) = (token? c).map (Prod.map id j.extend) := by
  have hp : (!isPairDelimiter '\n') = false := rfl
  have htake := Join.take_count_extend (j := j) (c := c) (p := (!isPairDelimiter ·)) hp
  have hdrop := Join.drop_count_extend (j := j) (c := c) (p := (!isPairDelimiter ·)) hp
  have hcount := Join.count_extend (j := j) (c := c) (p := (!isPairDelimiter ·)) hp
  rw [hcount] at htake hdrop
  simp only [token?, hcount, htake, hdrop]
  split <;> rfl

theorem pair?_extend (hc : c.In j.before) (h : ¬ RunsOut c) :
    pair? (j.extend c) = (pair? c).map (Prod.map id j.extend) := by
  simp only [pair?, Option.bind_eq_bind, Option.pure_def, token?_extend]
  cases htype : token? c with
  | none => rfl
  | some read =>
    obtain ⟨type, a⟩ := read
    simp only [Option.map_some, Option.bind_some, Prod.map, id_eq]
    split
    · next hbegins =>
      have hmore : a.skipNoise.rest ≠ [] := fun hend => h ⟨type, a, htype, hbegins, hend⟩
      have ha := hc.of_reaches (token?_precedes htype).reaches
      rw [Join.noise?_extend ha hmore]
      cases a.noise? with
      | none => rfl
      | some b =>
        simp only [Option.map_some, Option.bind_some, token?_extend]
        cases token? b <;> rfl
    · rfl

theorem not_runsOut_of_pair? {p : TypedName} (h : pair? c = some (p, d)) : ¬ RunsOut c := by
  rintro ⟨s, a, htype, -, hend⟩
  obtain ⟨a', b, htype', -, hnoise, hname⟩ := pair?_eq_some_iff.1 h
  rw [← token?_eq_some_iff] at htype' hname
  rw [htype] at htype'
  cases htype'
  rw [skipNoise_of_noise? hnoise] at hend
  exact (token?_precedes hname).rest_ne_nil hend

theorem morePairs_extend (hc : c.In j.before) (hmore : (morePairs c).2.skipNoise.rest ≠ [])
    (hcomma : (morePairs c).2.skipNoise.eat? "," = none) :
    morePairs (j.extend c) = Prod.map id j.extend (morePairs c) := by
  fun_induction morePairs c with
  | case1 c hnone =>
    rw [morePairs_eq, Join.skipNoise_extend hc hmore, Join.eat?_extend (by decide), hnone]
    rfl
  | case2 c d hsome _ =>
    rw [hsome] at hcomma
    cases hcomma
  | case3 c d hsome p e hpair ps f hmorePairs ih =>
    rw [hmorePairs] at ih
    have hd := hc.of_reaches (c.skipNoise_reaches.trans (Cursor.eat?_reaches hsome))
    have hskip := hd.of_reaches d.skipNoise_reaches
    have hnext := ih (hskip.of_reaches (pair?_precedes hpair).reaches) hmore hcomma
    have hcmore := (Cursor.eat?_precedes (by decide) hsome).rest_ne_nil
    rw [morePairs_eq, Join.skipNoise_extend hc hcmore, Join.eat?_extend (by decide), hsome]
    simp only [Option.map_some, Join.skipNoise_extend hd (pair?_precedes hpair).rest_ne_nil,
      pair?_extend hskip (not_runsOut_of_pair? hpair), hpair, Prod.map, hnext, id_eq]

theorem pairs_extend (hc : c.In j.before) (h : Settled (pairs c).2) :
    pairs (j.extend c) = Prod.map id j.extend (pairs c) := by
  unfold pairs at h ⊢
  cases hread : c.noise?.bind pair? with
  | none =>
    rw [hread] at h
    have hnone : (j.extend c).noise?.bind pair? = none := by
      rw [Join.noise?_extend hc h.more]
      cases hnoise : c.noise? with
      | none => rfl
      | some b =>
        have hb := hc.of_reaches (Cursor.noise?_precedes hnoise).reaches
        have hskip := skipNoise_of_noise? hnoise
        have htoken := h.token
        rw [hnoise, Option.bind_some] at hread
        rw [hskip] at htoken
        rw [Option.map_some, Option.bind_some, pair?_extend hb htoken, hread]
        rfl
    rw [hnone]
    rfl
  | some read =>
    obtain ⟨p, d⟩ := read
    rw [hread] at h
    obtain ⟨b, hnoise, hpair⟩ := Option.bind_eq_some_iff.1 hread
    have hb := hc.of_reaches (Cursor.noise?_precedes hnoise).reaches
    have hd := hb.of_reaches (pair?_precedes hpair).reaches
    have hmorePairs := morePairs_extend hd h.more h.comma
    rw [Join.noise?_extend_of_some hc hnoise (pair?_precedes hpair).rest_ne_nil, Option.bind_some,
      pair?_extend hb (not_runsOut_of_pair? hpair), hpair]
    simp only [Option.map_some, Prod.map, hmorePairs, id_eq]

theorem guard?_extend (hc : c.In j.before) (h : c.skipNoise.rest ≠ []) :
    guard? (j.extend c) = (guard? c).map (Prod.map id j.extend) := by
  simp only [guard?, Option.bind_eq_bind, Join.noise?_extend hc h]
  cases c.noise? with
  | none => rfl
  | some d =>
    simp only [Option.map_some, Option.bind_some,
      Join.eat?_extend (show '\n' ∉ "when".toList by decide)]
    cases d.eat? "when" with
    | none => rfl
    | some e =>
      simp only [Option.map_some, Option.bind_some, Join.skipInlineSpace_extend, Join.offset_extend,
        Join.line_extend, Join.lineEnd_extend]
      split <;> rfl

theorem stops_of_gap {gap : String} (h : c.Run isInlineSpace gap d) (hne : gap ≠ "") :
    c.Stops (!isPairDelimiter ·) := by
  have hdelimiter {x : Char} (hx : isInlineSpace x = true) : isPairDelimiter x = true := by
    simp only [isInlineSpace, Bool.or_eq_true, beq_iff_eq] at hx
    rcases hx with rfl | rfl <;> rfl
  obtain ⟨y, hy, hhead⟩ := exists_head hne
  intro x hx
  rw [h.spans.head?_eq hhead] at hx
  cases hx
  simp [hdelimiter (h.all y hy)]

/-- Before a guard, a line is settled: the word `when` is no type. -/
theorem settled_of_guard? {s : String} (h : guard? c = some (s, d)) : Settled c := by
  obtain ⟨a, b, e, gap, hnoise, hwhen, hgap, hne, -⟩ := guard?_obeys h
  have hskip := skipNoise_of_noise? hnoise
  have hhead : a.rest.head? = some 'w' := hwhen.head?_eq rfl
  constructor
  · rw [hskip]
    exact (hwhen.precedes (by decide)).rest_ne_nil
  · rw [hskip]
    exact Cursor.eat?_eq_none_of_head (x := ',') rfl hhead (by decide)
  · rw [hskip]
    rintro ⟨type, f, htoken, hbegins, -⟩
    have hrun : a.Run (!isPairDelimiter ·) "when" b := ⟨hwhen, by decide, stops_of_gap hgap hne⟩
    have htoken' : token? a = some ("when", b) := token?_eq_some_iff.2 ⟨hrun, by decide⟩
    rw [htoken] at htoken'
    cases htoken'
    exact absurd hbegins (by decide)

theorem param_extend {p : Param} (hc : c.In j.before) (h : param c = .ok (some (p, d)))
    (hd : Settled d) : param (j.extend c) = .ok (some (p, j.extend d)) := by
  unfold param at h ⊢
  split at h
  · cases h
  · cases h
  · next kind group a hkind =>
    have ha := hc.of_reaches (paramKind_advances hkind).reaches
    have hpairs := ha.of_reaches (pairs_reaches a)
    rw [paramKind_extends hc hkind]
    dsimp only at h ⊢
    split at h
    · next hguard =>
      cases h
      rw [pairs_extend ha hd]
      simp only [Prod.map, id_eq, guard?_extend hpairs hd.more, hguard, Option.map_none]
    · next condition f hguard =>
      cases h
      have hsettled := settled_of_guard? hguard
      rw [pairs_extend ha hsettled]
      simp only [Prod.map, id_eq, guard?_extend hpairs hsettled.more, hguard, Option.map_some]

end Readings

end ApiStubs.Source
