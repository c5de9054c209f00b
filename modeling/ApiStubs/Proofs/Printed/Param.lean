-- SUMMARY: Reading the parameter lines that are printed.
import ApiStubs.Proofs.Spelling
import ApiStubs.Proofs.WellFormed
import ApiStubs.Template.OfSource
import ApiStubs.Template.Printer

/-!
# Reading printed parameter lines

Each rule is followed over the text that the printer writes for it. A rule reads
the printed text and stops at its end, whatever the rest of the file is, as long
as the rest begins as the printer lets it begin. Where a rule looks ahead, what
may come next is a predicate of its own.
-/

namespace ApiStubs

open Source Text

-- ---------------------------------------------------------------------------
-- Pairs
-- ---------------------------------------------------------------------------

/-- The pair as a file declares it, with the mark before its name. -/
def TypedName.marked (p : TypedName) : TypedName := { p with name := "@" ++ p.name }

theorem TypedName.withoutMark_marked (p : TypedName) : p.marked.withoutMark = p := by
  simp [marked, withoutMark, String.toList_append]

theorem toList_printPair (p : TypedName) :
    (Param.printPair p).toList = [' '] ++ (p.type.toList ++ ([' '] ++ p.marked.name.toList)) := by
  have hprint : Param.printPair p = " " ++ p.type ++ " @" ++ p.name := rfl
  simp [hprint, TypedName.marked, String.toList_append]

/-- A word that begins no noise on its own begins none before a space. -/
theorem startsNoise_append_space {s t : List Char} (hs : s ≠ []) (hnoise : startsNoise s = false)
    (hblock : ¬ ['/', '*'] <+: s) : startsNoise (s ++ ' ' :: t) = false := by
  cases s with
  | nil => exact absurd rfl hs
  | cons x xs =>
    simp only [startsNoise, unit?, List.cons_append, Option.isSome_eq_false_iff,
      Option.isNone_iff_eq_none] at hnoise ⊢
    split at hnoise
    · cases hnoise
    · next hspace =>
      rw [if_neg hspace]
      by_cases hslash : x = '/'
      · subst hslash
        cases xs with
        | nil => rfl
        | cons y ys =>
          have hy : y ≠ '/' := by rintro rfl; simp [comment?] at hnoise
          have hy' : y ≠ '*' := by rintro rfl; exact hblock ⟨ys, rfl⟩
          simp [comment?, hy, hy']
      · by_cases hhash : x = '#'
        · subst hhash
          simp only [comment?] at hnoise ⊢
          split at hnoise
          · next hword =>
            obtain ⟨w, hw, hpre⟩ := List.any_eq_true.1 hword
            rw [if_pos]
            refine List.any_eq_true.2 ⟨w, hw, ?_⟩
            rw [List.isPrefixOf_iff_prefix] at hpre ⊢
            exact hpre.trans (List.prefix_append _ _)
          · cases hnoise
        · simp [comment?, hslash, hhash]

theorem TypedName.WellFormed.type_visible {p : TypedName} (hp : p.WellFormed) (s : List Char) :
    startsNoise (p.type.toList ++ ' ' :: s) = false :=
  startsNoise_append_space (by simpa using hp.typeNonempty) hp.typeNoNoise.1 hp.typeNoNoise.2

theorem spellsToken_of_spans {s : String} {c d : Cursor} (h : c.Spans s.toList d) (hs : s ≠ "")
    (hchars : AllChars (!isPairDelimiter ·) s) {x : Char}
    (hd : d.rest.head? = some x) (hx : isPairDelimiter x = true) : spellsToken s c d := by
  refine ⟨⟨h, hchars, ?_⟩, hs⟩
  intro y hy
  rw [hd] at hy
  cases hy
  simp [hx]

theorem pair?_of_spans {p : TypedName} (hp : p.WellFormed) {c d : Cursor} {x : Char}
    (h : c.Spans (p.type.toList ++ ([' '] ++ p.marked.name.toList)) d)
    (hd : d.rest.head? = some x) (hx : isPairDelimiter x = true) :
    pair? c = some (p.marked, d) := by
  obtain ⟨a, htype, h⟩ := Cursor.spans_append_iff.1 h
  obtain ⟨b, hspace, hname⟩ := Cursor.spans_append_iff.1 h
  have hmark : p.marked.name.toList = '@' :: p.name.toList := by
    simp [TypedName.marked, String.toList_append]
  refine pair?_eq_some_iff.2 ⟨a, b, ?_, hp.typeNoKeyword, ?_, ?_⟩
  · exact spellsToken_of_spans htype hp.typeNonempty hp.typeChars (hspace.head?_eq rfl) rfl
  · have hhead : p.marked.name.toList.head? = some '@' := by rw [hmark, List.head?_cons]
    exact Cursor.noise?_of_space hspace rfl (hname.startsNoise_eq_false hhead rfl)
  · refine spellsToken_of_spans hname ?_ ?_ hd hx
    · simp [← String.toList_inj, hmark]
    · intro y hy
      rw [hmark, List.mem_cons] at hy
      rcases hy with rfl | hy
      · decide
      · exact hp.nameChars y hy

/-- A word that never begins a pair begins none. -/
theorem pair?_eq_none_of_token {word : String} {c d : Cursor} (h : spellsToken word c d)
    (hword : beginsPair word = false) : pair? c = none := by
  rw [← token?_eq_some_iff] at h
  simp [pair?, h, hword]

-- ---------------------------------------------------------------------------
-- Parameter lines
-- ---------------------------------------------------------------------------

namespace Param

/-- The line as a file declares it, with marked names. -/
def marked (p : Param) : Param := { p with pairs := p.pairs.map (·.marked) }

theorem withoutMarks_marked (p : Param) : p.marked.withoutMarks = p := by
  simp [marked, withoutMarks, Function.comp_def, TypedName.withoutMark_marked]

theorem toList_printKind (p : Param) :
    p.printKind.toList = match p.kind with
      | .required => "required".toList
      | .optional => "optional".toList
      | .either => "either".toList ++ (['['] ++ (p.group.repr.toList ++ [']'])) := by
  unfold printKind
  cases p.kind with
  | required => rfl
  | optional => rfl
  | either =>
    change ("either[" ++ p.group.repr ++ "]").toList = _
    simp [String.toList_append]

/-- The printed pairs: the first, and the others with a comma before each. -/
theorem toList_printPairs_cons (p : TypedName) (ps : List TypedName) :
    (",".intercalate ((p :: ps).map printPair)).toList =
      (printPair p).toList ++ ps.flatMap fun q => [','] ++ (printPair q).toList := by
  induction ps generalizing p with
  | nil => simp
  | cons q ps ih =>
    rw [List.map_cons, List.map_cons, String.intercalate_cons_cons, ← List.map_cons,
      String.toList_append, String.toList_append, ih, List.flatMap_cons]
    simp

end Param

theorem decimal_repr (n : Nat) : decimal n.repr.toList = n := by
  have h : decimal n.repr.toList = Nat.ofDigitChars 10 (Nat.toDigits 10 n) 0 := by
    rw [Nat.ofDigitChars_eq_foldl, Nat.toList_repr, decimal]
    simp only [Nat.mul_comm]
  rw [h, Nat.ofDigitChars_ten_toDigits]

theorem isDigit_of_mem_repr {n : Nat} {x : Char} (h : x ∈ n.repr.toList) : x.isDigit = true := by
  rw [Nat.toList_repr] at h
  exact Nat.isDigit_of_mem_toDigits (by decide) (by decide) h

theorem index?_of_spans {n : Nat} {c d : Cursor}
    (h : c.Spans (['['] ++ (n.repr.toList ++ [']'])) d) : index? c = some (n.repr.toList, d) := by
  obtain ⟨a, hopen, h⟩ := Cursor.spans_append_iff.1 h
  obtain ⟨b, hdigits, hclose⟩ := Cursor.spans_append_iff.1 h
  have hrun : a.Run Char.isDigit n.repr b := by
    refine ⟨hdigits, fun x hx => isDigit_of_mem_repr hx, ?_⟩
    intro x hx
    rw [hclose.rest_eq] at hx
    cases hx
    rfl
  have hopen' : c.eat? "[" = some a := Cursor.eat?_eq_some_iff.2 hopen
  have hclose' : b.eat? "]" = some d := Cursor.eat?_eq_some_iff.2 hclose
  have htake : a.rest.takeWhile Char.isDigit = n.repr.toList := by
    rw [← String.ofList_inj, ← a.take_count, hrun.take_eq, String.ofList_toList]
  have hdrop : a.drop n.repr.toList.length = b := hdigits.eq_drop.symm
  unfold index?
  simp only [hopen', htake, hdrop, hclose']
  simp

theorem keyword?_eq_none_of_head {word : String} {c : Cursor} {x y : Char}
    (hw : word.toList.head? = some x) (hc : c.rest.head? = some y) (hxy : x ≠ y) :
    keyword? word c = none := by
  simp [keyword?, Cursor.eat?_eq_none_of_head hw hc hxy]

theorem stops_of_head {p : Char → Bool} {d : Cursor} {x : Char} (hd : d.rest.head? = some x)
    (hx : p x = false) : d.Stops p := by
  intro y hy
  rw [hd] at hy
  cases hy
  exact hx

theorem paramKind_of_spans {p : Param} (hp : p.WellFormed) {c d : Cursor} {x : Char}
    (h : c.Spans p.printKind.toList d) (hd : d.rest.head? = some x)
    (hx : prolongsWord x = false) : paramKind c = .ok (some ((p.kind, p.group), d)) := by
  rw [Param.toList_printKind] at h
  have hgroup := hp.group
  unfold paramKind kindWords
  cases hkind : p.kind with
  | required =>
    simp only [hkind] at h hgroup
    have hword : keyword? "required" c = some d :=
      keyword?_eq_some_iff.2 ⟨h, stops_of_head hd hx⟩
    simp [hword, hgroup]
  | optional =>
    simp only [hkind] at h hgroup
    have hhead : c.rest.head? = some 'o' := h.head?_eq rfl
    have hrequired : keyword? "required" c = none :=
      keyword?_eq_none_of_head rfl hhead (by decide)
    have hsemi : keyword? "semi-optional" c = none :=
      keyword?_eq_none_of_head rfl hhead (by decide)
    have hword : keyword? "optional" c = some d :=
      keyword?_eq_some_iff.2 ⟨h, stops_of_head hd hx⟩
    simp [hrequired, hsemi, hword, hgroup]
  | either =>
    simp only [hkind] at h
    obtain ⟨a, hword, hindex⟩ := Cursor.spans_append_iff.1 h
    have hhead : c.rest.head? = some 'e' := hword.head?_eq rfl
    have hrequired : keyword? "required" c = none :=
      keyword?_eq_none_of_head rfl hhead (by decide)
    have hsemi : keyword? "semi-optional" c = none :=
      keyword?_eq_none_of_head rfl hhead (by decide)
    have hoptional : keyword? "optional" c = none :=
      keyword?_eq_none_of_head rfl hhead (by decide)
    have heither : keyword? "either" c = some a :=
      keyword?_eq_some_iff.2 ⟨hword, stops_of_head (hindex.head?_eq rfl) (by decide)⟩
    have hlength : ¬ maxIndexDigits < p.group.repr.toList.length := by
      rw [String.length_toList]
      exact Nat.not_lt.2 hp.index
    simp only [List.findSome?_cons, hrequired, hsemi, hoptional, heither, Option.map_none,
      Option.map_some, if_true, index?_of_spans hindex, if_neg hlength, decimal_repr]

/-- What may follow a line of a parameter block: the brace that closes the block,
    or the kind of the next line. -/
def FollowsParam (s : List Char) : Prop :=
  (∃ t, s = '}' :: t) ∨
    ∃ (p : Param) (x : Char) (t : List Char),
      s = p.printKind.toList ++ x :: t ∧ isPairDelimiter x = true

namespace Param

theorem exists_head_printKind (p : Param) :
    ∃ x ∈ ['r', 'o', 'e'], p.printKind.toList.head? = some x := by
  rw [toList_printKind]
  cases p.kind with
  | required => exact ⟨'r', by simp, rfl⟩
  | optional => exact ⟨'o', by simp, rfl⟩
  | either => exact ⟨'e', by simp, rfl⟩

theorem allChars_printKind (p : Param) : AllChars (!isPairDelimiter ·) p.printKind := by
  have heither : AllChars (!isPairDelimiter ·) "either" := by decide
  cases hkind : p.kind with
  | required =>
    have heq : p.printKind = "required" := by simp [printKind, hkind]
    rw [heq]
    decide
  | optional =>
    have heq : p.printKind = "optional" := by simp [printKind, hkind]
    rw [heq]
    decide
  | either =>
    intro x hx
    rw [toList_printKind, hkind] at hx
    simp only [List.mem_append, List.mem_singleton] at hx
    rcases hx with hx | rfl | hx | rfl
    · exact heither x hx
    · rfl
    · simp [not_delimiter_of_isDigit (isDigit_of_mem_repr hx)]
    · rfl

theorem beginsPair_printKind (p : Param) : beginsPair p.printKind = false := by
  have htext := p.toList_printKind
  cases hkind : p.kind with
  | required =>
    have heq : p.printKind = "required" := by simp [printKind, hkind]
    rw [heq]
    decide
  | optional =>
    have heq : p.printKind = "optional" := by simp [printKind, hkind]
    rw [heq]
    decide
  | either =>
    have hprefix : "either[".toList.isPrefixOf p.printKind.toList = true := by
      rw [List.isPrefixOf_iff_prefix, htext]
      simp only [hkind]
      exact ⟨p.group.repr.toList ++ [']'], by simp⟩
    simp only [beginsPair, hprefix, Bool.not_true, Bool.and_false]

end Param

theorem FollowsParam.exists_head {s : List Char} (h : FollowsParam s) :
    ∃ x ∈ ['}', 'r', 'o', 'e'], s.head? = some x := by
  rcases h with ⟨t, rfl⟩ | ⟨p, x, t, rfl, -⟩
  · exact ⟨'}', by simp, rfl⟩
  · obtain ⟨y, hy, hhead⟩ := p.exists_head_printKind
    refine ⟨y, List.mem_cons_of_mem _ hy, ?_⟩
    rw [List.head?_append, hhead, Option.some_or]

theorem FollowsParam.startsNoise_eq_false {s : List Char} (h : FollowsParam s) :
    startsNoise s = false := by
  have hplain : ['}', 'r', 'o', 'e'].all isPlain = true := rfl
  obtain ⟨x, hx, hhead⟩ := h.exists_head
  exact Cursor.startsNoise_of_head hhead (List.all_eq_true.1 hplain x hx)

theorem FollowsParam.eat?_eq_none {c : Cursor} (h : FollowsParam c.rest) {word : String} {y : Char}
    (hword : word.toList.head? = some y) (hy : y ∉ ['}', 'r', 'o', 'e']) :
    c.eat? word = none := by
  obtain ⟨x, hx, hhead⟩ := h.exists_head
  refine Cursor.eat?_eq_none_of_head hword hhead ?_
  rintro rfl
  exact hy hx

theorem FollowsParam.pair?_eq_none {c : Cursor} (h : FollowsParam c.rest) : pair? c = none := by
  rcases h with ⟨t, ht⟩ | ⟨p, x, t, ht, hx⟩
  · have hcount : c.count (!isPairDelimiter ·) = 0 := by
      rw [Cursor.count, ht]
      rfl
    simp [pair?, token?, hcount]
  · have hspans : c.Spans p.printKind.toList ⟨c.offset + p.printKind.toList.length, x :: t⟩ :=
      ⟨ht, rfl⟩
    have hne : p.printKind ≠ "" := by
      intro hempty
      obtain ⟨y, -, hhead⟩ := p.exists_head_printKind
      rw [hempty] at hhead
      cases hhead
    have htoken := spellsToken_of_spans hspans hne p.allChars_printKind rfl hx
    exact pair?_eq_none_of_token htoken p.beginsPair_printKind

/-- The pairs of a line end here: after a space there is neither a comma nor a
    pair. -/
def EndsPairs (c : Cursor) : Prop :=
  ∃ x d, c.Spans [x] d ∧ isSpace x = true ∧ isPairDelimiter x = true ∧
    prolongsWord x = false ∧ startsNoise d.rest = false ∧ pair? d = none ∧ d.eat? "," = none

theorem EndsPairs.skipNoise_eat? {c : Cursor} (h : EndsPairs c) : c.skipNoise.eat? "," = none := by
  obtain ⟨x, d, hspans, hspace, -, -, hnoise, -, hcomma⟩ := h
  rw [Cursor.skipNoise_of_space hspans hspace hnoise, hcomma]

theorem EndsPairs.noise?_pair? {c : Cursor} (h : EndsPairs c) : c.noise?.bind pair? = none := by
  obtain ⟨x, d, hspans, hspace, -, -, hnoise, hpair, -⟩ := h
  rw [Cursor.noise?_of_space hspans hspace hnoise, Option.bind_some, hpair]

theorem EndsPairs.exists_head {c : Cursor} (h : EndsPairs c) :
    ∃ x, c.rest.head? = some x ∧ isPairDelimiter x = true ∧ prolongsWord x = false := by
  obtain ⟨x, d, hspans, -, hdelimiter, hword, -⟩ := h
  exact ⟨x, hspans.head?_eq rfl, hdelimiter, hword⟩

/-- A printed pair is read with the space before it. -/
theorem printPair_of_spans {p : TypedName} (hp : p.WellFormed) {c d : Cursor} {x : Char}
    (h : c.Spans (Param.printPair p).toList d) (hd : d.rest.head? = some x)
    (hx : isPairDelimiter x = true) :
    ∃ a, c.noise? = some a ∧ c.skipNoise = a ∧ pair? a = some (p.marked, d) := by
  rw [toList_printPair] at h
  obtain ⟨a, hspace, hpair⟩ := Cursor.spans_append_iff.1 h
  have hnoise : startsNoise a.rest = false := by
    simpa [hpair.rest_eq] using hp.type_visible (p.marked.name.toList ++ d.rest)
  exact ⟨a, Cursor.noise?_of_space hspace rfl hnoise, Cursor.skipNoise_of_space hspace rfl hnoise,
    pair?_of_spans hp hpair hd hx⟩

/-- After a pair comes a delimiter: the comma of the next pair or the end. -/
theorem EndsPairs.exists_delimiter {ps : List TypedName} {c d : Cursor} (hd : EndsPairs d)
    (h : c.Spans (ps.flatMap fun p => [','] ++ (Param.printPair p).toList) d) :
    ∃ x, c.rest.head? = some x ∧ isPairDelimiter x = true := by
  cases ps with
  | nil =>
    rw [List.flatMap_nil, Cursor.spans_nil_iff] at h
    subst h
    obtain ⟨x, hhead, hx, -⟩ := hd.exists_head
    exact ⟨x, hhead, hx⟩
  | cons p ps => exact ⟨',', by simp [h.rest_eq], rfl⟩

theorem morePairs_of_spans {ps : List TypedName} (hps : ∀ p ∈ ps, p.WellFormed) {c d : Cursor}
    (h : c.Spans (ps.flatMap fun p => [','] ++ (Param.printPair p).toList) d)
    (hd : EndsPairs d) : morePairs c = (ps.map (·.marked), d) := by
  induction ps generalizing c with
  | nil =>
    rw [List.flatMap_nil, Cursor.spans_nil_iff] at h
    subst h
    unfold morePairs
    split
    · rfl
    · next heq => rw [hd.skipNoise_eat?] at heq; cases heq
  | cons p ps ih =>
    rw [List.flatMap_cons] at h
    obtain ⟨e, hp, htail⟩ := Cursor.spans_append_iff.1 h
    obtain ⟨a, hcomma, hp⟩ := Cursor.spans_append_iff.1 hp
    obtain ⟨x, hhead, hx⟩ := hd.exists_delimiter htail
    obtain ⟨b, -, hskip, hpair⟩ := printPair_of_spans (hps p (List.mem_cons_self ..)) hp hhead hx
    have heat : c.skipNoise.eat? "," = some a := by
      rw [Cursor.skipNoise_eq_self]
      · exact Cursor.eat?_eq_some_iff.2 hcomma
      · exact hcomma.startsNoise_eq_false rfl rfl
    have htail' := ih (fun q hq => hps q (List.mem_cons_of_mem _ hq)) htail
    unfold morePairs
    split
    · next heq => rw [heat] at heq; cases heq
    · next heq =>
      rw [heat] at heq
      cases heq
      split
      · next heq => rw [hskip, hpair] at heq; cases heq
      · next heq =>
        rw [hskip, hpair] at heq
        cases heq
        simp [htail']

theorem pairs_of_spans {ps : List TypedName} (hps : ∀ p ∈ ps, p.WellFormed) {c d : Cursor}
    (h : c.Spans (",".intercalate (ps.map Param.printPair)).toList d) (hd : EndsPairs d) :
    pairs c = (ps.map (·.marked), d) := by
  unfold pairs
  cases ps with
  | nil =>
    rw [List.map_nil, String.intercalate_nil, String.toList_empty, Cursor.spans_nil_iff] at h
    subst h
    rw [hd.noise?_pair?]
    rfl
  | cons p ps =>
    rw [Param.toList_printPairs_cons] at h
    obtain ⟨e, hp, htail⟩ := Cursor.spans_append_iff.1 h
    obtain ⟨x, hhead, hx⟩ := hd.exists_delimiter htail
    obtain ⟨a, hnoise, -, hpair⟩ := printPair_of_spans (hps p (List.mem_cons_self ..)) hp hhead hx
    have htail' := morePairs_of_spans (fun q hq => hps q (List.mem_cons_of_mem _ hq)) htail hd
    rw [hnoise, Option.bind_some, hpair]
    simp [htail']

/-- The place after the kind of a printed line is at the end of the word. -/
theorem EndsPairs.exists_head_of_pairs {ps : List TypedName} {c d : Cursor} (hd : EndsPairs d)
    (h : c.Spans (",".intercalate (ps.map Param.printPair)).toList d) :
    ∃ x, c.rest.head? = some x ∧ prolongsWord x = false ∧ isPairDelimiter x = true := by
  cases ps with
  | nil =>
    rw [List.map_nil, String.intercalate_nil, String.toList_empty, Cursor.spans_nil_iff] at h
    subst h
    obtain ⟨x, hhead, hx, hword⟩ := hd.exists_head
    exact ⟨x, hhead, hword, hx⟩
  | cons p ps =>
    rw [Param.toList_printPairs_cons, toList_printPair] at h
    exact ⟨' ', by simp [h.rest_eq], by decide, rfl⟩

theorem toList_printGuard_some (g : String) :
    (Param.printGuard (some g)).toList = [' '] ++ ("when".toList ++ ([' '] ++ g.toList)) := by
  change (" when " ++ g).toList = _
  simp [String.toList_append]

/-- A text on one line is read up to a line feed. -/
theorem run_line_of_spans {s : String} (hs : OneLine s) {c d : Cursor} (h : c.Spans s.toList d)
    (hd : d.rest.head? = some '\n') : c.Run (!isLineEnd ·) s d := by
  exact ⟨h, hs, stops_of_head hd rfl⟩

/-- One space before a text that begins with no space or tab is the whole gap. -/
theorem skipInlineSpace_of_spans {s : String} {c d e : Cursor}
    (hs : StartsOutside isInlineSpace s) (hspace : c.Spans [' '] d)
    (h : d.Spans s.toList e) (he : e.rest.head? = some '\n') : c.skipInlineSpace = d := by
  have hrun : c.Run isInlineSpace " " d := by
    refine ⟨hspace, by decide, fun x hx => ?_⟩
    rw [h.rest_eq, List.head?_append] at hx
    cases hhead : s.toList.head? with
    | none =>
      rw [hhead, Option.none_or, he] at hx
      cases hx
      rfl
    | some y =>
      rw [hhead, Option.some_or] at hx
      cases hx
      exact hs x hhead
  exact hrun.skipInlineSpace_eq

theorem guard?_of_spans {guard : Option String}
    (hguard : ∀ g ∈ guard, OneLine g ∧ StartsOutside isInlineSpace g)
    {c d : Cursor} {s : List Char} (h : c.Spans (Param.printGuard guard).toList d)
    (hd : d.rest = '\n' :: s) (hs : FollowsParam s) :
    EndsPairs c ∧ guard? c = guard.map (·, d) := by
  cases guard with
  | none =>
    change c.Spans [] d at h
    rw [Cursor.spans_nil_iff] at h
    subst h
    have hspans : d.Spans ['\n'] (d.drop 1) := ⟨by simp [hd], rfl⟩
    have hrest : (d.drop 1).rest = s := by simp [hd]
    have hfollows : FollowsParam (d.drop 1).rest := hrest ▸ hs
    have hnoise := hfollows.startsNoise_eq_false
    have hwhen : (d.drop 1).eat? "when" = none := hfollows.eat?_eq_none rfl (by decide)
    refine ⟨⟨'\n', _, hspans, by decide, by decide, by decide, hnoise, hfollows.pair?_eq_none,
      hfollows.eat?_eq_none rfl (by decide)⟩, ?_⟩
    simp [guard?, Cursor.noise?_of_space hspans rfl hnoise, hwhen]
  | some g =>
    rw [toList_printGuard_some] at h
    obtain ⟨a, hspace, h⟩ := Cursor.spans_append_iff.1 h
    obtain ⟨b, hwhen, h⟩ := Cursor.spans_append_iff.1 h
    obtain ⟨e, hgap, hg⟩ := Cursor.spans_append_iff.1 h
    obtain ⟨hline, hstart⟩ := hguard g rfl
    have hhead : a.rest.head? = some 'w' := hwhen.head?_eq rfl
    have hnoise : startsNoise a.rest = false :=
      Cursor.startsNoise_of_head hhead rfl
    have htoken : spellsToken "when" a b :=
      spellsToken_of_spans hwhen (by decide) (by decide) (hgap.head?_eq rfl) rfl
    have hd' : d.rest.head? = some '\n' := by simp [hd]
    have hskip : b.skipInlineSpace = e := skipInlineSpace_of_spans hstart hgap hg hd'
    have hrun := run_line_of_spans hline hg hd'
    have hcomma : a.eat? "," = none := Cursor.eat?_eq_none_of_head rfl hhead (by decide)
    refine ⟨⟨' ', a, hspace, rfl, rfl, by decide, hnoise,
      pair?_eq_none_of_token htoken (by decide), hcomma⟩, ?_⟩
    have hoffset : e.offset ≠ b.offset := Nat.ne_of_gt (hgap.precedes (by simp)).offset_lt
    simp [guard?, Cursor.noise?_of_space hspace rfl hnoise, Cursor.eat?_eq_some_iff.2 hwhen, hskip,
      hoffset, hrun.line_eq, hrun.lineEnd_eq]

theorem Param.toList_print (p : Param) :
    p.print.toList = p.printKind.toList ++
      ((",".intercalate (p.pairs.map printPair)).toList ++ (printGuard p.guard).toList) := by
  simp only [print, String.toList_append, List.append_assoc]

/-- A printed line is read, whatever may follow it. -/
theorem param_of_spans {p : Param} (hp : p.WellFormed) {c d : Cursor} {s : List Char}
    (h : c.Spans p.print.toList d) (hd : d.rest = '\n' :: s) (hs : FollowsParam s) :
    param c = .ok (some (p.marked, d)) := by
  rw [Param.toList_print] at h
  obtain ⟨a, hkind, h⟩ := Cursor.spans_append_iff.1 h
  obtain ⟨b, hpairs, hguard⟩ := Cursor.spans_append_iff.1 h
  obtain ⟨hends, hguard'⟩ := guard?_of_spans hp.guard hguard hd hs
  obtain ⟨x, hhead, hx, -⟩ := hends.exists_head_of_pairs hpairs
  unfold param
  rw [paramKind_of_spans hp hkind hhead hx]
  simp only [pairs_of_spans hp.pairs hpairs hends, hguard']
  cases hg : p.guard with
  | none =>
    rw [hg] at hguard
    change b.Spans [] d at hguard
    rw [Cursor.spans_nil_iff] at hguard
    simp [Param.marked, hg, hguard]
  | some g => simp [Param.marked, hg]

theorem Param.exists_delimiter_print (p : Param) (s : List Char) :
    ∃ x t, p.print.toList ++ '\n' :: s = p.printKind.toList ++ x :: t ∧
      isPairDelimiter x = true := by
  rw [toList_print]
  cases hpairs : p.pairs with
  | nil =>
    cases hguard : p.guard with
    | none => exact ⟨'\n', s, by simp [printGuard], rfl⟩
    | some g => exact ⟨' ', "when".toList ++ ([' '] ++ g.toList) ++ '\n' :: s,
        by simp [toList_printGuard_some], rfl⟩
  | cons q qs =>
    rw [toList_printPairs_cons, toList_printPair]
    exact ⟨' ', _, by simp only [List.append_assoc, List.singleton_append]; rfl, rfl⟩

theorem Param.followsParam_print (p : Param) (s : List Char) :
    FollowsParam (p.print.toList ++ '\n' :: s) := by
  obtain ⟨x, t, heq, hx⟩ := p.exists_delimiter_print s
  exact .inr ⟨p, x, t, heq, hx⟩

end ApiStubs
