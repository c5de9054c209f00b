-- SUMMARY: How a text spells each part of a template file, and that the rules read only what is spelled.
import ApiStubs.Proofs.Spans
import ApiStubs.Source.Element

/-!
# Spelling

For every part of a template file there is a relation between the part and two
places: the text between the places spells the part. The relations follow the
grammar and do not mention the rules that read it.

`Rule.Obeys` says that a rule gives a value only where the text spells it. It is
proved of each rule in the order of the grammar, and `parse_covers` puts the
pieces together: what a parsed file does not spell is noise.
-/

namespace ApiStubs.Source

open Text

/-- A relation between the values of one kind and the places between which the
    text spells them. -/
abbrev Spelling (α : Type) := α → Cursor → Cursor → Prop

/-- The rule gives a value only where the text spells it. -/
def Rule.Obeys {α : Type} (r : Rule α) (Spells : Spelling α) : Prop :=
  ∀ ⦃c v d⦄, r c = .ok (some (v, d)) → Spells v c d

namespace Rule.Obeys

variable {α β : Type} {r s : Rule α} {Spells : Spelling α}

theorem orElse (hr : r.Obeys Spells) (hs : s.Obeys Spells) : (r.orElse s).Obeys Spells := by
  intro c v d h
  unfold Rule.orElse at h
  split at h
  · exact hs h
  · exact hr h

theorem map {f : α → β} {Spells' : Spelling β} (hr : r.Obeys Spells)
    (hf : ∀ {v c d}, Spells v c d → Spells' (f v) c d) : (r.map f).Obeys Spells' := by
  intro c v d h
  unfold Rule.map at h
  split at h <;> cases h
  next h => exact hf (hr h)

end Rule.Obeys

-- ---------------------------------------------------------------------------
-- Sequences
-- ---------------------------------------------------------------------------

/-- A value spelled from the place where it is said to begin. -/
def Located.Spells {α : Type} (Spells : Spelling α) : Spelling (Located α) :=
  fun v c d => v.offset = c.offset ∧ Spells v.value c d

theorem Rule.Obeys.located {α : Type} {r : Rule α} {Spells : Spelling α} (hr : r.Obeys Spells) :
    r.located.Obeys (Located.Spells Spells) := by
  intro c v d h
  unfold Rule.located at h
  split at h <;> cases h
  next h => exact ⟨rfl, hr h⟩

/-- The values are spelled one after the other, from the first place to the
    second. None is empty, and what lies between them is noise. -/
inductive Tiles {α : Type} (Spells : Spelling α) : List α → Cursor → Cursor → Prop where
  | nil {c : Cursor} : Tiles Spells [] c c
  | cons {v : α} {vs : List α} {c d e : Cursor} :
      Spells v c d → c.Precedes d → Tiles Spells vs d.skipNoise e → Tiles Spells (v :: vs) c e

theorem Tiles.reaches {α : Type} {Spells : Spelling α} {vs : List α} {c d : Cursor}
    (h : Tiles Spells vs c d) : c.Reaches d := by
  induction h with
  | nil => exact .refl _
  | cons _ hcd _ ih => exact (hcd.trans_reaches (Cursor.skipNoise_reaches _)).reaches.trans ih

/-- The entries that a block collects tile it up to its closing brace. -/
theorem collect_tiles {α : Type} {rule : Rule α} {advances : rule.Advances} {unclosed : Fault}
    {stray : Cursor → Fault} {Spells : Spelling α} (hrule : rule.Obeys Spells) {c d : Cursor}
    {vs : List α} (h : collect rule advances unclosed stray c = .ok (vs, d)) :
    ∃ e, Tiles Spells vs c e ∧ e.Spans "\x7d".toList d := by
  fun_induction collect rule advances unclosed stray c generalizing vs d with
  | case2 c _ e he =>
    cases h
    exact ⟨c, .nil, Cursor.eat?_eq_some_iff.1 he⟩
  | case5 c _ _ v e hr ws f hf ih =>
    cases h
    obtain ⟨g, htiles, hclose⟩ := ih hf
    exact ⟨g, .cons (hrule hr) (advances hr) htiles, hclose⟩
  | _ => cases h

-- ---------------------------------------------------------------------------
-- Parameter lines
-- ---------------------------------------------------------------------------

theorem keyword?_eq_some_iff {word : String} {c d : Cursor} :
    keyword? word c = some d ↔ c.Spans word.toList d ∧ d.Stops prolongsWord := by
  rw [← Cursor.eat?_eq_some_iff]
  unfold keyword?
  cases c.eat? word with
  | none => simp
  | some e =>
    simp only [Option.ite_none_left_eq_some, Option.some.injEq, Bool.not_eq_true]
    constructor
    · rintro ⟨hstop, rfl⟩
      refine ⟨rfl, fun x hx => ?_⟩
      rw [Option.mem_def.1 hx] at hstop
      simpa using hstop
    · rintro ⟨rfl, hstop⟩
      refine ⟨?_, rfl⟩
      cases hx : e.rest.head? with
      | none => rfl
      | some x => simpa using hstop x hx

/-- A kind with its group: one of the words for the kind, and for an `either` line
    possibly an index in brackets. -/
def spellsKind : Spelling (ParamKind × Nat) := fun (kind, group) c d =>
  ∃ word a, (word, kind) ∈ kindWords ∧ c.Spans word.toList a ∧ a.Stops prolongsWord ∧
    (group = 0 ∧ d = a ∨
      kind = .either ∧ ∃ (b e : Cursor) (digits : String), a.Spans ['['] b ∧
        b.Run Char.isDigit digits e ∧ digits ≠ "" ∧ e.Spans [']'] d ∧
        group = decimal digits.toList)

theorem index?_spells {c d : Cursor} {digits : List Char} (h : index? c = some (digits, d)) :
    ∃ a b, c.Spans ['['] a ∧ a.Run Char.isDigit (.ofList digits) b ∧ digits ≠ [] ∧
      b.Spans [']'] d := by
  unfold index? at h
  split at h
  · cases h
  · next a ha =>
    dsimp only at h
    split at h
    · cases h
    · next hne =>
      obtain ⟨f, hf, heq⟩ := Option.map_eq_some_iff.1 h
      cases heq
      refine ⟨a, _, Cursor.eat?_eq_some_iff.1 ha, ?_, by simpa using hne,
        Cursor.eat?_eq_some_iff.1 hf⟩
      rw [← a.take_count]
      exact a.run_count Char.isDigit

theorem paramKind_obeys : paramKind.Obeys spellsKind := by
  intro c v d h
  unfold paramKind at h
  split at h
  · cases h
  · next kind a ha =>
    obtain ⟨⟨word, kind'⟩, hmem, hword⟩ := List.exists_of_findSome?_eq_some ha
    obtain ⟨a', ha', heq⟩ := Option.map_eq_some_iff.1 hword
    cases heq
    obtain ⟨hspans, hstops⟩ := keyword?_eq_some_iff.1 ha'
    split at h
    · next heither =>
      split at h
      · cases h
        exact ⟨word, _, hmem, hspans, hstops, .inl ⟨rfl, rfl⟩⟩
      · next digits e hi =>
        split at h <;> cases h
        obtain ⟨b, f, hopen, hrun, hne, hclose⟩ := index?_spells hi
        refine ⟨word, _, hmem, hspans, hstops, .inr ⟨heither, b, f, .ofList digits, hopen, hrun,
          ?_, hclose, by simp⟩⟩
        simpa [← String.toList_inj] using hne
    · cases h
      exact ⟨word, _, hmem, hspans, hstops, .inl ⟨rfl, rfl⟩⟩

theorem not_delimiter_of_isDigit {x : Char} (h : x.isDigit = true) :
    isPairDelimiter x = false := by
  cases hx : isPairDelimiter x with
  | false => rfl
  | true =>
    simp only [isPairDelimiter, Bool.or_eq_true, beq_iff_eq] at hx
    rcases hx with ((((rfl | rfl) | rfl) | rfl) | rfl) | rfl <;> cases h

/-- A type or name: all that comes before the next delimiter. -/
def spellsToken : Spelling String := fun s c d => c.Run (!isPairDelimiter ·) s d ∧ s ≠ ""

theorem token?_eq_some_iff {c d : Cursor} {s : String} :
    token? c = some (s, d) ↔ spellsToken s c d := by
  unfold token? spellsToken
  constructor
  · intro h
    dsimp only at h
    split at h <;> cases h
    next hne =>
    have hrun := c.run_count (!isPairDelimiter ·)
    refine ⟨hrun, fun hempty => hne ?_⟩
    rw [hrun.count_eq, hempty]
    rfl
  · rintro ⟨hrun, hne⟩
    have hpos : c.count (!isPairDelimiter ·) ≠ 0 := by
      rw [hrun.count_eq, String.length_toList]
      simpa using hne
    dsimp only
    rw [if_neg hpos, hrun.take_eq, hrun.drop_eq]

/-- A type and a name with noise between them. -/
def spellsPair : Spelling TypedName := fun p c d =>
  ∃ a b, spellsToken p.type c a ∧ beginsPair p.type = true ∧ a.noise? = some b ∧
    spellsToken p.name b d

theorem pair?_eq_some_iff {c d : Cursor} {p : TypedName} :
    pair? c = some (p, d) ↔ spellsPair p c d := by
  simp only [pair?, spellsPair, Option.bind_eq_bind, Option.bind_eq_some_iff, Option.pure_def,
    ← token?_eq_some_iff]
  constructor
  · rintro ⟨⟨type, a⟩, ha, h⟩
    dsimp only at h
    split at h
    · next hbegins =>
      simp only [Option.bind_eq_some_iff] at h
      obtain ⟨b, hb, ⟨name, e⟩, he, heq⟩ := h
      cases heq
      exact ⟨a, b, ha, hbegins, hb, he⟩
    · cases h
  · rintro ⟨a, b, ha, hbegins, hb, hd⟩
    refine ⟨(p.type, a), ha, ?_⟩
    simp [hbegins, hb, hd]

/-- Pairs that each follow a comma. -/
def spellsMorePairs : Spelling (List TypedName)
  | [], c, d => d = c
  | p :: ps, c, d =>
    ∃ a b, c.skipNoise.Spans [','] a ∧ spellsPair p a.skipNoise b ∧ spellsMorePairs ps b d

theorem morePairs_spells (c : Cursor) : spellsMorePairs (morePairs c).1 c (morePairs c).2 := by
  fun_induction morePairs c with
  | case1 c => rfl
  | case2 c => rfl
  | case3 c a ha p b hb ps d hd ih =>
    rw [hd] at ih
    exact ⟨a, b, Cursor.eat?_eq_some_iff.1 ha, pair?_eq_some_iff.1 hb, ih⟩

/-- The pairs of a parameter line. -/
def spellsPairs : Spelling (List TypedName)
  | [], c, d => d = c
  | p :: ps, c, d => ∃ a b, c.noise? = some a ∧ spellsPair p a b ∧ spellsMorePairs ps b d

theorem pairs_spells (c : Cursor) : spellsPairs (pairs c).1 c (pairs c).2 := by
  unfold pairs
  split
  · rfl
  · next p b h =>
    obtain ⟨a, ha, hp⟩ := Option.bind_eq_some_iff.1 h
    exact ⟨a, b, ha, pair?_eq_some_iff.1 hp, morePairs_spells b⟩

/-- The word `when`, spaces or tabs, and the condition up to the end of the line.
    A line without a guard has nothing here. -/
def spellsGuard : Spelling (Option String)
  | none, c, d => d = c
  | some condition, c, d =>
    ∃ (a b e : Cursor) (gap : String), c.noise? = some a ∧ a.Spans "when".toList b ∧
      b.Run isInlineSpace gap e ∧ gap ≠ "" ∧ e.Run (!isLineEnd ·) condition d

theorem guard?_obeys {c d : Cursor} {condition : String} (h : guard? c = some (condition, d)) :
    spellsGuard (some condition) c d := by
  simp only [guard?, Option.bind_eq_bind, Option.bind_eq_some_iff] at h
  obtain ⟨a, ha, b, hb, h⟩ := h
  split at h <;> cases h
  next hne =>
  obtain ⟨gap, hgap, hrun⟩ := Cursor.exists_gap hne
  exact ⟨a, b, _, gap, ha, Cursor.eat?_eq_some_iff.1 hb, hrun, hgap, Cursor.run_line _⟩

/-- A parameter line. -/
def spellsParam : Spelling Param := fun p c d =>
  ∃ a b, spellsKind (p.kind, p.group) c a ∧ spellsPairs p.pairs a b ∧ spellsGuard p.guard b d

theorem param_obeys : param.Obeys spellsParam := by
  intro c p d h
  unfold param at h
  split at h
  · cases h
  · cases h
  · next kind group a hkind =>
    dsimp only at h
    split at h
    · cases h
      exact ⟨a, _, paramKind_obeys hkind, pairs_spells a, rfl⟩
    · next hguard =>
      cases h
      exact ⟨a, _, paramKind_obeys hkind, pairs_spells a, guard?_obeys hguard⟩

-- ---------------------------------------------------------------------------
-- Blocks
-- ---------------------------------------------------------------------------

/-- An entry of a `with` block. The value of an ignore marker says nothing. -/
def spellsWithEntry : Spelling WithEntry
  | .jsonPath text, c, d => ∃ a, c.Spans "JsonPath=".toList a ∧ a.Run (!isLineEnd ·) text d
  | .omitExcept text, c, d => ∃ a, c.Spans "OmitExcept=".toList a ∧ a.Run (!isLineEnd ·) text d
  | .attribute name value, c, d =>
    ∃ a b e, c.Spans ['['] a ∧ a.Run (· != ']') name b ∧ name ≠ "Ignore" ∧
      b.Spans "]=".toList e ∧ e.Run (!isLineEnd ·) value d
  | .ignore, c, d => ∃ a value, c.Spans "[Ignore]=".toList a ∧ a.Run (!isLineEnd ·) value d

theorem attribute?_spells {c d : Cursor} {w : WithEntry} (h : attribute? c = some (w, d)) :
    ∃ (name value : String) (a b : Cursor), c.Run (· != ']') name a ∧ a.Spans "]=".toList b ∧
      b.Run (!isLineEnd ·) value d ∧
      w = if name = "Ignore" then .ignore else .attribute name value := by
  simp only [attribute?, Option.bind_eq_bind, Option.bind_eq_some_iff, Option.pure_def] at h
  obtain ⟨n, hn, b, hb, heq⟩ := h
  cases heq
  exact ⟨_, _, _, b, (Cursor.run_of_find? hn).1, Cursor.eat?_eq_some_iff.1 hb, b.run_line, rfl⟩

theorem withEntry_obeys : withEntry.Obeys spellsWithEntry := by
  intro c w d h
  simp only [withEntry, Rule.ofOption, Except.ok.injEq] at h
  unfold withEntry? at h
  split at h
  · next a ha =>
    cases h
    exact ⟨a, Cursor.eat?_eq_some_iff.1 ha, a.run_line⟩
  · split at h
    · next a ha =>
      cases h
      exact ⟨a, Cursor.eat?_eq_some_iff.1 ha, a.run_line⟩
    · obtain ⟨a, ha, hw⟩ := Option.bind_eq_some_iff.1 h
      obtain ⟨name, value, b, e, hname, hclose, hvalue, rfl⟩ := attribute?_spells hw
      have hopen := Cursor.eat?_eq_some_iff.1 ha
      split
      · next hignore =>
        subst hignore
        exact ⟨e, value, (hopen.trans hname.spans).trans hclose, hvalue⟩
      · next hne => exact ⟨a, b, e, hopen, hname, hne, hclose, hvalue⟩

/-- A keyword and entries in braces. -/
def spellsListBlock {α : Type} (keyword : String) (Spells : Spelling α) : Spelling (List α) :=
  fun vs c d => ∃ a b e, c.Spans keyword.toList a ∧ a.skipNoise.Spans "\x7b".toList b ∧
    Tiles Spells vs b.skipNoise e ∧ e.Spans "\x7d".toList d

theorem listBlock_obeys {α : Type} {block : ListBlock} {entry : Rule α}
    {advances : entry.Advances} {Spells : Spelling α} (hentry : entry.Obeys Spells) :
    (listBlock block entry advances).Obeys (spellsListBlock block.keyword Spells) := by
  intro c vs d h
  unfold listBlock at h
  split at h
  · cases h
  · next f hopen =>
    simp only [openBlock?, Option.bind_eq_bind, Option.bind_eq_some_iff, Option.pure_def] at hopen
    obtain ⟨a, ha, b, hb, heq⟩ := hopen
    cases heq
    split at h <;> cases h
    next hcollect =>
    obtain ⟨e, htiles, hclose⟩ := collect_tiles hentry hcollect
    exact ⟨a, b, e, Cursor.eat?_eq_some_iff.1 ha, Cursor.eat?_eq_some_iff.1 hb, htiles, hclose⟩

/-- A name and text in braces, up to the first closing brace. -/
def spellsTextBlock (name : String) : Spelling String := fun body c d =>
  ∃ a b e, c.Run Char.isAlphanum name a ∧ name ≠ "" ∧ a.skipNoise.Spans "\x7b".toList b ∧
    b.Run (· != '}') body e ∧ e.Spans "\x7d".toList d

def spellsBlock : Spelling Block
  | .withEntries list => spellsListBlock "with" spellsWithEntry list
  | .params lines => spellsListBlock "params" spellsParam lines
  | .description text => spellsTextBlock "description" text
  | .returns text => spellsTextBlock "returns" text
  | .other name body => fun c d =>
    name ≠ "description" ∧ name ≠ "returns" ∧ spellsTextBlock name body c d

theorem spellsBlock_ofText {name body : String} {c d : Cursor}
    (h : spellsTextBlock name body c d) : spellsBlock (.ofText name body) c d := by
  unfold Block.ofText
  split
  · next hname => subst hname; exact h
  · split
    · next hname => subst hname; exact h
    · next hdescription hreturns => exact ⟨hdescription, hreturns, h⟩

theorem textBlock_obeys : textBlock.Obeys spellsBlock := by
  intro c v d h
  simp only [textBlock] at h
  split at h
  · cases h
  · next hne =>
    split at h
    · cases h
    · next b hb =>
      split at h <;> cases h
      next k hk =>
      obtain ⟨hbody, hclose⟩ := Cursor.run_of_find? hk
      exact spellsBlock_ofText ⟨_, b, _, c.run_count Char.isAlphanum, Cursor.take_count_ne_empty hne,
        Cursor.eat?_eq_some_iff.1 hb, hbody, hclose⟩

theorem withBlock_obeys : withBlock.Obeys spellsBlock :=
  (listBlock_obeys withEntry_obeys).map fun h => h

theorem paramsBlock_obeys : paramsBlock.Obeys spellsBlock :=
  (listBlock_obeys param_obeys).map fun h => h

theorem block_obeys : block.Obeys (Located.Spells spellsBlock) :=
  ((withBlock_obeys.orElse paramsBlock_obeys).orElse textBlock_obeys).located

-- ---------------------------------------------------------------------------
-- Endpoint declarations
-- ---------------------------------------------------------------------------

/-- A return type: a text in which no noise begins, with noise after it. -/
def spellsReturnType : Spelling String := fun s c d =>
  c.Spans s.toList d ∧ s ≠ "" ∧ ∀ i < s.length, startsNoise (c.rest.drop i) = false

theorem startsNoise_drop_of_lt_word {s : List Char} {i : Nat} (h : i < word s) :
    startsNoise (s.drop i) = false := by
  induction s generalizing i with
  | nil => simp [word] at h
  | cons x xs ih =>
    rw [word] at h
    split at h
    · exact absurd h (Nat.not_lt_zero i)
    · next hnoise =>
      cases i with
      | zero => simpa using hnoise
      | succ i => exact ih (Nat.lt_of_succ_lt_succ h)

theorem word?_obeys {c d : Cursor} (h : c.word? = some d) :
    spellsReturnType (c.take (word c.rest)) c d := by
  unfold Cursor.word? at h
  split at h <;> cases h
  next hne =>
  have hle := word_le_length c.rest
  refine ⟨Cursor.spans_take hle, Cursor.take_ne_empty hle hne, fun i hi => ?_⟩
  rw [Cursor.length_take hle] at hi
  exact startsNoise_drop_of_lt_word hi

/-- A URL: a text without blanks. -/
def spellsUrl : Spelling String := fun url c d =>
  c.Spans url.toList d ∧ url ≠ "" ∧ ∀ x ∈ url.toList, isBlank x = false

theorem isBlank_of_mem_take_urlTail {last x : Char} {s : List Char}
    (h : x ∈ s.take (urlTail last s)) : isBlank x = false := by
  fun_induction urlTail last s with
  | case1 => simp at h
  | case2 cs ih =>
    simp only [List.take_succ_cons, List.mem_cons] at h
    rcases h with rfl | rfl | h
    · decide
    · decide
    · exact ih h
  | case3 => simp at h
  | case4 => simp at h
  | case5 last c cs hslash hstop ih =>
    simp only [Bool.or_eq_true, not_or, Bool.not_eq_true] at hstop
    simp only [List.take_succ_cons, List.mem_cons] at h
    rcases h with rfl | h
    · exact hstop.1
    · exact ih h

theorem url?_obeys {c d : Cursor} {url : String} (h : url? c = some (url, d)) :
    spellsUrl url c d := by
  simp only [url?] at h
  split at h <;> cases h
  next hne =>
  have hle := urlLength_le_length c.rest
  refine ⟨Cursor.spans_take hle, Cursor.take_ne_empty hle hne, fun x hx => ?_⟩
  rw [Cursor.take, String.toList_ofList] at hx
  cases hrest : c.rest with
  | nil => simp [hrest] at hx
  | cons y ys =>
    rw [hrest, urlLength] at hx
    split at hx
    · simp at hx
    · next hy =>
      simp only [List.take_succ_cons, List.mem_cons] at hx
      rcases hx with rfl | hx
      · simpa using hy
      · exact isBlank_of_mem_take_urlTail hx

/-- Where the calls go: a word for the method, and for a request a URL. -/
def spellsTarget : Spelling Target
  | .impl, c, d => c.Spans "Impl".toList d ∧ d.Stops prolongsWord
  | .get url, c, d => ∃ a b, c.Spans "Get".toList a ∧ a.noise? = some b ∧ spellsUrl url b d
  | .post url, c, d => ∃ a b, c.Spans "Post".toList a ∧ a.noise? = some b ∧ spellsUrl url b d

theorem requestUrl_obeys {method : Method} {c d : Cursor} {url : String}
    (h : requestUrl method c = .ok (url, d)) : ∃ a, c.noise? = some a ∧ spellsUrl url a d := by
  unfold requestUrl at h
  split at h <;> cases h
  next hu =>
  obtain ⟨a, ha, hu⟩ := Option.bind_eq_some_iff.1 hu
  exact ⟨a, ha, url?_obeys hu⟩

theorem target_obeys {name : String} {c d : Cursor} {t : Target}
    (h : target name c = .ok (t, d)) : spellsTarget t c d := by
  unfold target at h
  split at h
  · next hk =>
    cases h
    exact keyword?_eq_some_iff.1 hk
  · split at h
    · next a ha =>
      obtain ⟨⟨url, e⟩, hurl, heq⟩ := map_eq_ok_iff.1 h
      cases heq
      obtain ⟨b, hb, hurl⟩ := requestUrl_obeys hurl
      exact ⟨a, b, Cursor.eat?_eq_some_iff.1 ha, hb, hurl⟩
    · split at h
      · next a ha =>
        obtain ⟨⟨url, e⟩, hurl, heq⟩ := map_eq_ok_iff.1 h
        cases heq
        obtain ⟨b, hb, hurl⟩ := requestUrl_obeys hurl
        exact ⟨a, b, Cursor.eat?_eq_some_iff.1 ha, hb, hurl⟩
      · cases h

theorem isPlain_of_isNameChar {x : Char} (h : isNameChar x = true) : isPlain x = true := by
  cases hx : isPlain x with
  | true => rfl
  | false =>
    simp only [isPlain, isSpace, Bool.and_eq_false_iff, Bool.not_eq_false', Bool.or_eq_true,
      beq_iff_eq, bne_eq_false_iff_eq] at hx
    rcases hx with ((((((rfl | rfl) | rfl) | rfl) | rfl) | rfl) | rfl) | rfl <;> cases h

/-- A header: return type, name, colon and target, with noise between them. -/
def spellsHeader : Spelling Header := fun h c d =>
  ∃ a b e f, spellsReturnType h.returnType c a ∧ a.noise? = some b ∧
    b.Run isNameChar h.name e ∧ h.name ≠ "" ∧ e.skipNoise.Spans ":".toList f ∧
    spellsTarget h.target f.skipNoise d

theorem header_obeys {c d : Cursor} {h : Header} (hh : header c = .ok (h, d)) :
    spellsHeader h c d := by
  unfold header at hh
  split at hh
  · cases hh
  · next a ha =>
    dsimp only at hh
    split at hh
    · cases hh
    · next name e hname =>
      simp only [endpointName?, Option.bind_eq_bind, Option.bind_eq_some_iff] at hname
      obtain ⟨b, hb, hname⟩ := hname
      split at hname <;> cases hname
      next hne =>
      split at hh
      · cases hh
      · next f hf =>
        obtain ⟨⟨t, g⟩, ht, heq⟩ := map_eq_ok_iff.1 hh
        cases heq
        exact ⟨a, b, _, f, word?_obeys ha, hb, b.run_count isNameChar,
          Cursor.take_count_ne_empty hne, Cursor.eat?_eq_some_iff.1 hf, target_obeys ht⟩

/-- A declaration: the word `endpoint`, a header and blocks in braces. -/
def spellsEndpoint : Spelling EndpointDecl := fun decl c d =>
  ∃ a b e f g, c.Spans "endpoint".toList a ∧ a.noise? = some b ∧ spellsHeader decl.header b e ∧
    e.skipNoise.Spans "\x7b".toList f ∧
    Tiles (Located.Spells spellsBlock) decl.blocks f.skipNoise g ∧ g.Spans "\x7d".toList d

theorem endpoint_obeys : endpoint.Obeys spellsEndpoint := by
  intro c decl d h
  unfold endpoint at h
  split at h
  · cases h
  · next b hb =>
    obtain ⟨a, ha, hb⟩ := Option.bind_eq_some_iff.1 hb
    split at h
    · cases h
    · next hd e he =>
      split at h
      · cases h
      · next f hf =>
        split at h <;> cases h
        next hbody =>
        obtain ⟨g, htiles, hclose⟩ := collect_tiles block_obeys hbody
        exact ⟨a, b, e, f, g, Cursor.eat?_eq_some_iff.1 ha, hb, header_obeys he,
          Cursor.eat?_eq_some_iff.1 hf, htiles, hclose⟩

-- ---------------------------------------------------------------------------
-- Elements
-- ---------------------------------------------------------------------------

/-- A directive: its tag, spaces or tabs, and the value up to the end of the line. -/
def spellsDirective (tag : String) : Spelling String := fun value c d =>
  ∃ (a b : Cursor) (gap : String), c.Spans tag.toList a ∧ a.Run isInlineSpace gap b ∧
    gap ≠ "" ∧ b.Run (!isLineEnd ·) value d

theorem directive_obeys {tag : String} : (directive tag).Obeys (spellsDirective tag) := by
  intro c value d h
  unfold directive at h
  split at h
  · cases h
  · next a ha =>
    dsimp only at h
    split at h <;> cases h
    next hne =>
    obtain ⟨gap, hgap, hrun⟩ := Cursor.exists_gap hne
    exact ⟨a, _, gap, Cursor.eat?_eq_some_iff.1 ha, hrun, hgap, Cursor.run_line _⟩

/-- A raw block: its text ends at the first closing tag. -/
def spellsRaw : Spelling String := fun text c d =>
  ∃ a b, c.Spans "#raw".toList a ∧ a.Spans text.toList b ∧ b.Spans "#endraw".toList d ∧
    ∀ i < text.length, ¬ "#endraw".toList <+: a.rest.drop i

def spellsItem : Spelling Item
  | .namespaceLine text => spellsDirective "#namespace" text
  | .descriptionLine text => spellsDirective "#description" text
  | .raw text => spellsRaw text
  | .endpoint decl => spellsEndpoint decl

theorem rawBlock_obeys : rawBlock.Obeys spellsItem := by
  intro c v d h
  unfold rawBlock at h
  split at h
  · cases h
  · next a ha =>
    split at h <;> cases h
    next n hn =>
    obtain ⟨⟨rest, hrest⟩, hle, hfirst⟩ := find?_eq_some_iff.1 hn
    refine ⟨a, a.drop n, Cursor.eat?_eq_some_iff.1 ha, Cursor.spans_take hle, ?_, ?_⟩
    · rw [← Cursor.drop_drop]
      refine ⟨?_, rfl⟩
      rw [Cursor.rest_drop, Cursor.rest_drop, Cursor.rest_drop, ← hrest, ← String.length_toList,
        List.drop_left]
    · rw [Cursor.length_take hle]
      exact hfirst

theorem namespaceLine_obeys : namespaceLine.Obeys spellsItem := directive_obeys.map fun h => h

theorem descriptionLine_obeys : descriptionLine.Obeys spellsItem := directive_obeys.map fun h => h

theorem endpointItem_obeys : (endpoint.map .endpoint).Obeys spellsItem :=
  endpoint_obeys.map fun h => h

theorem element_obeys : element.Obeys (Located.Spells spellsItem) :=
  (((namespaceLine_obeys.orElse descriptionLine_obeys).orElse rawBlock_obeys).orElse
    endpointItem_obeys).located

theorem elements_tiles {c : Cursor} {es : List Element} (h : elements c = .ok es) :
    ∃ d, Tiles (Located.Spells spellsItem) es c d ∧ d.rest = [] := by
  fun_induction elements c generalizing es with
  | case1 c hend =>
    cases h
    exact ⟨c, .nil, by simpa [Cursor.atEnd] using hend⟩
  | case4 c _ e d hr es' hes ih =>
    cases h
    obtain ⟨f, htiles, hend⟩ := ih hes
    exact ⟨f, .cons (element_obeys hr) (element_advances hr) htiles, hend⟩
  | _ => cases h

-- ---------------------------------------------------------------------------
-- Tilings
-- ---------------------------------------------------------------------------

namespace Tiles

variable {α : Type} {Spells : Spelling α}

theorem exists_reaches {vs : List α} {c d : Cursor} (h : Tiles Spells vs c d) {v : α}
    (hv : v ∈ vs) : ∃ a b, c.Reaches a ∧ Spells v a b := by
  induction h with
  | nil => cases hv
  | @cons w vs c d e hspells hprec _ ih =>
    cases hv with
    | head => exact ⟨c, d, .refl c, hspells⟩
    | tail _ hv =>
      obtain ⟨a, b, ha, hspells⟩ := ih hv
      exact ⟨a, b, (hprec.reaches.trans d.skipNoise_reaches).trans ha, hspells⟩

theorem exists_spells {vs : List α} {c d : Cursor} (h : Tiles Spells vs c d) {v : α}
    (hv : v ∈ vs) : ∃ a b, Spells v a b := by
  obtain ⟨a, b, -, hspells⟩ := h.exists_reaches hv
  exact ⟨a, b, hspells⟩

theorem le_offset {vs : List (Located α)} {c d : Cursor}
    (h : Tiles (Located.Spells Spells) vs c d) {v : Located α} (hv : v ∈ vs) :
    c.offset ≤ v.offset := by
  induction h with
  | nil => cases hv
  | cons hspells hprec _ ih =>
    cases hv with
    | head => exact Nat.le_of_eq hspells.1.symm
    | tail _ hv =>
      have hlt := (hprec.trans_reaches (Cursor.skipNoise_reaches _)).offset_lt
      exact Nat.le_trans (Nat.le_of_lt hlt) (ih hv)

/-- Values that tile a text begin at strictly increasing offsets. -/
theorem offsets_increase {vs : List (Located α)} {c d : Cursor}
    (h : Tiles (Located.Spells Spells) vs c d) : (vs.map (·.offset)).Pairwise (· < ·) := by
  induction h with
  | nil => exact .nil
  | cons hspells hprec htiles ih =>
    rw [List.map_cons, List.pairwise_cons]
    refine ⟨?_, ih⟩
    intro n hn
    obtain ⟨w, hw, rfl⟩ := List.mem_map.1 hn
    have hlt := (hprec.trans_reaches (Cursor.skipNoise_reaches _)).offset_lt
    rw [hspells.1]
    exact Nat.lt_of_lt_of_le hlt (htiles.le_offset hw)

end Tiles

-- ---------------------------------------------------------------------------
-- Places
-- ---------------------------------------------------------------------------

theorem spellsTarget_reaches {t : Target} {c d : Cursor} (h : spellsTarget t c d) :
    c.Reaches d := by
  cases t with
  | impl => exact h.1.reaches
  | get url =>
    obtain ⟨a, b, ha, hb, hurl, -⟩ := h
    exact ha.reaches.trans ((Cursor.noise?_precedes hb).reaches.trans hurl.reaches)
  | post url =>
    obtain ⟨a, b, ha, hb, hurl, -⟩ := h
    exact ha.reaches.trans ((Cursor.noise?_precedes hb).reaches.trans hurl.reaches)

theorem spellsHeader_reaches {h : Header} {c d : Cursor} (hh : spellsHeader h c d) :
    c.Reaches d := by
  obtain ⟨a, b, e, f, htype, hnoise, hname, -, hcolon, htarget⟩ := hh
  have hb := htype.1.reaches.trans (Cursor.noise?_precedes hnoise).reaches
  have hf := (hb.trans hname.spans.reaches).trans (e.skipNoise_reaches.trans hcolon.reaches)
  exact hf.trans (f.skipNoise_reaches.trans (spellsTarget_reaches htarget))

/-- Every block of a file is spelled at a place of the file. -/
theorem exists_block_place {text : List Char} {es : List Element} (h : parse text = .ok es)
    {e : Element} (he : e ∈ es) {decl : EndpointDecl} (hdecl : e.value = .endpoint decl)
    {b : Located Block} (hb : b ∈ decl.blocks) : ∃ c d, c.In text ∧ spellsBlock b.value c d := by
  obtain ⟨d, htiles, -⟩ := elements_tiles h
  obtain ⟨c, c', hc, -, hspells⟩ := htiles.exists_reaches he
  rw [hdecl] at hspells
  obtain ⟨a₁, a₂, a₃, a₄, a₅, hword, hnoise, hheader, hbrace, hblocks, -⟩ := hspells
  obtain ⟨a, a', ha, -, hblock⟩ := hblocks.exists_reaches hb
  have hreaches : (Cursor.start text).Reaches a := by
    have h₁ := (Cursor.start text).skipNoise_reaches.trans (hc.trans hword.reaches)
    have h₃ := (Cursor.noise?_precedes hnoise).reaches.trans (spellsHeader_reaches hheader)
    have h₄ := a₃.skipNoise_reaches.trans (hbrace.reaches.trans (a₄.skipNoise_reaches.trans ha))
    exact h₁.trans (h₃.trans h₄)
  exact ⟨a, a', (Cursor.in_start text).of_reaches hreaches, hblock⟩

-- ---------------------------------------------------------------------------
-- Coverage
-- ---------------------------------------------------------------------------

/-- The offset after the noise at an offset. -/
def noiseEnd (text : List Char) (offset : Nat) : Nat :=
  (Cursor.ofOffset text offset).skipNoise.offset

/-- A tiling of a text, told by the offsets at which its values end: each value
    begins after the noise behind the one before. -/
theorem Tiles.exists_ends {α : Type} {Spells : Spelling α} {text : List Char}
    {vs : List (Located α)} {c d : Cursor} (h : Tiles (Located.Spells Spells) vs c d)
    (hc : c.In text) :
    ∃ ends : List Nat,
      vs.map (·.offset) ++ [d.offset] = c.offset :: ends.map (noiseEnd text) ∧
      ∀ span ∈ vs.zip ends, span.1.offset < span.2 ∧ span.2 ≤ text.length ∧
        Spells span.1.value (.ofOffset text span.1.offset) (.ofOffset text span.2) := by
  induction h with
  | nil => exact ⟨[], rfl, by simp⟩
  | @cons v vs c d e hspells hprec _ ih =>
    have hd : d.In text := hc.of_reaches hprec.reaches
    obtain ⟨ends, hoffsets, hspans⟩ := ih (hd.of_reaches d.skipNoise_reaches)
    refine ⟨d.offset :: ends, ?_, ?_⟩
    · rw [List.map_cons, List.cons_append, hoffsets, hspells.1, List.map_cons, noiseEnd,
        ← hd.eq_ofOffset]
    · intro span hspan
      rw [List.zip_cons_cons, List.mem_cons] at hspan
      rcases hspan with rfl | hspan
      · rw [hspells.1]
        refine ⟨hprec.offset_lt, hd.offset_le, ?_⟩
        rw [← hc.eq_ofOffset, ← hd.eq_ofOffset]
        exact hspells.2
      · exact hspans span hspan

/-- The text is its elements and noise. The elements begin at their offsets, in
    order and apart, and end at `ends`. -/
structure Covers (text : List Char) (es : List Element) (ends : List Nat) : Prop where
  /-- What comes before, between and after the elements is noise, up to the last
      character. -/
  noise : es.map (·.offset) ++ [text.length] = (0 :: ends).map (noiseEnd text)
  /-- All of the text from the offset of an element to its end spells it. -/
  spelled : ∀ span ∈ es.zip ends, span.1.offset < span.2 ∧ span.2 ≤ text.length ∧
    spellsItem span.1.value (.ofOffset text span.1.offset) (.ofOffset text span.2)
  ordered : (es.map (·.offset)).Pairwise (· < ·)
  blocksOrdered : ∀ e ∈ es, ∀ decl, e.value = .endpoint decl →
    (decl.blocks.map (·.offset)).Pairwise (· < ·)

/-- Nothing of a text that is read is lost or read twice. -/
theorem parse_covers {text : List Char} {es : List Element} (h : parse text = .ok es) :
    ∃ ends, Covers text es ends := by
  obtain ⟨d, htiles, hend⟩ := elements_tiles h
  have hstart : (Cursor.start text).In text := ⟨by simp [Cursor.start], Nat.zero_le _⟩
  have hfirst := hstart.of_reaches (Cursor.skipNoise_reaches _)
  have hlast : d.offset = text.length := (hfirst.of_reaches htiles.reaches).offset_eq hend
  obtain ⟨ends, hoffsets, hspans⟩ := htiles.exists_ends hfirst
  refine ⟨ends, ?_, hspans, htiles.offsets_increase, ?_⟩
  · rw [← hlast, hoffsets]
    rfl
  · intro e he decl hdecl
    obtain ⟨a, b, -, hspells⟩ := htiles.exists_spells he
    rw [hdecl] at hspells
    obtain ⟨_, _, _, _, _, _, _, _, _, hblocks, _⟩ := hspells
    exact hblocks.offsets_increase

/-- A text with comments between its elements and its blocks, a raw block that holds
    part of its closing tag and a URL that holds braces. -/
def shopText : List Char :=
  ("#raw #end#endraw // c\nendpoint T A:Get /x\x7b/\x7d\n\x7bwith\x7b[Ignore]=\n\x7d" ++
    "note\x7b \x7d#\nparams\x7beither a @b\x7d\x7d#namespace N").toList

def shopElements : List Element :=
  [⟨0, .raw " #end"⟩,
    ⟨22, .endpoint ⟨⟨"T", "A", .get "/x\x7b/\x7d"⟩,
      [⟨46, .withEntries [.ignore]⟩, ⟨62, .other "note" " "⟩,
        ⟨71, .params [{ kind := .either, pairs := [⟨"a", "@b"⟩] }]⟩]⟩⟩,
    ⟨91, .namespaceLine "N"⟩]

theorem parse_covers_shop : parse shopText = .ok shopElements ∧
    ∃ ends, Covers shopText shopElements ends := by
  have hparse : parse shopText = .ok shopElements := eq_ok_of_toOption (by decide +kernel)
  exact ⟨hparse, parse_covers hparse⟩

end ApiStubs.Source
