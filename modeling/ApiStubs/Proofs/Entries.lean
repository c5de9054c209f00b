-- SUMMARY: How far types, names and attributes reach in the entries of list blocks.
import ApiStubs.Proofs.Declared

/-!
# The reach of entries

Words of a template end where noise begins, and values end with their line. Two
kinds of text inside list blocks have an end of their own. The types and names of
parameters go on to the next delimiter, also through a comment, and the name of an
attribute goes on to the next closing bracket, also through line ends.

`exists_tokenAt` says when a type or a name has noise in it, and
`entry_in_line_iff` when an entry of a `with` block leaves its line.
-/

namespace ApiStubs.Source

open Text

-- ---------------------------------------------------------------------------
-- Entries of a file
-- ---------------------------------------------------------------------------

/-- The blocks of all endpoints of a file. -/
def blocksOf (es : List Element) : List Block :=
  (es.filterMap (·.value.endpoint?)).flatMap fun decl => decl.blocks.map (·.value)

/-- The lines of all parameter blocks of a file. -/
def paramsOf (es : List Element) : List Param := ((blocksOf es).filterMap (·.params?)).flatten

/-- The entries of all `with` blocks of a file. -/
def entriesOf (es : List Element) : List WithEntry :=
  ((blocksOf es).filterMap (·.withEntries?)).flatten

section Places

variable {text : List Char}

theorem exists_item_place {α : Type} {keyword : String} {Spells : Spelling α} {vs : List α}
    {c d : Cursor} (hc : c.In text) (h : spellsListBlock keyword Spells vs c d) {v : α}
    (hv : v ∈ vs) : ∃ a b, a.In text ∧ Spells v a b := by
  obtain ⟨a, b, e, hkeyword, hopen, htiles, -⟩ := h
  obtain ⟨f, g, hf, hspells⟩ := htiles.exists_reaches hv
  have hb : c.Reaches b := hkeyword.reaches.trans (a.skipNoise_reaches.trans hopen.reaches)
  exact ⟨f, g, hc.of_reaches (hb.trans (b.skipNoise_reaches.trans hf)), hspells⟩

variable {es : List Element} (h : parse text = .ok es)
include h

theorem exists_place_of_mem_blocksOf {b : Block} (hb : b ∈ blocksOf es) :
    ∃ c d, c.In text ∧ spellsBlock b c d := by
  obtain ⟨decl, hdecl, hb⟩ := List.mem_flatMap.1 hb
  obtain ⟨e, he, hendpoint⟩ := List.mem_filterMap.1 hdecl
  obtain ⟨located, hlocated, rfl⟩ := List.mem_map.1 hb
  have hvalue : e.value = .endpoint decl := by
    cases hitem : e.value <;> rw [hitem] at hendpoint <;> cases hendpoint
    rfl
  exact exists_block_place h he hvalue hlocated

theorem exists_param_place {line : Param} (hline : line ∈ paramsOf es) :
    ∃ c d, c.In text ∧ spellsParam line c d := by
  obtain ⟨lines, hlines, hline⟩ := List.mem_flatten.1 hline
  obtain ⟨b, hb, hview⟩ := List.mem_filterMap.1 hlines
  obtain ⟨c, d, hc, hspells⟩ := exists_place_of_mem_blocksOf h hb
  cases b <;> cases hview
  exact exists_item_place hc hspells hline

theorem exists_entry_place {w : WithEntry} (hw : w ∈ entriesOf es) :
    ∃ c d, c.In text ∧ spellsWithEntry w c d := by
  obtain ⟨list, hlist, hw⟩ := List.mem_flatten.1 hw
  obtain ⟨b, hb, hview⟩ := List.mem_filterMap.1 hlist
  obtain ⟨c, d, hc, hspells⟩ := exists_place_of_mem_blocksOf h hb
  cases b <;> cases hview
  exact exists_item_place hc hspells hw

end Places

-- ---------------------------------------------------------------------------
-- Places of types and names
-- ---------------------------------------------------------------------------

/-- Where noise is skipped, no noise is left. -/
theorem startsNoise_skipNoise (c : Cursor) : startsNoise c.skipNoise.rest = false :=
  startsNoise_drop_noise c.rest

section Tokens

variable {c d : Cursor} {p : TypedName} {ps : List TypedName}

theorem spellsKind_reaches {kind : ParamKind × Nat} (h : spellsKind kind c d) : c.Reaches d := by
  obtain ⟨word, a, -, hword, -, ⟨-, rfl⟩ | ⟨-, b, e, digits, hopen, hdigits, -, hclose, -⟩⟩ := h
  · exact hword.reaches
  · exact hword.reaches.trans
      (hopen.reaches.trans (hdigits.spans.reaches.trans hclose.reaches))

theorem spellsPair_reaches (h : spellsPair p c d) : c.Reaches d := by
  obtain ⟨a, b, htype, -, hnoise, hname⟩ := h
  exact htype.1.spans.reaches.trans
    ((Cursor.noise?_precedes hnoise).reaches.trans hname.1.spans.reaches)

theorem exists_place_of_more (h : spellsMorePairs ps c d) (hp : p ∈ ps) :
    ∃ a b, c.Reaches a ∧ startsNoise a.rest = false ∧ spellsPair p a b := by
  induction ps generalizing c with
  | nil => cases hp
  | cons q ps ih =>
    obtain ⟨a, b, hcomma, hpair, hmore⟩ := h
    have ha : c.Reaches a.skipNoise :=
      c.skipNoise_reaches.trans (hcomma.reaches.trans a.skipNoise_reaches)
    cases hp with
    | head => exact ⟨a.skipNoise, b, ha, startsNoise_skipNoise a, hpair⟩
    | tail _ hp =>
      obtain ⟨a', b', ha', hquiet, hpair'⟩ := ih hmore hp
      exact ⟨a', b', ha.trans ((spellsPair_reaches hpair).trans ha'), hquiet, hpair'⟩

theorem exists_place_of_pairs (h : spellsPairs ps c d) (hp : p ∈ ps) :
    ∃ a b, c.Reaches a ∧ startsNoise a.rest = false ∧ spellsPair p a b := by
  cases ps with
  | nil => cases hp
  | cons q ps =>
    obtain ⟨a, b, hnoise, hpair, hmore⟩ := h
    have ha := (Cursor.noise?_precedes hnoise).reaches
    cases hp with
    | head =>
      refine ⟨a, b, ha, ?_, hpair⟩
      exact skipNoise_of_noise? hnoise ▸ startsNoise_skipNoise c
    | tail _ hp =>
      obtain ⟨a', b', ha', hquiet, hpair'⟩ := exists_place_of_more hmore hp
      exact ⟨a', b', ha.trans ((spellsPair_reaches hpair).trans ha'), hquiet, hpair'⟩

/-- Every type and name of a parameter line begins where no noise does. -/
theorem exists_token_place {line : Param} (h : spellsParam line c d) (hp : p ∈ line.pairs)
    {token : String} (htoken : token = p.type ∨ token = p.name) :
    ∃ a b, c.Reaches a ∧ startsNoise a.rest = false ∧ spellsToken token a b := by
  obtain ⟨e, f, hkind, hpairs, -⟩ := h
  obtain ⟨a, b, ha, hquiet, hpair⟩ := exists_place_of_pairs hpairs hp
  have hreaches := (spellsKind_reaches hkind).trans ha
  obtain ⟨a', b', htype, -, hnoise, hname⟩ := hpair
  rcases htoken with rfl | rfl
  · exact ⟨a, a', hreaches, hquiet, htype⟩
  · refine ⟨b', b, ?_, ?_, hname⟩
    · exact hreaches.trans (htype.1.spans.reaches.trans (Cursor.noise?_precedes hnoise).reaches)
    · exact skipNoise_of_noise? hnoise ▸ startsNoise_skipNoise a'

end Tokens

-- ---------------------------------------------------------------------------
-- Noise in types and names
-- ---------------------------------------------------------------------------

theorem startsNoise_drop_word {s : List Char} (h : word s < s.length) :
    startsNoise (s.drop (word s)) = true := by
  induction s with
  | nil => cases h
  | cons x xs ih =>
    unfold word at h ⊢
    split
    · assumption
    · next hquiet =>
      simp only [hquiet, Bool.false_eq_true, if_false, List.length_cons,
        Nat.add_lt_add_iff_right] at h
      exact ih h

/-- A word goes on as long as no noise begins. -/
theorem le_word_iff {s : List Char} {n : Nat} (hn : n ≤ s.length) :
    n ≤ word s ↔ ∀ i < n, startsNoise (s.drop i) = false := by
  constructor
  · intro hle i hi
    exact startsNoise_drop_of_lt_word (Nat.lt_of_lt_of_le hi hle)
  · intro hquiet
    refine Nat.le_of_not_lt fun hlt => ?_
    have hnoise := startsNoise_drop_word (Nat.lt_of_lt_of_le hlt hn)
    simp [hquiet (word s) hlt] at hnoise

/-- The only white space that is no delimiter are the vertical tab and the form feed. -/
theorem isSpace_cases {x : Char} (hspace : isSpace x = true) (hx : isPairDelimiter x = false) :
    x = '\x0b' ∨ x = '\x0c' := by
  simp only [isSpace, isPairDelimiter, Bool.or_eq_true, Bool.or_eq_false_iff, beq_iff_eq,
    beq_eq_false_iff_ne] at hspace hx
  grind

/-- The number of characters before the next noise or the next delimiter, whichever comes
    first. -/
def lexeme (s : List Char) : Nat := min (word s) (s.takeWhile (!isPairDelimiter ·)).length

section Lexeme

variable {c d : Cursor} {token : String} (h : spellsToken token c d)
include h

theorem lexeme_eq : lexeme c.rest = min (word c.rest) token.length := by
  have hcount : (c.rest.takeWhile (!isPairDelimiter ·)).length = token.length :=
    h.1.count_eq.trans String.length_toList
  rw [lexeme, hcount]

/-- No noise begins in a token exactly if it is no more than its lexeme. -/
theorem quiet_iff_length_eq :
    (∀ i < token.length, startsNoise (c.rest.drop i) = false) ↔ token.length = lexeme c.rest := by
  have hle : token.length ≤ c.rest.length := String.length_toList ▸ h.1.spans.length_le
  rw [← le_word_iff hle, lexeme_eq h]
  omega

/-- A token is no more than its lexeme exactly if the lexeme ends at a delimiter. -/
theorem length_eq_iff_stops :
    token.length = lexeme c.rest ↔ (c.drop (lexeme c.rest)).Stops (!isPairDelimiter ·) := by
  have hd : d = c.drop token.length := String.length_toList ▸ h.1.spans.eq_drop
  constructor
  · intro heq
    rw [← heq, ← hd]
    exact h.1.stops
  · intro hstops
    refine Nat.le_antisymm (Nat.le_of_not_lt fun hlt => ?_) (lexeme_eq h ▸ Nat.min_le_right _ _)
    -- The character behind the lexeme is one of the token, so it is no delimiter.
    have hlt' : lexeme c.rest < token.toList.length := String.length_toList ▸ hlt
    have hhead (n : Nat) (hn : n < token.toList.length) :
        (c.drop n).rest.head? = some token.toList[n] := by
      rw [Cursor.rest_drop, List.head?_drop, h.1.spans.rest_eq, List.getElem?_append_left hn,
        List.getElem?_eq_getElem hn]
    have hdelimiter := hstops _ (hhead _ hlt')
    rw [h.1.all _ (List.getElem_mem hlt')] at hdelimiter
    cases hdelimiter

/-- What a token takes in behind its lexeme begins with noise. -/
theorem startsNoise_drop_lexeme (hne : token.length ≠ lexeme c.rest) :
    startsNoise (c.rest.drop (lexeme c.rest)) = true := by
  have hle : token.length ≤ c.rest.length := String.length_toList ▸ h.1.spans.length_le
  have heq := lexeme_eq h
  have hword : lexeme c.rest = word c.rest := by omega
  rw [hword]
  exact startsNoise_drop_word (by omega)

end Lexeme

/-- How a type or a name of a parameter stands in its file. -/
structure TokenAt (text : List Char) (token : String) (start : Nat) : Prop where
  /-- It goes on to the next delimiter. -/
  spelled : spellsToken token (.ofOffset text start) (.ofOffset text (start + token.length))
  begins : startsNoise (text.drop start) = false
  spaces : ∀ x ∈ token.toList, isSpace x = true → x = '\x0b' ∨ x = '\x0c'
  /-- No noise begins in it exactly if it is no more than its lexeme. -/
  quiet_iff : (∀ i < token.length, startsNoise (text.drop (start + i)) = false) ↔
    token.length = lexeme (text.drop start)
  /-- It is no more than its lexeme exactly if a delimiter ends the lexeme, or the file. -/
  ends_iff : token.length = lexeme (text.drop start) ↔
    (Cursor.ofOffset text (start + lexeme (text.drop start))).Stops (!isPairDelimiter ·)
  /-- Otherwise it takes in the noise that begins directly behind its lexeme. -/
  noisy : token.length ≠ lexeme (text.drop start) →
    startsNoise (text.drop (start + lexeme (text.drop start))) = true

/-- A type or a name has noise in it exactly if noise that begins with no delimiter stands
    directly behind its lexeme. -/
theorem exists_tokenAt {text : List Char} {es : List Element} (h : parse text = .ok es)
    {line : Param} (hline : line ∈ paramsOf es) {p : TypedName} (hp : p ∈ line.pairs)
    {token : String} (htoken : token = p.type ∨ token = p.name) :
    ∃ start, TokenAt text token start := by
  obtain ⟨c, d, hc, hspells⟩ := exists_param_place h hline
  obtain ⟨a, b, ha, hquiet, htoken⟩ := exists_token_place hspells hp htoken
  have hin := hc.of_reaches ha
  have hrest : a.rest = text.drop a.offset := hin.rest_eq
  have hdrop (n : Nat) : a.drop n = .ofOffset text (a.offset + n) := by
    simp [Cursor.drop, Cursor.ofOffset, hrest]
  have hb : b = .ofOffset text (a.offset + token.length) := by
    rw [← hdrop, ← String.length_toList]
    exact htoken.1.spans.eq_drop
  refine ⟨a.offset, ?_, ?_, ?_, ?_, ?_, ?_⟩
  · rw [← hb, ← hin.eq_ofOffset]
    exact htoken
  · exact hrest ▸ hquiet
  · intro x hx hspace
    exact isSpace_cases hspace (by simpa using htoken.1.all x hx)
  · simp only [← List.drop_drop, ← hrest]
    exact quiet_iff_length_eq htoken
  · rw [← hrest, ← hdrop]
    exact length_eq_iff_stops htoken
  · simp only [← List.drop_drop, ← hrest]
    exact startsNoise_drop_lexeme htoken

/-- A parameter with a comment directly behind its name. -/
def notedText : List Char :=
  "endpoint void X:Impl\x7bparams\x7brequired long id//note\n\x7d\x7d".toList

def notedParam : Param where
  kind := .required
  pairs := [⟨"long", "id//note"⟩]

def notedElements : List Element :=
  [⟨0, .endpoint ⟨⟨"void", "X", .impl⟩, [⟨21, .params [notedParam]⟩]⟩⟩]

theorem parse_notedText : parse notedText = .ok notedElements :=
  eq_ok_of_toOption (by decide +kernel)

theorem exists_tokenAt_noted :
    parse notedText = .ok notedElements ∧ notedParam ∈ paramsOf notedElements ∧
      ∃ start, TokenAt notedText "id//note" start := by
  have hmem : notedParam ∈ paramsOf notedElements := List.mem_cons_self
  exact ⟨parse_notedText, hmem, exists_tokenAt parse_notedText hmem List.mem_cons_self (.inr rfl)⟩

/-- A comment directly behind a name becomes part of it. -/
theorem not_forall_token_quiet :
    ¬ ∀ text es, parse text = .ok es → ∀ line ∈ paramsOf es, ∀ p ∈ line.pairs,
      ∀ token, token = p.type ∨ token = p.name →
        (∀ x ∈ token.toList, isSpace x = false) ∧ ¬ "//".toList <:+: token.toList := by
  intro hall
  have hquiet := hall notedText notedElements parse_notedText notedParam List.mem_cons_self
    ⟨"long", "id//note"⟩ List.mem_cons_self "id//note" (.inr rfl)
  exact hquiet.2 ⟨"id".toList, "note".toList, by decide⟩

-- ---------------------------------------------------------------------------
-- Lines
-- ---------------------------------------------------------------------------

section Lines

variable {p : Char → Bool} {s t : List Char}

theorem length_le_takeWhile_append_iff :
    s.length ≤ ((s ++ t).takeWhile p).length ↔ ∀ x ∈ s, p x = true := by
  induction s with
  | nil => simp
  | cons x s ih => cases hx : p x <;> simp [hx, ih]

/-- The first `x` of a text is kept exactly if all that comes before it is. -/
theorem mem_takeWhile_append_iff {x : Char} (hs : x ∉ s) (hx : p x = true) :
    x ∈ (s ++ x :: t).takeWhile p ↔ ∀ y ∈ s, p y = true := by
  induction s with
  | nil => simp [hx]
  | cons y s ih =>
    obtain ⟨hne, hs⟩ := not_or.1 (mt List.mem_cons.2 hs)
    cases hy : p y <;> simp [hy, hne, ih hs]

variable {c d : Cursor}

/-- A place is on the line of another one exactly if no line ends between them. -/
theorem le_lineEnd_iff (h : c.Spans s d) :
    d.offset ≤ c.lineEnd.offset ↔ ∀ x ∈ s, (!isLineEnd x) = true := by
  have hlength : lineLength c.rest = ((s ++ d.rest).takeWhile (!isLineEnd ·)).length := by
    rw [lineLength, h.rest_eq]
  rw [h.2, Cursor.lineEnd, Cursor.offset_drop, Nat.add_le_add_iff_left, hlength]
  exact length_le_takeWhile_append_iff

/-- A keyword and the rest of the line are on the line. -/
theorem le_lineEnd_of_run {a : Cursor} {value : String} (h : c.Spans s a)
    (hs : s.all (!isLineEnd ·) = true) (hrun : a.Run (!isLineEnd ·) value d) :
    d.offset ≤ c.lineEnd.offset := by
  refine (le_lineEnd_iff (h.trans hrun.spans)).2 fun x hx => ?_
  rcases List.mem_append.1 hx with hx | hx
  · exact List.all_eq_true.1 hs x hx
  · exact hrun.all x hx

end Lines

section Attributes

variable {c d : Cursor} {name value : String} (h : spellsWithEntry (.attribute name value) c d)
include h

theorem oneLine_value : OneLine value := by
  obtain ⟨a, b, e, -, -, -, -, hvalue⟩ := h
  exact hvalue.all

theorem oneLine_name_iff_le : OneLine name ↔ d.offset ≤ c.lineEnd.offset := by
  obtain ⟨a, b, e, hopen, hname, -, hclose, hvalue⟩ := h
  rw [le_lineEnd_iff (((hopen.trans hname.spans).trans hclose).trans hvalue.spans)]
  constructor
  · intro hline x hx
    simp only [List.mem_append] at hx
    rcases hx with ((hx | hx) | hx) | hx
    · cases List.mem_singleton.1 hx; rfl
    · exact hline x hx
    · exact (by decide : AllChars (!isLineEnd ·) "]=") x hx
    · exact hvalue.all x hx
  · intro hall x hx
    refine hall x ?_
    simp [hx]

/-- The name of an attribute stays on its line exactly if the line has a closing bracket. -/
theorem oneLine_name_iff_mem : OneLine name ↔ ']' ∈ c.line.toList := by
  obtain ⟨a, b, e, hopen, hname, -, hclose, -⟩ := h
  have hfresh : ']' ∉ ['['] ++ name.toList := by
    simpa using fun hmem => absurd (hname.all ']' hmem) (by decide)
  have hline : c.line.toList =
      (['['] ++ name.toList ++ ']' :: '=' :: e.rest).takeWhile (!isLineEnd ·) := by
    rw [Cursor.line, lineLength, ← Cursor.count, Cursor.take_count, String.toList_ofList,
      (hopen.trans hname.spans).rest_eq, hclose.rest_eq]
    rfl
  rw [hline, mem_takeWhile_append_iff hfresh (by decide)]
  simp [OneLine, AllChars, isLineEnd]

end Attributes

/-- All entries but attributes are a keyword and the rest of the line. -/
theorem spellsWithEntry_cases {w : WithEntry} {c d : Cursor} (h : spellsWithEntry w c d) :
    (w.attribute? = none ∧ ∃ (key : List Char) (a : Cursor) (value : String),
      c.Spans key a ∧ key.all (!isLineEnd ·) = true ∧ a.Run (!isLineEnd ·) value d) ∨
    ∃ name value, w = .attribute name value := by
  cases w with
  | jsonPath text =>
    obtain ⟨a, hkey, htext⟩ := h
    exact .inl ⟨rfl, _, a, text, hkey, by decide, htext⟩
  | omitExcept text =>
    obtain ⟨a, hkey, htext⟩ := h
    exact .inl ⟨rfl, _, a, text, hkey, by decide, htext⟩
  | «attribute» name value => exact .inr ⟨name, value, rfl⟩
  | ignore =>
    obtain ⟨a, value, hkey, hvalue⟩ := h
    exact .inl ⟨rfl, _, a, value, hkey, by decide, hvalue⟩

theorem spellsWithEntry_reaches {w : WithEntry} {c d : Cursor} (h : spellsWithEntry w c d) :
    c.Reaches d := by
  rcases spellsWithEntry_cases h with ⟨-, key, a, value, hkey, -, hvalue⟩ | ⟨name, value, rfl⟩
  · exact hkey.reaches.trans hvalue.spans.reaches
  · obtain ⟨a, b, e, hopen, hname, -, hclose, hvalue⟩ := h
    exact (hopen.trans hname.spans).reaches.trans (hclose.trans hvalue.spans).reaches

theorem entry_le_lineEnd_iff {w : WithEntry} {c d : Cursor} (h : spellsWithEntry w c d) :
    d.offset ≤ c.lineEnd.offset ↔ (w.attribute?.isSome → ']' ∈ c.line.toList) := by
  rcases spellsWithEntry_cases h with
    ⟨hnone, key, a, value, hkey, hall, hvalue⟩ | ⟨name, value, rfl⟩
  · refine iff_of_true (le_lineEnd_of_run hkey hall hvalue) fun hsome => ?_
    simp [hnone] at hsome
  · rw [← oneLine_name_iff_le h, oneLine_name_iff_mem h]
    exact ⟨fun hmem _ => hmem, fun himp => himp rfl⟩

/-- An entry of a `with` block stays on its line, unless it is an attribute and the line has
    no closing bracket. The value of an attribute is always on one line, and its name is on
    one line exactly if the entry is. -/
theorem entry_in_line_iff {text : List Char} {es : List Element} (h : parse text = .ok es)
    {w : WithEntry} (hw : w ∈ entriesOf es) :
    ∃ start stop, let c := Cursor.ofOffset text start
      spellsWithEntry w c (.ofOffset text stop) ∧
      (stop ≤ c.lineEnd.offset ↔ (w.attribute?.isSome → ']' ∈ c.line.toList)) ∧
      ∀ name value, w = .attribute name value →
        OneLine value ∧ (OneLine name ↔ stop ≤ c.lineEnd.offset) := by
  obtain ⟨c, d, hc, hspells⟩ := exists_entry_place h hw
  have hd := hc.of_reaches (spellsWithEntry_reaches hspells)
  refine ⟨c.offset, d.offset, ?_⟩
  rw [← hc.eq_ofOffset, ← hd.eq_ofOffset]
  refine ⟨hspells, entry_le_lineEnd_iff hspells, ?_⟩
  rintro name value rfl
  exact ⟨oneLine_value hspells, oneLine_name_iff_le hspells⟩

/-- A file with an attribute that nothing closes on its line, and another endpoint after it. -/
def unclosedText : List Char :=
  ("endpoint void A:Impl\x7bwith\x7b[Obsolete\n\x7d\x7d\n" ++
    "endpoint void B:Impl\x7bwith\x7b[X]=1\n\x7d\x7d").toList

def swallowingEntry : WithEntry :=
  .attribute "Obsolete\n\x7d\x7d\nendpoint void B:Impl\x7bwith\x7b[X" "1"

def unclosedElements : List Element :=
  [⟨0, .endpoint ⟨⟨"void", "A", .impl⟩, [⟨21, .withEntries [swallowingEntry]⟩]⟩⟩]

theorem parse_unclosedText : parse unclosedText = .ok unclosedElements :=
  eq_ok_of_toOption (by decide +kernel)

theorem entry_in_line_iff_unclosed :
    parse unclosedText = .ok unclosedElements ∧ swallowingEntry ∈ entriesOf unclosedElements ∧
      ∃ start stop, let c := Cursor.ofOffset unclosedText start
        spellsWithEntry swallowingEntry c (.ofOffset unclosedText stop) ∧
        (stop ≤ c.lineEnd.offset ↔ (swallowingEntry.attribute?.isSome → ']' ∈ c.line.toList)) ∧
        ∀ name value, swallowingEntry = .attribute name value →
          OneLine value ∧ (OneLine name ↔ stop ≤ c.lineEnd.offset) := by
  have hmem : swallowingEntry ∈ entriesOf unclosedElements := List.mem_cons_self
  exact ⟨parse_unclosedText, hmem, entry_in_line_iff parse_unclosedText hmem⟩

/-- An attribute name can swallow the endpoint that follows. -/
theorem not_forall_attribute_oneLine :
    ¬ ∀ text es, parse text = .ok es → ∀ name value, .attribute name value ∈ entriesOf es →
      OneLine name ∧ OneLine value := by
  intro hall
  have hline := (hall _ _ parse_unclosedText _ "1" List.mem_cons_self).1
  exact absurd hline (by decide)

end ApiStubs.Source
