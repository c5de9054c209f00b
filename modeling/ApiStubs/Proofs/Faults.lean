-- SUMMARY: Where a text that cannot be read goes wrong, and that every rule moves on.
import ApiStubs.Proofs.Spelling
import Mathlib.Data.List.Chain

/-!
# Faults of a text

A fault has a cause and a place. `Cause.Fits` says of each cause what the text has at
that place. A block that is not closed is reported at its own keyword, and everything
else at the place where something is missing.

`Rule.Blames` says that a rule fails only with a fault that fits, at a place that it has
reached. It is proved of each rule in the order of the grammar, beside `Rule.Obeys` for
what a rule reads.
-/

namespace ApiStubs.Source

open Text

-- ---------------------------------------------------------------------------
-- Blocks that are not closed
-- ---------------------------------------------------------------------------

/-- A keyword, noise and an opening brace. The brace ends at the second place. -/
def Opens (keyword : String) (c d : Cursor) : Prop :=
  ∃ a, c.Spans keyword.toList a ∧ a.skipNoise.Spans "\x7b".toList d

/-- Some entries of a list block, with noise between them. -/
def HoldsEntries : ListBlock → Cursor → Cursor → Prop
  | .withEntries, c, d => ∃ list, Tiles spellsWithEntry list c d
  | .params, c, d => ∃ lines, Tiles spellsParam lines c d

/-- A declaration of the endpoint `name` up to some of its blocks. -/
def OpensEndpoint (name : String) (c d : Cursor) : Prop :=
  ∃ (h : Header) (blocks : List (Located Block)) (a b e f : Cursor),
    c.Spans "endpoint".toList a ∧ a.noise? = some b ∧ spellsHeader h b e ∧ h.name = name ∧
    e.skipNoise.Spans "\x7b".toList f ∧ Tiles (Located.Spells spellsBlock) blocks f.skipNoise d

theorem openBlock?_opens {keyword : String} {c d : Cursor} (h : openBlock? keyword c = some d) :
    ∃ a, Opens keyword c a ∧ d = a.skipNoise := by
  simp only [openBlock?, Option.bind_eq_bind, Option.bind_eq_some_iff, Option.pure_def] at h
  obtain ⟨a, ha, b, hb, heq⟩ := h
  cases heq
  exact ⟨b, ⟨a, Cursor.eat?_eq_some_iff.1 ha, Cursor.eat?_eq_some_iff.1 hb⟩, rfl⟩

theorem Opens.reaches {keyword : String} {c d : Cursor} (h : Opens keyword c d) : c.Reaches d := by
  obtain ⟨a, ha, hd⟩ := h
  exact ha.reaches.trans (a.skipNoise_reaches.trans hd.reaches)

-- ---------------------------------------------------------------------------
-- Causes and their places
-- ---------------------------------------------------------------------------

/-- What the text has at the place where the cause is reported. A namespace that is
    missing or declared twice is no fault of reading. -/
def Cause.Fits : Cause → Cursor → Prop
  | .strayText found, c => element c = .ok none ∧ found = snippet c
  | .spaceExpected _, c => c.Stops isInlineSpace
  | .rawUnterminated, c => ∃ a, c.Spans "#raw".toList a ∧ ¬ "#endraw".toList <:+: a.rest
  | .returnTypeExpected, c => c.word? = none
  | .nameExpected _, c => endpointName? c = none
  | .colonExpected _, c => c.eat? ":" = none
  | .urlExpected _, c => c.noise?.bind url? = none
  | .targetExpected _, c => keyword? "Impl" c = none ∧ c.eat? "Get" = none ∧ c.eat? "Post" = none
  | .braceExpected _, c => c.eat? "\x7b" = none
  | .endpointUnterminated name, c => ∃ d, OpensEndpoint name c d ∧ d.rest = []
  | .strayInEndpoint found _, c => block c = .ok none ∧ found = snippet c
  | .blockUnterminated name, c => AllChars Char.isAlphanum name ∧ ∃ d, Opens name c d ∧
      ('}' ∉ d.rest ∨
        ∃ list e, ListBlock.keyword list = name ∧ HoldsEntries list d.skipNoise e ∧ e.rest = [])
  | .strayInBlock list found, c => ∃ d e, Opens list.keyword c d ∧
      HoldsEntries list d.skipNoise e ∧ e.rest ≠ [] ∧ e.eat? "\x7d" = none ∧ found = snippet e
  | .namespaceDuplicate, _ => False
  | .namespaceMissing, _ => False

/-- An index in brackets with the word before it, too long for a number. -/
def LongIndex (digits : String) (c d : Cursor) : Prop :=
  c.Spans ("either[" ++ digits ++ "]").toList d ∧ AllChars Char.isDigit digits ∧
    maxIndexDigits < digits.length

/-- The fault is found at the place or after it. -/
def Fault.FoundFrom (c : Cursor) : Fault → Prop
  | .malformed cause offset => ∃ d, c.Reaches d ∧ d.offset = offset ∧ cause.Fits d
  | .indexTooLong n => ∃ d e digits, c.Reaches d ∧ LongIndex digits d e ∧ digits.length = n

theorem Fault.FoundFrom.of_reaches {fault : Fault} {c d : Cursor} (hcd : c.Reaches d)
    (h : fault.FoundFrom d) : fault.FoundFrom c := by
  cases fault with
  | malformed cause offset =>
    obtain ⟨e, hde, hoffset, hfits⟩ := h
    exact ⟨e, hcd.trans hde, hoffset, hfits⟩
  | indexTooLong n =>
    obtain ⟨e, f, digits, hde, hindex, hlength⟩ := h
    exact ⟨e, f, digits, hcd.trans hde, hindex, hlength⟩

/-- The rule fails only with a fault that is found where the rule reads. -/
def Rule.Blames {α : Type} (r : Rule α) : Prop :=
  ∀ ⦃c fault⦄, r c = .error fault → fault.FoundFrom c

namespace Rule.Blames

variable {α β : Type} {r s : Rule α}

theorem orElse (hr : r.Blames) (hs : s.Blames) : (r.orElse s).Blames := by
  intro c fault h
  unfold Rule.orElse at h
  split at h
  · exact hs h
  · exact hr h

theorem map (hr : r.Blames) (f : α → β) : (r.map f).Blames := by
  intro c fault h
  unfold Rule.map at h
  split at h <;> cases h
  next h => exact hr h

theorem located (hr : r.Blames) : r.located.Blames := by
  intro c fault h
  unfold Rule.located at h
  split at h <;> cases h
  next h => exact hr h

end Rule.Blames

/-- A block that cannot be collected has some entries, and then one that fails, the end of
    the text, or something that is no entry. -/
theorem collect_eq_error {α : Type} {rule : Rule α} {advances : rule.Advances} {unclosed : Fault}
    {stray : Cursor → Fault} {Spells : Spelling α} (hrule : rule.Obeys Spells) {c : Cursor}
    {fault : Fault} (h : collect rule advances unclosed stray c = .error fault) :
    ∃ vs d, Tiles Spells vs c d ∧
      (rule d = .error fault ∨ d.rest = [] ∧ fault = unclosed ∨
        d.rest ≠ [] ∧ d.eat? "\x7d" = none ∧ rule d = .ok none ∧ fault = stray d) := by
  fun_induction collect rule advances unclosed stray c with
  | case1 c hend =>
    cases h
    exact ⟨[], c, .nil, .inr (.inl ⟨by simpa [Cursor.atEnd] using hend, rfl⟩)⟩
  | case2 => cases h
  | case3 c hend hbrace fault' hr =>
    cases h
    exact ⟨[], c, .nil, .inl hr⟩
  | case4 c hend hbrace hr =>
    cases h
    exact ⟨[], c, .nil, .inr (.inr ⟨by simpa [Cursor.atEnd] using hend, hbrace, hr, rfl⟩)⟩
  | case5 => cases h
  | case6 c hend hbrace v d hr fault' hcollect ih =>
    cases h
    obtain ⟨vs, e, htiles, hcases⟩ := ih hcollect
    exact ⟨v :: vs, e, .cons (hrule hr) (advances hr) htiles, hcases⟩

-- ---------------------------------------------------------------------------
-- Parameter lines and blocks
-- ---------------------------------------------------------------------------

theorem paramKind_blames : paramKind.Blames := by
  intro c fault h
  unfold paramKind at h
  split at h
  · cases h
  · next kind a ha =>
    split at h
    · next heither =>
      split at h
      · cases h
      · next digits b hi =>
        split at h <;> cases h
        next hlong =>
        obtain ⟨⟨word, kind'⟩, hmem, hword⟩ := List.exists_of_findSome?_eq_some ha
        obtain ⟨a', ha', heq⟩ := Option.map_eq_some_iff.1 hword
        cases heq
        subst heither
        -- Of the words for kinds only one is for `either` lines.
        have hword : word = "either" := by
          simpa [kindWords] using hmem
        subst hword
        obtain ⟨d, e, hopen, hrun, -, hclose⟩ := index?_spells hi
        have hspans := ((keyword?_eq_some_iff.1 ha').1.trans hopen).trans (hrun.spans.trans hclose)
        refine ⟨c, b, .ofList digits, .refl c, ⟨?_, hrun.all, by simpa using hlong⟩, by simp⟩
        simpa using hspans
    · cases h

theorem param_blames : param.Blames := by
  intro c fault h
  unfold param at h
  split at h
  · next hkind =>
    cases h
    exact paramKind_blames hkind
  · cases h
  · dsimp only at h
    split at h <;> cases h

theorem withEntry_blames : withEntry.Blames := by
  intro c fault h
  cases h

theorem allChars_keyword (list : ListBlock) : AllChars Char.isAlphanum list.keyword := by
  cases list <;> decide

theorem listBlock_blames {α : Type} {list : ListBlock} {entry : Rule α}
    {advances : entry.Advances} {Spells : Spelling α} (hobeys : entry.Obeys Spells)
    (hblames : entry.Blames)
    (hentries : ∀ {vs c d}, Tiles Spells vs c d → HoldsEntries list c d) :
    (listBlock list entry advances).Blames := by
  intro c fault h
  unfold listBlock at h
  split at h
  · cases h
  · next hopen =>
    obtain ⟨d, hopens, rfl⟩ := openBlock?_opens hopen
    split at h <;> cases h
    next hcollect =>
    obtain ⟨vs, e, htiles, hfault | ⟨hend, rfl⟩ | ⟨hne, hbrace, -, rfl⟩⟩ :=
      collect_eq_error hobeys hcollect
    · have hreaches := hopens.reaches.trans (d.skipNoise_reaches.trans htiles.reaches)
      exact (hblames hfault).of_reaches hreaches
    · exact ⟨c, .refl c, rfl, allChars_keyword list, d, hopens,
        .inr ⟨list, e, rfl, hentries htiles, hend⟩⟩
    · exact ⟨c, .refl c, rfl, d, e, hopens, hentries htiles, hne, hbrace, rfl⟩

theorem withBlock_blames : withBlock.Blames := by
  have hentries {list c d} (h : Tiles spellsWithEntry list c d) : HoldsEntries .withEntries c d :=
    ⟨list, h⟩
  exact (listBlock_blames withEntry_obeys withEntry_blames hentries).map _

theorem paramsBlock_blames : paramsBlock.Blames := by
  have hentries {lines c d} (h : Tiles spellsParam lines c d) : HoldsEntries .params c d :=
    ⟨lines, h⟩
  exact (listBlock_blames param_obeys param_blames hentries).map _

theorem textBlock_blames : textBlock.Blames := by
  intro c fault h
  simp only [textBlock] at h
  split at h
  · cases h
  · split at h
    · cases h
    · next d hd =>
      split at h <;> cases h
      next hclose =>
      have hrun := c.run_count Char.isAlphanum
      have hbrace : '}' ∉ d.rest := by
        rw [find?_singleton] at hclose
        split at hclose
        · cases hclose
        · assumption
      exact ⟨c, .refl c, rfl, hrun.all, d, ⟨_, hrun.spans, Cursor.eat?_eq_some_iff.1 hd⟩,
        .inl hbrace⟩

theorem block_blames : block.Blames :=
  ((withBlock_blames.orElse paramsBlock_blames).orElse textBlock_blames).located

-- ---------------------------------------------------------------------------
-- Endpoint declarations
-- ---------------------------------------------------------------------------

theorem requestUrl_blames {method : Method} {c : Cursor} {fault : Fault}
    (h : requestUrl method c = .error fault) : fault.FoundFrom c := by
  unfold requestUrl at h
  split at h <;> cases h
  next hurl => exact ⟨c, .refl c, rfl, hurl⟩

theorem map_eq_error_iff {ε α β : Type} {x : Except ε α} {f : α → β} {e : ε} :
    x.map f = .error e ↔ x = .error e := by
  cases x <;> simp [Except.map]

theorem target_blames {name : String} {c : Cursor} {fault : Fault}
    (h : target name c = .error fault) : fault.FoundFrom c := by
  unfold target at h
  split at h
  · cases h
  · next himpl =>
    split at h
    · next d hd =>
      exact (requestUrl_blames (map_eq_error_iff.1 h)).of_reaches (Cursor.eat?_reaches hd)
    · next hget =>
      split at h
      · next d hd =>
        exact (requestUrl_blames (map_eq_error_iff.1 h)).of_reaches (Cursor.eat?_reaches hd)
      · next hpost =>
        cases h
        exact ⟨c, .refl c, rfl, himpl, hget, hpost⟩

theorem header_blames {c : Cursor} {fault : Fault} (h : header c = .error fault) :
    fault.FoundFrom c := by
  unfold header at h
  split at h
  · next hword =>
    cases h
    exact ⟨c, .refl c, rfl, hword⟩
  · next d hd =>
    have hcd := (Cursor.word?_precedes hd).reaches
    dsimp only at h
    split at h
    · next hname =>
      cases h
      exact ⟨d, hcd, rfl, hname⟩
    · next name e he =>
      have hce := hcd.trans ((endpointName?_precedes he).reaches.trans e.skipNoise_reaches)
      split at h
      · next hcolon =>
        cases h
        exact ⟨_, hce, rfl, hcolon⟩
      · next f hf =>
        have hcf := hce.trans ((Cursor.eat?_reaches hf).trans f.skipNoise_reaches)
        exact (target_blames (map_eq_error_iff.1 h)).of_reaches hcf

theorem endpoint_blames : endpoint.Blames := by
  intro c fault h
  unfold endpoint at h
  split at h
  · cases h
  · next b hb =>
    obtain ⟨a, ha, hb⟩ := Option.bind_eq_some_iff.1 hb
    have hcb := (Cursor.eat?_reaches ha).trans (Cursor.noise?_precedes hb).reaches
    split at h
    · next hheader =>
      cases h
      exact (header_blames hheader).of_reaches hcb
    · next hd e he =>
      have hce := hcb.trans ((header_precedes he).reaches.trans e.skipNoise_reaches)
      split at h
      · next hbrace =>
        cases h
        exact ⟨_, hce, rfl, hbrace⟩
      · next f hf =>
        split at h <;> cases h
        next hbody =>
        obtain ⟨blocks, g, htiles, hcases⟩ := collect_eq_error block_obeys hbody
        have hcg := hce.trans ((Cursor.eat?_reaches hf).trans
          (f.skipNoise_reaches.trans htiles.reaches))
        obtain hfault | ⟨hend, rfl⟩ | ⟨-, -, hnone, rfl⟩ := hcases
        · exact (block_blames hfault).of_reaches hcg
        · exact ⟨c, .refl c, rfl, g, ⟨hd, blocks, a, b, e, f, Cursor.eat?_eq_some_iff.1 ha, hb,
            header_obeys he, rfl, Cursor.eat?_eq_some_iff.1 hf, htiles⟩, hend⟩
        · exact ⟨g, hcg, rfl, hnone, rfl⟩

-- ---------------------------------------------------------------------------
-- Elements
-- ---------------------------------------------------------------------------

theorem stops_of_skipInlineSpace {c : Cursor} (h : c.skipInlineSpace.offset = c.offset) :
    c.Stops isInlineSpace := by
  have hzero : c.count isInlineSpace = 0 := Nat.add_left_cancel h
  have hstops := (c.run_count isInlineSpace).stops
  rwa [hzero, Cursor.drop_zero] at hstops

theorem directive_blames {tag : String} : (directive tag).Blames := by
  intro c fault h
  unfold directive at h
  split at h
  · cases h
  · next a ha =>
    dsimp only at h
    split at h <;> cases h
    next hspace =>
    exact ⟨a, Cursor.eat?_reaches ha, rfl, stops_of_skipInlineSpace hspace⟩

theorem rawBlock_blames : rawBlock.Blames := by
  intro c fault h
  unfold rawBlock at h
  split at h
  · cases h
  · next a ha =>
    split at h <;> cases h
    next hclose =>
    exact ⟨c, .refl c, rfl, a, Cursor.eat?_eq_some_iff.1 ha,
      (find?_eq_none_iff (by decide)).1 hclose⟩

theorem element_blames : element.Blames :=
  ((((directive_blames.map _).orElse (directive_blames.map _)).orElse rawBlock_blames).orElse
    (endpoint_blames.map _)).located

theorem elements_blames {c : Cursor} {fault : Fault} (h : elements c = .error fault) :
    fault.FoundFrom c := by
  fun_induction elements c with
  | case1 => cases h
  | case2 c _ fault' hr =>
    cases h
    exact element_blames hr
  | case3 c _ hr =>
    cases h
    exact ⟨c, .refl c, rfl, hr, rfl⟩
  | case4 => cases h
  | case5 c _ e d hr fault' hes ih =>
    cases h
    exact (ih hes).of_reaches ((element_advances hr).reaches.trans d.skipNoise_reaches)

-- ---------------------------------------------------------------------------
-- Messages
-- ---------------------------------------------------------------------------

/-- The kind or the name of the block that the cause is about, if it is about one. -/
def Cause.block? : Cause → Option String
  | .rawUnterminated => some "#raw"
  | .endpointUnterminated _ => some "endpoint"
  | .blockUnterminated name => some name
  | .strayInBlock list _ => some list.keyword
  | _ => none

theorem Cause.message_of_block? {cause : Cause} {word : String} (h : cause.block? = some word) :
    ∃ rest, cause.message.toList = "unterminated ".toList ++ (word.toList ++ ' ' :: rest) := by
  cases cause with
  | rawUnterminated =>
    cases h
    exact ⟨"block".toList, by decide +kernel⟩
  | endpointUnterminated name =>
    cases h
    refine ⟨"block ".toList ++ (quoted name).toList, ?_⟩
    have hwords : "unterminated endpoint block ".toList =
        "unterminated ".toList ++ ("endpoint".toList ++ ' ' :: "block ".toList) := by
      decide +kernel
    change ("unterminated endpoint block " ++ quoted name).toList = _
    rw [String.toList_append, hwords, List.append_assoc, List.append_assoc, List.cons_append]
  | blockUnterminated name =>
    cases h
    refine ⟨"block".toList, ?_⟩
    change ("unterminated " ++ word ++ " block").toList = _
    simp only [String.toList_append, List.append_assoc]
    rfl
  | strayInBlock list found =>
    cases h
    refine ⟨("block: expected " ++ list.expected ++ " or '\x7d', found " ++
      quoted found).toList, ?_⟩
    change ("unterminated " ++ list.keyword ++ " block: expected " ++ list.expected ++
      " or '\x7d', found " ++ quoted found).toList = _
    simp only [String.toList_append, List.append_assoc]
    rfl
  | _ => cases h

theorem getElem?_append_of_left {s t : String} {i : Nat} {x : Char}
    (h : s.toList[i]? = some x) : (s ++ t).toList[i]? = some x := by
  obtain ⟨hi, -⟩ := List.getElem?_eq_some_iff.1 h
  rw [String.toList_append, List.getElem?_append_left hi, h]

/-- A message about no block begins with another word. -/
theorem Cause.not_prefix_message {cause : Cause} (h : cause.block? = none) :
    ¬ "unterminated ".toList <+: cause.message.toList := by
  -- The third character tells the words apart.
  have hother : ∃ x, x ≠ 't' ∧ cause.message.toList[2]? = some x := by
    cases cause with
    | returnTypeExpected => exact ⟨'p', by decide, by decide +kernel⟩
    | strayInEndpoint found name =>
      have hword : ("unexpected " ++ quoted found).toList[2]? = some 'e' :=
        getElem?_append_of_left (by decide +kernel)
      exact ⟨'e', by decide, getElem?_append_of_left (getElem?_append_of_left hword)⟩
    | namespaceDuplicate => exact ⟨'p', by decide, by decide +kernel⟩
    | namespaceMissing => exact ⟨'s', by decide, by decide +kernel⟩
    | rawUnterminated => cases h
    | endpointUnterminated name => cases h
    | blockUnterminated name => cases h
    | strayInBlock list found => cases h
    | _ => exact ⟨'p', by decide, getElem?_append_of_left (by decide +kernel)⟩
  intro hprefix
  have hthird : cause.message.toList[2]? = some 't' :=
    List.prefix_iff_getElem?.1 hprefix 2 (by decide)
  obtain ⟨x, hx, hmessage⟩ := hother
  exact hx (Option.some.inj (hmessage.symm.trans hthird))

/-- Where a block of this kind or name begins: at its keyword, which noise and an opening
    brace follow, unless the block is a raw block or an endpoint. -/
def BeginsBlock (word : String) (c : Cursor) : Prop :=
  ∃ d, c.Spans word.toList d ∧
    (word = "#raw" ∨ word = "endpoint" ∨ ∃ e, d.skipNoise.Spans "\x7b".toList e)

theorem Opens.beginsBlock {word : String} {c d : Cursor} (h : Opens word c d) :
    BeginsBlock word c := by
  obtain ⟨a, ha, hd⟩ := h
  exact ⟨a, ha, .inr (.inr ⟨d, hd⟩)⟩

theorem space_not_mem_of_alphanum {s : String} (h : AllChars Char.isAlphanum s) :
    ' ' ∉ s.toList :=
  fun hmem => absurd (h ' ' hmem) (by decide)

/-- A cause about a block is reported where that block begins. -/
theorem Cause.Fits.beginsBlock {cause : Cause} {c : Cursor} {word : String} (hfits : cause.Fits c)
    (h : cause.block? = some word) : ' ' ∉ word.toList ∧ BeginsBlock word c := by
  cases cause with
  | rawUnterminated =>
    cases h
    obtain ⟨a, ha, -⟩ := hfits
    exact ⟨by decide, a, ha, .inl rfl⟩
  | endpointUnterminated name =>
    cases h
    obtain ⟨_, ⟨_, _, a, _, _, _, ha, -⟩, -⟩ := hfits
    exact ⟨by decide, a, ha, .inr (.inl rfl)⟩
  | blockUnterminated name =>
    cases h
    obtain ⟨hname, d, hopens, -⟩ := hfits
    exact ⟨space_not_mem_of_alphanum hname, hopens.beginsBlock⟩
  | strayInBlock list found =>
    cases h
    obtain ⟨d, e, hopens, -⟩ := hfits
    exact ⟨space_not_mem_of_alphanum (allChars_keyword list), hopens.beginsBlock⟩
  | _ => cases h

theorem eq_of_prefix_space {xs ys s t : List Char} (hxs : ' ' ∉ xs) (hys : ' ' ∉ ys)
    (h : xs ++ ' ' :: s <+: ys ++ ' ' :: t) : xs = ys := by
  have htake {zs : List Char} (hzs : ' ' ∉ zs) (u : List Char) :
      (zs ++ ' ' :: u).takeWhile (· != ' ') = zs := by
    have hall : ∀ x ∈ zs, (x != ' ') = true :=
      fun x hx => bne_iff_ne.2 fun heq => hzs (heq ▸ hx)
    rw [List.takeWhile_append_of_pos hall, List.takeWhile_cons_of_neg (by decide), List.append_nil]
  obtain ⟨u, hu⟩ := h
  rw [List.append_assoc, List.cons_append] at hu
  rw [← htake hxs (s ++ u), hu, htake hys]

/-- A message that a block is unterminated is reported where a block of that kind or name
    begins. -/
theorem Cause.Fits.beginsBlock_of_message {cause : Cause} {c : Cursor} {word : String}
    (hfits : cause.Fits c) (hword : ' ' ∉ word.toList)
    (h : ("unterminated " ++ word ++ " block").toList <+: cause.message.toList) :
    BeginsBlock word c := by
  rw [String.toList_append, String.toList_append, List.append_assoc] at h
  cases hblock : cause.block? with
  | none => exact absurd ((List.prefix_append _ _).trans h) (Cause.not_prefix_message hblock)
  | some other =>
    obtain ⟨rest, hmessage⟩ := Cause.message_of_block? hblock
    obtain ⟨hother, hbegins⟩ := hfits.beginsBlock hblock
    rw [hmessage, List.prefix_append_right_inj] at h
    have heq : word = other := String.toList_inj.1 (eq_of_prefix_space hword hother h)
    exact heq ▸ hbegins

-- ---------------------------------------------------------------------------
-- Progress
-- ---------------------------------------------------------------------------

section Progress

variable {α : Type}

/-- The rule of a reading that gives a value or fails. -/
def Rule.ofExcept (read : Cursor → Except Fault (α × Cursor)) : Rule α := fun c =>
  (read c).map some

/-- The place after the value that a rule reads, if it reads one. -/
def Rule.after? (r : Rule α) (c : Cursor) : Option Cursor :=
  match r c with
  | .ok (some (_, d)) => some d
  | _ => none

/-- One round of a loop over a rule: a value and the noise after it. -/
def Rule.Round (r : Rule α) (c d : Cursor) : Prop :=
  ∃ v e, r c = .ok (some (v, e)) ∧ d = e.skipNoise

theorem Rule.Advances.precedes_after? {r : Rule α} (hr : r.Advances) {c d : Cursor}
    (h : r.after? c = some d) : c.Precedes d := by
  unfold Rule.after? at h
  split at h <;> cases h
  next h => exact hr h

theorem Rule.Advances.precedes_round {r : Rule α} (hr : r.Advances) {c d : Cursor}
    (h : r.Round c d) : c.Precedes d := by
  obtain ⟨v, e, hread, rfl⟩ := h
  exact (hr hread).trans_reaches e.skipNoise_reaches

theorem header_advances : (Rule.ofExcept header).Advances := by
  intro c v d h
  obtain ⟨result, hresult, heq⟩ := map_eq_ok_iff.1 h
  cases heq
  exact header_precedes hresult

theorem ofOption_advances {read : Cursor → Option (α × Cursor)}
    (h : ∀ {c v d}, read c = some (v, d) → c.Precedes d) : (Rule.ofOption read).Advances := by
  intro c v d hread
  exact h (Except.ok.inj hread)

end Progress

/-- The rules of the grammar, by the place after what they read. -/
def ruleEnds : List (Cursor → Option Cursor) :=
  [namespaceLine.after?, descriptionLine.after?, rawBlock.after?, endpoint.after?,
   (Rule.ofExcept header).after?, (Rule.ofOption url?).after?, withBlock.after?, withEntry.after?,
   paramsBlock.after?, paramKind.after?, param.after?, (Rule.ofOption pair?).after?,
   (Rule.ofOption token?).after?, textBlock.after?]

/-- The loops over the elements of a text, the blocks of an endpoint and the entries of
    each list block, by their rounds. -/
def loopRounds : List (Cursor → Cursor → Prop) :=
  [element.Round, block.Round, withEntry.Round, param.Round]

theorem precedes_of_mem_ruleEnds {after? : Cursor → Option Cursor} (hmem : after? ∈ ruleEnds)
    {c d : Cursor} (h : after? c = some d) : c.Precedes d := by
  simp only [ruleEnds, List.mem_cons, List.not_mem_nil, or_false] at hmem
  rcases hmem with rfl | rfl | rfl | rfl | rfl | rfl | rfl | rfl | rfl | rfl | rfl | rfl | rfl | rfl
  · exact ((directive_advances (by decide)).map _).precedes_after? h
  · exact ((directive_advances (by decide)).map _).precedes_after? h
  · exact rawBlock_advances.precedes_after? h
  · exact endpoint_advances.precedes_after? h
  · exact header_advances.precedes_after? h
  · exact (ofOption_advances url?_precedes).precedes_after? h
  · exact withBlock_advances.precedes_after? h
  · exact withEntry_advances.precedes_after? h
  · exact paramsBlock_advances.precedes_after? h
  · exact paramKind_advances.precedes_after? h
  · exact param_advances.precedes_after? h
  · exact (ofOption_advances pair?_precedes).precedes_after? h
  · exact (ofOption_advances token?_precedes).precedes_after? h
  · exact textBlock_advances.precedes_after? h

theorem precedes_of_mem_loopRounds {Round : Cursor → Cursor → Prop} (hmem : Round ∈ loopRounds)
    {c d : Cursor} (h : Round c d) : c.Precedes d := by
  simp only [loopRounds, List.mem_cons, List.not_mem_nil, or_false] at hmem
  rcases hmem with rfl | rfl | rfl | rfl
  · exact element_advances.precedes_round h
  · exact block_advances.precedes_round h
  · exact withEntry_advances.precedes_round h
  · exact param_advances.precedes_round h

/-- Rounds that each move on are no more than the characters that follow. -/
theorem rounds_le_length {Round : Cursor → Cursor → Prop}
    (hround : ∀ {c d}, Round c d → c.Precedes d) {c : Cursor} {places : List Cursor}
    (h : List.IsChain Round (c :: places)) :
    places.length ≤ c.rest.length ∧
      List.IsChain (fun a b => a.offset < b.offset) (c :: places) := by
  induction places generalizing c with
  | nil => exact ⟨Nat.zero_le _, .singleton c⟩
  | cons d places ih =>
    obtain ⟨hcd, hrest⟩ := List.isChain_cons_cons.1 h
    obtain ⟨hlength, hchain⟩ := ih hrest
    have hlt := (hround hcd).length_lt
    refine ⟨?_, List.isChain_cons_cons.2 ⟨(hround hcd).offset_lt, hchain⟩⟩
    rw [List.length_cons]
    omega

theorem Tiles.length_le {α : Type} {Spells : Spelling α} {vs : List α} {c d : Cursor}
    (h : Tiles Spells vs c d) : vs.length ≤ c.rest.length := by
  induction h with
  | nil => exact Nat.zero_le _
  | @cons v vs c d e _ hcd _ ih =>
    have hlt := (hcd.trans_reaches d.skipNoise_reaches).length_lt
    rw [List.length_cons]
    omega

-- ---------------------------------------------------------------------------
-- Whole texts
-- ---------------------------------------------------------------------------

/-- What reading a text may come to. -/
inductive Reads (text : List Char) : Except LocatedFault (List Element) → Prop where
  | elements {es : List Element} : es.length ≤ text.length → Reads text (.ok es)
  /-- An index is longer than a number may be. -/
  | longIndex {digits : String} : AllChars Char.isDigit digits → maxIndexDigits < digits.length →
      ("either[" ++ digits ++ "]").toList <:+: text →
      Reads text (.error (.indexTooLong digits.length))
  /-- The fault has a position in the text, and what it says holds there. -/
  | malformed {cause : Cause} {offset : Nat} : offset ≤ text.length →
      cause.Fits (.ofOffset text offset) →
      (∀ word, ' ' ∉ word.toList →
        ("unterminated " ++ word ++ " block").toList <+: cause.message.toList →
        BeginsBlock word (.ofOffset text offset)) →
      Reads text (.error (.malformed cause (some (.ofOffset text offset))))

theorem Fault.FoundFrom.reads {text : List Char} {fault : Fault} {c : Cursor} (hc : c.In text)
    (h : fault.FoundFrom c) : Reads text (.error (fault.locate text)) := by
  cases fault with
  | malformed cause offset =>
    obtain ⟨d, hcd, rfl, hfits⟩ := h
    have hd := hc.of_reaches hcd
    rw [hd.eq_ofOffset] at hfits
    exact .malformed hd.offset_le hfits fun word hword => hfits.beginsBlock_of_message hword
  | indexTooLong n =>
    obtain ⟨d, e, digits, hcd, ⟨hspans, hdigits, hlong⟩, rfl⟩ := h
    refine .longIndex hdigits hlong ?_
    have hprefix : ("either[" ++ digits ++ "]").toList <+: d.rest := ⟨e.rest, hspans.rest_eq.symm⟩
    exact hprefix.isInfix.trans (hc.of_reaches hcd).suffix.isInfix

/-- Reading a text gives its elements, a fault at a position of the text, or an index that
    is too long. What every rule reads ends after the place where it begins and within the
    text, so that no loop makes more rounds than there are characters. -/
theorem read_located (text : String) :
    Reads text.toList (read text) ∧
      (∀ after? ∈ ruleEnds, ∀ offset d, after? (.ofOffset text.toList offset) = some d →
        offset < d.offset ∧ d.offset ≤ text.length ∧ d = .ofOffset text.toList d.offset) ∧
      ∀ Round ∈ loopRounds, ∀ offset places,
        List.IsChain Round (.ofOffset text.toList offset :: places) →
          places.length ≤ text.length - offset ∧
            List.IsChain (fun a b => a.offset < b.offset)
              (.ofOffset text.toList offset :: places) := by
  have hstart : (Cursor.start text.toList).skipNoise.In text.toList :=
    Cursor.In.of_reaches ⟨by simp [Cursor.start], Nat.zero_le _⟩ (Cursor.skipNoise_reaches _)
  have hrest (offset : Nat) :
      (Cursor.ofOffset text.toList offset).rest.length = text.length - offset := by
    rw [Cursor.ofOffset, List.length_drop, String.length_toList]
  refine ⟨?_, ?_, ?_⟩
  · unfold read
    cases hparse : parse text.toList with
    | ok es =>
      obtain ⟨d, htiles, -⟩ := elements_tiles hparse
      exact .elements (Nat.le_trans htiles.length_le hstart.suffix.length_le)
    | error fault => exact (elements_blames hparse).reads hstart
  · intro after? hmem offset d hd
    obtain ⟨n, hpos, hle, rfl⟩ := precedes_of_mem_ruleEnds hmem hd
    rw [hrest] at hle
    refine ⟨Nat.lt_add_of_pos_right hpos, ?_, ?_⟩
    · rw [Cursor.offset_drop]
      simp only [Cursor.ofOffset]
      omega
    · simp [Cursor.ofOffset, Cursor.drop]
  · intro Round hmem offset places hchain
    rw [← hrest offset]
    exact rounds_le_length (precedes_of_mem_loopRounds hmem) hchain

example : (match read "endpoint void X:Impl\x7b\n with\x7b" with
    | .error fault => fault.message "shop.api"
    | .ok _ => "") = "shop.api 2:2 unterminated with block" := by decide +kernel

end ApiStubs.Source
