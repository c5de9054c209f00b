-- SUMMARY: What a text says does not depend on the text that comes after it.
import ApiStubs.Proofs.Join.Dangling

/-!
# Locality of the grammar

A text that is read alone is read alike with another text after it, and the elements
of the other text follow with their offsets shifted. Every rule that answers at a
place of the first text gives the same answer in the joined text, so nothing that
comes later changes what is already complete.

This needs more than a second text that closes no comment of the first: no token may
dangle behind a parameter line of the first text. A dangling token is read as a line of
its own in the first text, and as the type of a parameter in the joined text.
-/

namespace ApiStubs.Source

open Text

/-- Whether a parameter line can be read at the place and a token dangles behind it. -/
def danglesBehindLine (c : Cursor) : Bool :=
  match param c with
  | .ok (some (_, d)) => dangles d.skipNoise
  | _ => false

/-- Behind no parameter line of the text a token dangles. -/
def NoneDangle (text : List Char) : Prop :=
  ∀ n < text.length, danglesBehindLine (.ofOffset text n) = false

instance (text : List Char) : Decidable (NoneDangle text) := Nat.decidableBallLT _ _

theorem NoneDangle.dangles_eq_false {text : List Char} (h : NoneDangle text) {c d : Cursor}
    {p : Param} (hc : c.In text) (hparam : param c = .ok (some (p, d))) :
    dangles d.skipNoise = false := by
  have hlt : c.offset < text.length :=
    Nat.lt_of_lt_of_le (param_advances hparam).offset_lt
      (hc.of_reaches (param_advances hparam).reaches).offset_le
  have hline := h _ hlt
  rwa [← hc.eq_ofOffset, danglesBehindLine, hparam] at hline

/-- In a text without `/*` no token dangles. -/
theorem noneDangle_of_not_infix {text : List Char} (h : ¬ "/*".toList <:+: text) :
    NoneDangle text := by
  intro n _
  unfold danglesBehindLine
  split
  · next p d hparam =>
    have hreaches := (param_advances hparam).reaches.trans d.skipNoise_reaches
    have hsuffix := hreaches.suffix.trans (List.drop_suffix n text)
    have hnone : find? "/*".toList d.skipNoise.rest = none :=
      (find?_eq_none_iff (by decide)).2 fun hsub => h (hsub.trans hsuffix.isInfix)
    rw [dangles, hnone, Option.isSome_none, Bool.and_false]
  · rfl

section Rules

variable {j : Join} {c d : Cursor}

-- ---------------------------------------------------------------------------
-- Blocks
-- ---------------------------------------------------------------------------

theorem find?_extend {w : List Char} (hw : '\n' ∉ w) (hne : w ≠ []) {n : Nat}
    (h : find? w c.rest = some n) : find? w (j.extend c).rest = some n := by
  rw [Join.rest_extend, find?_append_feed hw hne, h, Option.some_or]

theorem attribute?_extend {w : WithEntry} (h : attribute? c = some (w, d)) :
    attribute? (j.extend c) = some (w, j.extend d) := by
  simp only [attribute?, Option.bind_eq_bind, Option.bind_eq_some_iff, Option.pure_def] at h
  obtain ⟨n, hn, a, ha, heq⟩ := h
  cases heq
  have hle := (find?_eq_some_iff.1 hn).2.1
  simp only [attribute?, Option.bind_eq_bind, Option.pure_def,
    find?_extend (j := j) (by decide) (by decide) hn, Option.bind_some, Join.drop_extend hle,
    Join.take_extend hle, Join.eat?_extend (show '\n' ∉ "]=".toList by decide), ha, Option.map_some,
    Join.line_extend, Join.lineEnd_extend]

theorem withEntry_extends : withEntry.Extends j := by
  intro c w d _ h
  simp only [withEntry, Rule.ofOption, Except.ok.injEq] at h ⊢
  unfold withEntry? at h ⊢
  rw [Join.eat?_extend (by decide), Join.eat?_extend (by decide), Join.eat?_extend (by decide)]
  cases hjson : c.eat? "JsonPath=" with
  | some a =>
    rw [hjson] at h
    cases h
    simp only [Option.map_some, Join.line_extend, Join.lineEnd_extend]
  | none =>
    rw [hjson] at h
    cases homit : c.eat? "OmitExcept=" with
    | some a =>
      rw [homit] at h
      cases h
      simp only [Option.map_some, Option.map_none, Join.line_extend, Join.lineEnd_extend]
    | none =>
      rw [homit] at h
      obtain ⟨a, ha, hread⟩ := Option.bind_eq_some_iff.1 h
      simp only [ha, Option.map_some, Option.map_none, Option.bind_some, attribute?_extend hread]

theorem openBlock?_extend {keyword : String} (hw : '\n' ∉ keyword.toList) (hc : c.In j.before)
    (h : openBlock? keyword c = some d) (hd : d.rest ≠ []) :
    openBlock? keyword (j.extend c) = some (j.extend d) := by
  simp only [openBlock?, Option.bind_eq_bind, Option.bind_eq_some_iff, Option.pure_def] at h
  obtain ⟨a, ha, b, hb, heq⟩ := h
  cases heq
  have hain := hc.of_reaches (Cursor.eat?_reaches ha)
  have hbin := hain.of_reaches (a.skipNoise_reaches.trans (Cursor.eat?_reaches hb))
  have hamore := (Cursor.eat?_precedes (by decide) hb).rest_ne_nil
  simp only [openBlock?, Option.bind_eq_bind, Option.pure_def, Join.eat?_extend hw, ha,
    Option.map_some, Option.bind_some, Join.skipNoise_extend hain hamore,
    Join.eat?_extend (show '\n' ∉ "\x7b".toList by decide), hb, Join.skipNoise_extend hbin hd]

/-- A list block is extended if its entries are, as far as the block goes on to be
    read. -/
theorem listBlock_extends {α : Type} {block : ListBlock} {entry : Rule α}
    {advances : entry.Advances}
    (hentry : ∀ ⦃c v d unclosed stray result⦄, c.In j.before → entry c = .ok (some (v, d)) →
      collect entry advances unclosed stray d.skipNoise = .ok result →
      entry (j.extend c) = .ok (some (v, j.extend d))) :
    (listBlock block entry advances).Extends j := by
  intro c vs d hc h
  unfold listBlock at h ⊢
  split at h
  · cases h
  · next a hopen =>
    split at h <;> cases h
    next hcollect =>
    have ha := hc.of_reaches (openBlock?_reaches hopen)
    have hkeyword : '\n' ∉ block.keyword.toList := by cases block <;> decide
    rw [openBlock?_extend hkeyword hc hopen (rest_ne_nil_of_collect hcollect)]
    dsimp only [Join.offset_extend]
    rw [collect_extend (fun c v d result hc hr hrest => hentry hc hr hrest) ha hcollect]

theorem withBlock_extends : withBlock.Extends j :=
  (listBlock_extends fun _ _ _ _ _ _ hc h _ => withEntry_extends hc h).map

theorem paramsBlock_extends (hfree : NoneDangle j.before) : paramsBlock.Extends j := by
  refine (listBlock_extends fun c p d _ _ _ hc hparam hrest => ?_).map
  exact param_extend hc hparam (settled_of_collect (hfree.dangles_eq_false hc hparam) hrest)

/-- A text block has a name, text in braces and nothing in between but noise. -/
theorem textBlock_cases {v : Block} (h : textBlock c = .ok (some (v, d))) :
    ∃ a k, c.count Char.isAlphanum ≠ 0 ∧
      (c.drop (c.count Char.isAlphanum)).skipNoise.eat? "\x7b" = some a ∧
      find? ['}'] a.rest = some k ∧ v = .ofText (c.take (c.count Char.isAlphanum)) (a.take k) ∧
      d = a.drop (k + 1) := by
  simp only [textBlock] at h
  split at h
  · cases h
  · next hne =>
    split at h
    · cases h
    · next a ha =>
      split at h <;> cases h
      next k hk => exact ⟨a, k, hne, ha, hk, rfl, rfl⟩

theorem textBlock_extends : textBlock.Extends j := by
  intro c v d hc h
  obtain ⟨a, k, hne, ha, hk, rfl, rfl⟩ := textBlock_cases h
  have hp : Char.isAlphanum '\n' = false := rfl
  have hname := hc.of_reaches (Cursor.reaches_drop (c.count_le_length Char.isAlphanum))
  have hmore := (Cursor.eat?_precedes (by decide) ha).rest_ne_nil
  have hle := length_le_of_find? hk
  rw [List.length_singleton] at hle
  simp only [textBlock, Join.count_extend hp, if_neg hne, Join.drop_extend (c.count_le_length _),
    Join.skipNoise_extend hname hmore, Join.eat?_extend (show '\n' ∉ "\x7b".toList by decide), ha,
    Option.map_some, find?_extend (j := j) (by decide) (by decide) hk,
    Join.take_extend (c.count_le_length _), Join.take_extend (Nat.le_of_succ_le hle),
    Join.drop_extend hle]

/-- Where a text block begins, a keyword that opens no list block opens none in the joined
    text either: what follows the keyword is no noise, or the brace that it lacks. -/
theorem openBlock?_extend_eq_none {keyword : String} (hw : '\n' ∉ keyword.toList)
    (hall : AllChars Char.isAlphanum keyword) {v : Block} (htext : textBlock c = .ok (some (v, d)))
    (hc : c.In j.before) (h : openBlock? keyword c = none) :
    openBlock? keyword (j.extend c) = none := by
  simp only [openBlock?, Option.bind_eq_bind, Option.pure_def, Join.eat?_extend hw] at h ⊢
  cases ha : c.eat? keyword with
  | none => rfl
  | some a =>
    have hbrace : a.skipNoise.eat? "\x7b" = none := by
      rw [ha, Option.bind_some, Option.bind_eq_none_iff] at h
      exact Option.eq_none_iff_forall_ne_some.2 fun b hb => absurd (h b hb) (Option.some_ne_none _)
    have hmore : a.skipNoise.rest ≠ [] := by
      intro hnil
      -- the keyword would be the name of the text block, with its brace behind the noise
      have hstops : a.Stops Char.isAlphanum := by
        intro x hx
        rw [Bool.eq_false_iff]
        intro hname
        have hplain : isPlain x = true := isPlain_of_isNameChar (by simp [isNameChar, hname])
        rw [Cursor.skipNoise_eq_self (Cursor.startsNoise_of_head hx hplain)] at hnil
        rw [hnil] at hx
        cases hx
      have hrun : c.Run Char.isAlphanum keyword a := ⟨Cursor.eat?_eq_some_iff.1 ha, hall, hstops⟩
      obtain ⟨b, -, -, hopen, -⟩ := textBlock_cases htext
      rw [hrun.drop_eq, hbrace] at hopen
      cases hopen
    have hain := hc.of_reaches (Cursor.eat?_reaches ha)
    rw [Option.map_some, Option.bind_some, Join.skipNoise_extend hain hmore,
      Join.eat?_extend (by decide), hbrace]
    rfl

theorem listBlock_eq_none_iff {α : Type} {block : ListBlock} {entry : Rule α}
    {advances : entry.Advances} :
    listBlock block entry advances c = .ok none ↔ openBlock? block.keyword c = none := by
  unfold listBlock
  split
  · next h => simp [h]
  · next h =>
    split <;> simp [h]

theorem block_extends (hfree : NoneDangle j.before) : block.Extends j := by
  refine ((withBlock_extends.orElse (paramsBlock_extends hfree) ?_).orElse
    textBlock_extends ?_).located
  · intro c v d _ _ hparams
    rw [withBlock, Rule.map_eq_none_iff, listBlock_eq_none_iff]
    cases hopen : openBlock? "params" c with
    | none =>
      have hnone : paramsBlock c = .ok none :=
        Rule.map_eq_none_iff.2 (listBlock_eq_none_iff.2 hopen)
      rw [hnone] at hparams
      cases hparams
    | some a =>
      obtain ⟨b, hb, -⟩ := Option.bind_eq_some_iff.1 hopen
      have hhead : c.rest.head? = some 'p' := (Cursor.eat?_eq_some_iff.1 hb).head?_eq rfl
      have hwith : c.eat? "with" = none :=
        Cursor.eat?_eq_none_of_head (x := 'w') rfl hhead (by decide)
      change openBlock? "with" (j.extend c) = none
      rw [openBlock?, Join.eat?_extend (by decide), hwith]
      rfl
  · intro c v d hc hnone htext
    rw [Rule.orElse_eq_none_iff] at hnone ⊢
    unfold withBlock paramsBlock at hnone ⊢
    rw [Rule.map_eq_none_iff, Rule.map_eq_none_iff, listBlock_eq_none_iff, listBlock_eq_none_iff]
      at hnone ⊢
    exact ⟨openBlock?_extend_eq_none (by decide) (by decide) htext hc hnone.1,
      openBlock?_extend_eq_none (by decide) (by decide) htext hc hnone.2⟩

-- ---------------------------------------------------------------------------
-- Endpoint declarations
-- ---------------------------------------------------------------------------

theorem requestUrl_extend {method : Method} {url : String} (hc : c.In j.before)
    (h : requestUrl method c = .ok (url, d)) :
    requestUrl method (j.extend c) = .ok (url, j.extend d) := by
  unfold requestUrl at h ⊢
  split at h <;> cases h
  next hread =>
  obtain ⟨a, ha, hurl⟩ := Option.bind_eq_some_iff.1 hread
  have hain := hc.of_reaches (Cursor.noise?_precedes ha).reaches
  rw [Join.noise?_extend_of_some hc ha (url?_precedes hurl).rest_ne_nil, Option.bind_some,
    Join.url?_extend hain, hurl]
  rfl

theorem target_extend {name : String} {t : Target} (hc : c.In j.before)
    (h : target name c = .ok (t, d)) : target name (j.extend c) = .ok (t, j.extend d) := by
  unfold target at h ⊢
  rw [keyword?_extend (by decide), Join.eat?_extend (by decide), Join.eat?_extend (by decide)]
  split at h
  · next himpl =>
    cases h
    rw [himpl]
    rfl
  · next himpl =>
    rw [himpl]
    split at h
    · next a hget =>
      obtain ⟨⟨url, e⟩, hurl, heq⟩ := map_eq_ok_iff.1 h
      cases heq
      have hurl' := requestUrl_extend (hc.of_reaches (Cursor.eat?_reaches hget)) hurl
      simp only [hget, Option.map_some, Option.map_none, hurl']
      rfl
    · next hget =>
      split at h
      · next a hpost =>
        obtain ⟨⟨url, e⟩, hurl, heq⟩ := map_eq_ok_iff.1 h
        cases heq
        have hurl' := requestUrl_extend (hc.of_reaches (Cursor.eat?_reaches hpost)) hurl
        simp only [hget, hpost, Option.map_some, Option.map_none, hurl']
        rfl
      · cases h

theorem endpointName?_extend {name : String} (hc : c.In j.before)
    (h : endpointName? c = some (name, d)) :
    endpointName? (j.extend c) = some (name, j.extend d) := by
  simp only [endpointName?, Option.bind_eq_bind, Option.bind_eq_some_iff] at h
  obtain ⟨a, ha, hname⟩ := h
  split at hname <;> cases hname
  next hne =>
  have hp : isNameChar '\n' = false := rfl
  have hmore : a.rest ≠ [] := fun hnil => hne (by simp [Cursor.count, hnil])
  simp only [endpointName?, Option.bind_eq_bind, Join.noise?_extend_of_some hc ha hmore,
    Option.bind_some, Join.count_extend hp, if_neg hne, Join.take_extend (a.count_le_length _),
    Join.drop_extend (a.count_le_length _)]

theorem header_extend {head : Header} (hc : c.In j.before) (h : header c = .ok (head, d)) :
    header (j.extend c) = .ok (head, j.extend d) := by
  unfold header at h ⊢
  split at h
  · cases h
  · next a ha =>
    dsimp only at h
    split at h
    · cases h
    · next name b hb =>
      split at h
      · cases h
      · next e he =>
        obtain ⟨⟨t, f⟩, ht, heq⟩ := map_eq_ok_iff.1 h
        cases heq
        have hain := hc.of_reaches (Cursor.word?_precedes ha).reaches
        have hbin := hain.of_reaches (endpointName?_precedes hb).reaches
        have hein := hbin.of_reaches (b.skipNoise_reaches.trans (Cursor.eat?_reaches he))
        have hbmore := (Cursor.eat?_precedes (by decide) he).rest_ne_nil
        have hemore := (target_precedes ht).rest_ne_nil
        simp only [Join.word?_extend hc, ha, Option.map_some, Join.take_word_extend hc,
          endpointName?_extend hain hb, Join.skipNoise_extend hbin hbmore,
          Join.eat?_extend (show '\n' ∉ ":".toList by decide), he, Join.skipNoise_extend hein hemore,
          target_extend (hein.of_reaches e.skipNoise_reaches) ht]
        rfl

theorem endpoint_extends (hfree : NoneDangle j.before) : endpoint.Extends j := by
  intro c v d hc h
  unfold endpoint at h ⊢
  split at h
  · cases h
  · next a ha =>
    obtain ⟨w, hw, hnoise⟩ := Option.bind_eq_some_iff.1 ha
    split at h
    · cases h
    · next head e hhead =>
      split at h
      · cases h
      · next f hf =>
        split at h <;> cases h
        next hbody =>
        have hwin := hc.of_reaches (Cursor.eat?_reaches hw)
        have hain := hwin.of_reaches (Cursor.noise?_precedes hnoise).reaches
        have hein := hain.of_reaches (header_precedes hhead).reaches
        have hfin := hein.of_reaches (e.skipNoise_reaches.trans (Cursor.eat?_reaches hf))
        have hamore := (header_precedes hhead).rest_ne_nil
        have hemore := (Cursor.eat?_precedes (by decide) hf).rest_ne_nil
        have hbody' := collect_extend (fun c v d result hc hr _ => block_extends hfree hc hr)
          (hfin.of_reaches f.skipNoise_reaches) hbody
        rw [Join.eat?_extend (by decide), hw, Option.map_some, Option.bind_some,
          Join.noise?_extend_of_some hwin hnoise hamore]
        simp only [Option.map_some, header_extend hain hhead, Join.skipNoise_extend hein hemore,
          Join.eat?_extend (show '\n' ∉ "\x7b".toList by decide), hf, Join.offset_extend,
          Join.skipNoise_extend hfin (rest_ne_nil_of_collect hbody), endpointBody, hbody']

-- ---------------------------------------------------------------------------
-- Elements
-- ---------------------------------------------------------------------------

theorem directive_extends {tag : String} (htag : '\n' ∉ tag.toList) : (directive tag).Extends j := by
  intro c v d _ h
  unfold directive at h ⊢
  rw [Join.eat?_extend htag]
  split at h
  · cases h
  · next a ha =>
    dsimp only at h
    split at h <;> cases h
    next hgap =>
    simp only [ha, Option.map_some, Join.skipInlineSpace_extend, Join.offset_extend, if_neg hgap,
      Join.line_extend, Join.lineEnd_extend]

theorem directive_eq_none_iff {tag : String} : directive tag c = .ok none ↔ c.eat? tag = none := by
  unfold directive
  split
  · next h => simp [h]
  · next h =>
    dsimp only
    split <;> simp [h]

theorem rawBlock_eq_none_iff : rawBlock c = .ok none ↔ c.eat? "#raw" = none := by
  unfold rawBlock
  split
  · next h => simp [h]
  · next h => split <;> simp [h]

theorem rawBlock_extends : rawBlock.Extends j := by
  intro c v d _ h
  unfold rawBlock at h ⊢
  rw [Join.eat?_extend (by decide)]
  split at h
  · cases h
  · next a ha =>
    split at h <;> cases h
    next n hn =>
    have hle := length_le_of_find? hn
    rw [String.length_toList] at hle
    simp only [ha, Option.map_some, find?_extend (j := j) (by decide) (by decide) hn,
      Join.take_extend (Nat.le_trans (Nat.le_add_right ..) hle), Join.drop_extend hle]

theorem element_extends (hfree : NoneDangle j.before) : element.Extends j := by
  have heat {c : Cursor} {w : String} (hw : '\n' ∉ w.toList) (h : c.eat? w = none) :
      (j.extend c).eat? w = none := by
    rw [Join.eat?_extend hw, h]
    rfl
  have hnamespace {c : Cursor} (h : namespaceLine c = .ok none) :
      namespaceLine (j.extend c) = .ok none := by
    rw [namespaceLine, Rule.map_eq_none_iff, directive_eq_none_iff] at h ⊢
    exact heat (by decide) h
  have hdescription {c : Cursor} (h : descriptionLine c = .ok none) :
      descriptionLine (j.extend c) = .ok none := by
    rw [descriptionLine, Rule.map_eq_none_iff, directive_eq_none_iff] at h ⊢
    exact heat (by decide) h
  have hraw {c : Cursor} (h : rawBlock c = .ok none) : rawBlock (j.extend c) = .ok none := by
    rw [rawBlock_eq_none_iff] at h ⊢
    exact heat (by decide) h
  refine ((((directive_extends (by decide)).map.orElse (directive_extends (by decide)).map
    ?_).orElse rawBlock_extends ?_).orElse (endpoint_extends hfree).map ?_).located
  · intro c v d _ h _
    exact hnamespace h
  · intro c v d _ h _
    rw [Rule.orElse_eq_none_iff] at h ⊢
    exact ⟨hnamespace h.1, hdescription h.2⟩
  · intro c v d _ h _
    rw [Rule.orElse_eq_none_iff, Rule.orElse_eq_none_iff] at h ⊢
    exact ⟨⟨hnamespace h.1.1, hdescription h.1.2⟩, hraw h.2⟩

/-- The elements of the joined text from a place of the first text on: those of the
    first text, and then those from its end on. -/
theorem elements_extend (hfree : NoneDangle j.before) {es es' : List Element} (hc : c.In j.before)
    (hquiet : startsNoise c.rest = false) (h : elements c = .ok es)
    (hafter : elements (Cursor.ofOffset j.text j.before.length).skipNoise = .ok es') :
    elements (j.extend c).skipNoise = .ok (es ++ es') := by
  fun_induction elements c generalizing es with
  | case1 c hend =>
    cases h
    have hrest : c.rest = [] := by simpa [Cursor.atEnd] using hend
    have hplace : j.extend c = Cursor.ofOffset j.text j.before.length := by
      simp [Join.extend, Cursor.ofOffset, Join.text, hrest, hc.offset_eq hrest]
    rw [hplace, hafter]
    rfl
  | case4 c hend e d hr es hes ih =>
    cases h
    have hd := hc.of_reaches (element_advances hr).reaches
    have hnext := ih (hd.of_reaches d.skipNoise_reaches) (startsNoise_drop_noise d.rest) hes
    rw [Join.skipNoise_extend_skipNoise hd] at hnext
    have hquiet' : startsNoise (j.extend c).rest = false := by
      rw [Join.startsNoise_extend hc (element_advances hr).rest_ne_nil, hquiet]
    have hmore : ¬ (j.extend c).atEnd = true := by
      simp [Cursor.atEnd]
    rw [Cursor.skipNoise_eq_self hquiet', elements_eq, if_neg hmore, element_extends hfree hc hr]
    simp only [hnext]
    rfl
  | _ => cases h

end Rules

-- ---------------------------------------------------------------------------
-- Locality
-- ---------------------------------------------------------------------------

/-- The element with its offset and those of its blocks moved by `k`. -/
def Element.shift (k : Nat) (e : Element) : Element := e.transfer (· + k) id

/-- Behind `k` characters, a text has the elements that it has alone, shifted by `k`. -/
theorem elements_shift {text : List Char} {es : List Element} (h : parse text = .ok es) (k : Nat) :
    elements (Cursor.skipNoise ⟨k, text⟩) = .ok (es.map (Element.shift k)) := by
  let σ : Copy := ⟨text, .feed, k⟩
  have hstart : (Cursor.start text).In σ.text := ⟨by simp [Cursor.start, σ], Nat.zero_le _⟩
  have hplace : σ.place (Cursor.start text) = ⟨k, text⟩ := by
    simp [Copy.place, Copy.offset, Cursor.start, σ, LineEnd.write_feed]
  have htransfer : Element.transfer σ.offset σ.lineEnd.writeString = Element.shift k := by
    have hoffset : σ.offset = (· + k) := by
      funext n
      simp [Copy.offset, σ, LineEnd.growth, Nat.add_comm]
    have hwrite : σ.lineEnd.writeString = id := by
      funext s
      simp [LineEnd.writeString, σ, LineEnd.write_feed]
    funext e
    rw [Element.shift, hoffset, hwrite]
  have hcopy := elements_place (hstart.of_reaches (Cursor.skipNoise_reaches _))
  rw [← Copy.skipNoise_place hstart, hplace, htransfer] at hcopy
  rw [hcopy]
  unfold parse at h
  rw [h]
  rfl

/-- Texts that are read alone are read joined by a line feed: first the elements of the
    first text, and then those of the second, shifted behind the first. Either the first
    text opens no comment with `/*`, or the second closes none and no token dangles behind
    a parameter line of the first. -/
theorem parse_append {t₁ t₂ : List Char} {es₁ es₂ : List Element} (h₁ : parse t₁ = .ok es₁)
    (h₂ : parse t₂ = .ok es₂)
    (hjoin : ¬ "/*".toList <:+: t₁ ∨ ¬ "*/".toList <:+: t₂ ∧ NoneDangle t₁) :
    parse (t₁ ++ '\n' :: t₂) = .ok (es₁ ++ es₂.map (Element.shift (t₁.length + 1))) := by
  have hfree : NoneDangle t₁ := hjoin.elim noneDangle_of_not_infix And.right
  let j : Join := ⟨t₁, t₂, hjoin.imp_right And.left⟩
  have hstart : (Cursor.start t₁).In j.before := ⟨by simp [Cursor.start, j], Nat.zero_le _⟩
  have hafter : elements (Cursor.ofOffset j.text j.before.length).skipNoise =
      .ok (es₂.map (Element.shift (t₁.length + 1))) := by
    have hfeed : (Cursor.ofOffset j.text j.before.length).skipNoise =
        Cursor.skipNoise ⟨t₁.length + 1, t₂⟩ := by
      have hnoise : noise ('\n' :: t₂) = 1 + noise t₂ := noise_of_unit? rfl
      simp [Cursor.ofOffset, Join.text, j, Cursor.skipNoise, Cursor.drop, hnoise, Nat.add_assoc,
        Nat.add_comm 1]
    rw [hfeed, elements_shift h₂]
  have hjoined := elements_extend hfree (hstart.of_reaches (Cursor.skipNoise_reaches _))
    (startsNoise_drop_noise t₁) h₁ hafter
  rwa [Join.skipNoise_extend_skipNoise hstart] at hjoined

/-- A text that opens a comment in its last line, which is no comment as long as nothing
    closes it. -/
def openText : List Char :=
  ("/* a */endpoint void X:Impl\x7bparams\x7brequired int b\noptional\x7d\x7d\n" ++
    "#description c /*").toList

def openElements : List Element :=
  [⟨7, .endpoint ⟨⟨"void", "X", .impl⟩,
      [⟨28, .params [{ kind := .required, pairs := [⟨"int", "b"⟩] }, { kind := .optional }]⟩]⟩⟩,
    ⟨61, .descriptionLine "c /*"⟩]

theorem parse_append_open :
    parse openText = .ok openElements ∧
      parse (openText ++ '\n' :: "#namespace B".toList) =
        .ok (openElements ++ [⟨79, .namespaceLine "B"⟩]) := by
  have hparse : parse openText = .ok openElements := eq_ok_of_toOption (by decide +kernel)
  have hnext : parse "#namespace B".toList = .ok [⟨0, .namespaceLine "B"⟩] :=
    eq_ok_of_toOption (by decide +kernel)
  have hclosed : ¬ "*/".toList <:+: "#namespace B".toList :=
    (find?_eq_none_iff (by decide)).1 (by decide)
  have hfree : NoneDangle openText := by decide +kernel
  have hshift : [⟨0, .namespaceLine "B"⟩].map (Element.shift (openText.length + 1)) =
      [⟨79, .namespaceLine "B"⟩] := by
    decide +kernel
  rw [← hshift]
  exact ⟨hparse, parse_append hparse hnext (.inr ⟨hclosed, hfree⟩)⟩

/-- A text whose last token dangles: alone, `required` is a parameter line of its own. With
    a word after the text, the token that it begins is the type of a parameter. -/
def danglingText : List Char :=
  "endpoint void X:Impl\x7bparams\x7beither required/* //*/\x7d\x7d".toList

/-- That the second text closes no comment of the first is not enough. -/
theorem not_forall_parse_append :
    ¬ ∀ (t₁ t₂ : List Char) (es₁ es₂ : List Element), parse t₁ = .ok es₁ → parse t₂ = .ok es₂ →
      ¬ "/*".toList <:+: t₁ ∨ ¬ "*/".toList <:+: t₂ →
      parse (t₁ ++ '\n' :: t₂) = .ok (es₁ ++ es₂.map (Element.shift (t₁.length + 1))) := by
  intro h
  have hparse : parse danglingText = .ok [⟨0, .endpoint ⟨⟨"void", "X", .impl⟩,
      [⟨21, .params [{ kind := .either }, { kind := .required }]⟩]⟩⟩] :=
    eq_ok_of_toOption (by decide +kernel)
  have hnext : parse "#namespace B".toList = .ok [⟨0, .namespaceLine "B"⟩] :=
    eq_ok_of_toOption (by decide +kernel)
  have hclosed : ¬ "*/".toList <:+: "#namespace B".toList :=
    (find?_eq_none_iff (by decide)).1 (by decide)
  have hfails : (parse (danglingText ++ '\n' :: "#namespace B".toList)).toOption = none := by
    decide +kernel
  rw [h _ _ _ _ hparse hnext (.inr hclosed)] at hfails
  cases hfails

end ApiStubs.Source
