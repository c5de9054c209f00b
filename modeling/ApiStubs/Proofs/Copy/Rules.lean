-- SUMMARY: The grammar reads from a copy of a text a copy of what it reads from the text.
import ApiStubs.Proofs.Copy.Lexical
import ApiStubs.Source.Element

/-!
# The grammar on copies

Between a text and a copy of it, every rule acts alike: it answers with the same
value at both places, or applies at neither, or fails at both with the same fault.
Offsets become the offsets in the copy, and texts that may run over several lines
become their copies. `Rule.Copies` says this of a rule. It is proved of each rule in
the order of the grammar, up to `elements`.
-/

namespace ApiStubs

open Text

-- ---------------------------------------------------------------------------
-- Copies of what is read
-- ---------------------------------------------------------------------------

namespace Text.LineEnd

/-- The text with this line end in place of each line feed. -/
def writeString (e : LineEnd) (s : String) : String := .ofList (e.write s.toList)

/-- A text is a word of one line exactly if its copy is. -/
theorem writeString_eq_iff {e : LineEnd} {s w : String} (hw : WithinLine w.toList) :
    e.writeString s = w ↔ s = w := by
  constructor
  · rintro rfl
    rw [writeString, String.toList_ofList] at hw
    have hfeed : '\n' ∉ s.toList := fun h => hw.1 (mem_write_feed h)
    rw [writeString, write_of_not_mem hfeed, String.ofList_toList]
  · rintro rfl
    rw [writeString, write_of_not_mem hw.1, String.ofList_toList]

end Text.LineEnd

namespace Source

/-- The entry with `g` applied to every text that may run over several lines. -/
def WithEntry.mapText (g : String → String) : WithEntry → WithEntry
  | .attribute name value => .attribute (g name) value
  | entry => entry

/-- The block with `g` applied to every text that may run over several lines. -/
def Block.mapText (g : String → String) : Block → Block
  | .withEntries list => .withEntries (list.map (·.mapText g))
  | .params lines => .params lines
  | .description text => .description (g text)
  | .returns text => .returns (g text)
  | .other name body => .other name (g body)

def Located.transfer {α : Type} (offset : Nat → Nat) (f : α → α) (v : Located α) : Located α :=
  ⟨offset v.offset, f v.value⟩

def EndpointDecl.transfer (offset : Nat → Nat) (g : String → String) (d : EndpointDecl) :
    EndpointDecl :=
  { d with blocks := d.blocks.map (·.transfer offset (·.mapText g)) }

def Item.transfer (offset : Nat → Nat) (g : String → String) : Item → Item
  | .raw text => .raw (g text)
  | .endpoint decl => .endpoint (decl.transfer offset g)
  | item => item

/-- The element with `offset` applied to its offset and to those of its blocks, and `g`
    to every text that may run over several lines. -/
def Element.transfer (offset : Nat → Nat) (g : String → String) (e : Element) : Element :=
  Located.transfer offset (Item.transfer offset g) e

end Source

namespace Text.Copy

open Source

def fault (σ : Copy) : Fault → Fault
  | .malformed cause offset => .malformed cause (σ.offset offset)
  | .indexTooLong digits => .indexTooLong digits

theorem take_write_place (σ : Copy) (c : Cursor) (n : Nat) :
    (σ.place c).take (σ.lineEnd.write (c.rest.take n)).length = σ.lineEnd.writeString (c.take n) := by
  rw [Cursor.take, Cursor.take, LineEnd.writeString, String.toList_ofList, rest_place]
  conv => lhs; arg 1; arg 2; rw [← List.take_append_drop n c.rest]
  rw [LineEnd.write_append, List.take_left]

/-- The place behind a word that a search finds. -/
theorem drop_find?_place {σ : Copy} {c : Cursor} (hc : c.In σ.text) {w : List Char}
    (hw : WithinLine w) {n : Nat} (h : find? w c.rest = some n) :
    (σ.place c).drop ((σ.lineEnd.write (c.rest.take n)).length + w.length) =
      σ.place (c.drop (n + w.length)) := by
  rw [← LineEnd.length_write_take_add hw.1 (find?_eq_some_iff.1 h).1,
    place_drop hc (length_le_of_find? h)]

/-- The answer of a rule on the copy. -/
def answer {α : Type} (σ : Copy) (f : α → α) :
    Except Fault (Option (α × Cursor)) → Except Fault (Option (α × Cursor))
  | .ok (some (v, d)) => .ok (some (f v, σ.place d))
  | .ok none => .ok none
  | .error fault => .error (σ.fault fault)

/-- The result on the copy of a reading that has to succeed. -/
def result {α : Type} (σ : Copy) (f : α → α) :
    Except Fault (α × Cursor) → Except Fault (α × Cursor)
  | .ok (v, d) => .ok (f v, σ.place d)
  | .error fault => .error (σ.fault fault)

end Text.Copy

namespace Source

/-- The rule reads from the copy what it reads from the text, up to `f`. -/
def Rule.Copies {α : Type} (r : Rule α) (σ : Copy) (f : α → α) : Prop :=
  ∀ ⦃c⦄, c.In σ.text → r (σ.place c) = σ.answer f (r c)

namespace Rule.Copies

variable {α β : Type} {r s : Rule α} {σ : Copy} {f : α → α}

theorem orElse (hr : r.Copies σ f) (hs : s.Copies σ f) : (r.orElse s).Copies σ f := by
  intro c hc
  unfold Rule.orElse
  rw [hr hc]
  cases hrc : r c with
  | error fault => rfl
  | ok answer =>
    cases answer with
    | none => exact hs hc
    | some read => rfl

theorem map {k : α → β} {f' : β → β} (hr : r.Copies σ f) (hk : ∀ v, k (f v) = f' (k v)) :
    (r.map k).Copies σ f' := by
  intro c hc
  unfold Rule.map
  rw [hr hc]
  cases hrc : r c with
  | error fault => rfl
  | ok answer =>
    cases answer with
    | none => rfl
    | some read => simp only [Copy.answer, hk]

theorem located (hr : r.Copies σ f) : r.located.Copies σ (Located.transfer σ.offset f) := by
  intro c hc
  unfold Rule.located
  rw [hr hc]
  cases hrc : r c with
  | error fault => rfl
  | ok answer =>
    cases answer with
    | none => rfl
    | some read => rfl

end Rule.Copies

-- ---------------------------------------------------------------------------
-- Entries of a block
-- ---------------------------------------------------------------------------

section Collect

variable {α : Type} {rule : Rule α} {advances : rule.Advances} {unclosed : Fault}
  {stray : Cursor → Fault}

theorem collect_eq (c : Cursor) :
    collect rule advances unclosed stray c =
      if c.atEnd then .error unclosed
      else match c.eat? "\x7d" with
        | some d => .ok ([], d)
        | none =>
          match rule c with
          | .error fault => .error fault
          | .ok none => .error (stray c)
          | .ok (some (v, d)) =>
            match collect rule advances unclosed stray d.skipNoise with
            | .ok (vs, e) => .ok (v :: vs, e)
            | .error fault => .error fault := by
  conv => lhs; unfold collect
  split
  · rfl
  · cases c.eat? "\x7d" with
    | some d => rfl
    | none =>
      dsimp only
      split
      · next h => rw [h]
      · next h => rw [h]
      · next h => rewrite [h]; rfl

/-- The entries of a block in the copy are the copies of its entries. -/
theorem collect_place {σ : Copy} {f : α → α} (hrule : rule.Copies σ f) {unclosed' : Fault}
    {stray' : Cursor → Fault} (hunclosed : unclosed' = σ.fault unclosed)
    (hstray : ∀ d, stray' (σ.place d) = σ.fault (stray d)) {c : Cursor} (hc : c.In σ.text) :
    collect rule advances unclosed' stray' (σ.place c) =
      σ.result (List.map f) (collect rule advances unclosed stray c) := by
  fun_induction collect rule advances unclosed stray c with
  | case1 c hend =>
    rw [collect_eq, Copy.atEnd_place, if_pos hend, hunclosed]
    rfl
  | case2 c hend d hd =>
    rw [collect_eq, Copy.atEnd_place, if_neg hend, Copy.eat?_place hc (by decide), hd]
    rfl
  | case3 c hend hopen fault hr =>
    rw [collect_eq, Copy.atEnd_place, if_neg hend, Copy.eat?_place hc (by decide), hopen, hrule hc,
      hr]
    rfl
  | case4 c hend hopen hr =>
    rw [collect_eq, Copy.atEnd_place, if_neg hend, Copy.eat?_place hc (by decide), hopen, hrule hc,
      hr]
    exact congrArg Except.error (hstray c)
  | case5 c hend hopen v d hr vs e he ih =>
    have hd := hc.of_reaches (advances hr).reaches
    have hnext := ih (hd.of_reaches d.skipNoise_reaches)
    rw [he] at hnext
    rw [collect_eq, Copy.atEnd_place, if_neg hend, Copy.eat?_place hc (by decide), hopen, hrule hc,
      hr]
    simp only [Option.map_none, Copy.answer, Copy.skipNoise_place hd, hnext]
    rfl
  | case6 c hend hopen v d hr fault he ih =>
    have hd := hc.of_reaches (advances hr).reaches
    have hnext := ih (hd.of_reaches d.skipNoise_reaches)
    rw [he] at hnext
    rw [collect_eq, Copy.atEnd_place, if_neg hend, Copy.eat?_place hc (by decide), hopen, hrule hc,
      hr]
    simp only [Option.map_none, Copy.answer, Copy.skipNoise_place hd, hnext]
    rfl

end Collect

-- ---------------------------------------------------------------------------
-- Parameter lines
-- ---------------------------------------------------------------------------

section Readings

variable {σ : Copy} {c : Cursor}

theorem keyword?_place (hc : c.In σ.text) {w : String} (hw : WithinLine w.toList) :
    keyword? w (σ.place c) = (keyword? w c).map σ.place := by
  unfold keyword?
  rw [Copy.eat?_place hc hw]
  cases c.eat? w with
  | none => rfl
  | some d =>
    simp only [Option.map_some, Copy.rest_place,
      LineEnd.head?_write (p := prolongsWord) ⟨by decide, by decide⟩]
    split <;> rfl

theorem index?_place (hc : c.In σ.text) :
    index? (σ.place c) = (index? c).map (Prod.map id σ.place) := by
  unfold index?
  rw [Copy.eat?_place hc (by decide)]
  cases hd : c.eat? "[" with
  | none => rfl
  | some d =>
    have hdin := hc.of_reaches (Cursor.eat?_reaches hd)
    have hdigits : WithinLines Char.isDigit := ⟨rfl, rfl⟩
    have hdrop := Copy.drop_count_place hdin hdigits
    rw [Copy.count_place _ _ hdigits] at hdrop
    unfold Cursor.count at hdrop
    have hend : (d.drop (d.rest.takeWhile Char.isDigit).length).In σ.text :=
      hdin.of_reaches (Cursor.reaches_drop (d.count_le_length Char.isDigit))
    simp only [Option.map_some, Copy.rest_place, LineEnd.takeWhile_write hdigits, hdrop,
      Copy.eat?_place hend (show WithinLine "]".toList by decide)]
    split
    · rfl
    · cases (d.drop (d.rest.takeWhile Char.isDigit).length).eat? "]" <;> rfl

theorem withinLine_kindWord {word : String} {kind : ParamKind} (h : (word, kind) ∈ kindWords) :
    WithinLine word.toList := by
  simp only [kindWords, List.mem_cons, List.not_mem_nil, Prod.mk.injEq, or_false] at h
  rcases h with ⟨rfl, _⟩ | ⟨rfl, _⟩ | ⟨rfl, _⟩ | ⟨rfl, _⟩ <;> decide

/-- A map of places that keeps the words for kinds keeps the kind that comes first. -/
theorem findSome?_kindWords {h : Cursor → Cursor}
    (hkeyword : ∀ word kind, (word, kind) ∈ kindWords →
      keyword? word (h c) = (keyword? word c).map h) :
    (kindWords.findSome? fun (word, kind) => (keyword? word (h c)).map (kind, ·)) =
      (kindWords.findSome? fun (word, kind) => (keyword? word c).map (kind, ·)).map
        (Prod.map id h) := by
  revert hkeyword
  generalize kindWords = words
  intro hkeyword
  induction words with
  | nil => rfl
  | cons pair words ih =>
    obtain ⟨word, kind⟩ := pair
    rw [List.findSome?_cons, List.findSome?_cons,
      ih fun w k hw => hkeyword w k (List.mem_cons_of_mem _ hw)]
    dsimp only
    rw [hkeyword word kind (List.mem_cons_self ..)]
    cases keyword? word c <;> rfl

theorem paramKind_copies : paramKind.Copies σ id := by
  intro c hc
  unfold paramKind
  rw [findSome?_kindWords fun word kind h => keyword?_place hc (withinLine_kindWord h)]
  cases hkind : kindWords.findSome? fun (word, kind) => (keyword? word c).map (kind, ·) with
  | none => rfl
  | some read =>
    obtain ⟨kind, d⟩ := read
    obtain ⟨⟨word, kind'⟩, -, hword⟩ := List.exists_of_findSome?_eq_some hkind
    obtain ⟨d', hd, heq⟩ := Option.map_eq_some_iff.1 hword
    cases heq
    have hdin := hc.of_reaches (Cursor.eat?_reaches (keyword?_eq_eat? hd))
    simp only [Option.map_some, Prod.map, id_eq, index?_place hdin]
    split
    · cases index? d with
      | none => rfl
      | some read =>
        simp only [Option.map_some, Prod.map, id_eq]
        split <;> rfl
    · rfl

theorem token?_place (hc : c.In σ.text) :
    token? (σ.place c) = (token? c).map (Prod.map id σ.place) := by
  have hp : WithinLines (!isPairDelimiter ·) := ⟨rfl, rfl⟩
  have htake := Copy.take_count_place σ c hp
  have hdrop := Copy.drop_count_place hc hp
  rw [Copy.count_place _ _ hp] at htake hdrop
  simp only [token?, Copy.count_place _ _ hp, htake, hdrop]
  split <;> rfl

theorem pair?_place (hc : c.In σ.text) :
    pair? (σ.place c) = (pair? c).map (Prod.map id σ.place) := by
  simp only [pair?, Option.bind_eq_bind, Option.pure_def, token?_place hc]
  cases htype : token? c with
  | none => rfl
  | some read =>
    obtain ⟨type, d⟩ := read
    have hd := hc.of_reaches (token?_precedes htype).reaches
    simp only [Option.map_some, Option.bind_some, Prod.map, id_eq, Copy.noise?_place hd]
    split
    · cases hnoise : d.noise? with
      | none => rfl
      | some e =>
        have he := hd.of_reaches (Cursor.noise?_precedes hnoise).reaches
        simp only [Option.map_some, Option.bind_some, token?_place he]
        cases token? e <;> rfl
    · rfl

theorem morePairs_eq (c : Cursor) :
    morePairs c =
      match c.skipNoise.eat? "," with
      | none => ([], c)
      | some d =>
        match pair? d.skipNoise with
        | none => ([], c)
        | some (p, e) => (p :: (morePairs e).1, (morePairs e).2) := by
  conv => lhs; unfold morePairs
  split
  · next h => rw [h]
  · next d hcomma =>
    rw [hcomma]
    dsimp only
    split
    · next hpair => rw [hpair]
    · next hpair => rw [hpair]

theorem morePairs_place (hc : c.In σ.text) :
    morePairs (σ.place c) = Prod.map id σ.place (morePairs c) := by
  fun_induction morePairs c with
  | case1 c hcomma =>
    rw [morePairs_eq, Copy.skipNoise_place hc,
      Copy.eat?_place (hc.of_reaches c.skipNoise_reaches) (by decide), hcomma]
    rfl
  | case2 c d hcomma hpair =>
    have hd := hc.of_reaches (c.skipNoise_reaches.trans (Cursor.eat?_reaches hcomma))
    rw [morePairs_eq, Copy.skipNoise_place hc,
      Copy.eat?_place (hc.of_reaches c.skipNoise_reaches) (by decide), hcomma]
    simp only [Option.map_some, Copy.skipNoise_place hd,
      pair?_place (hd.of_reaches d.skipNoise_reaches), hpair]
    rfl
  | case3 c d hcomma p e hpair ps f hmore ih =>
    have hd := hc.of_reaches (c.skipNoise_reaches.trans (Cursor.eat?_reaches hcomma))
    have he := hd.of_reaches (d.skipNoise_reaches.trans (pair?_precedes hpair).reaches)
    rw [morePairs_eq, Copy.skipNoise_place hc,
      Copy.eat?_place (hc.of_reaches c.skipNoise_reaches) (by decide), hcomma]
    simp only [Option.map_some, Copy.skipNoise_place hd,
      pair?_place (hd.of_reaches d.skipNoise_reaches), hpair, Prod.map, ih he, hmore, id_eq]

theorem pairs_place (hc : c.In σ.text) :
    pairs (σ.place c) = Prod.map id σ.place (pairs c) := by
  unfold pairs
  rw [Copy.noise?_place hc]
  cases hnoise : c.noise? with
  | none => rfl
  | some d =>
    have hd := hc.of_reaches (Cursor.noise?_precedes hnoise).reaches
    simp only [Option.map_some, Option.bind_some, pair?_place hd]
    cases hpair : pair? d with
    | none => rfl
    | some read =>
      obtain ⟨p, e⟩ := read
      have he := hd.of_reaches (pair?_precedes hpair).reaches
      simp only [Option.map_some, Prod.map, morePairs_place he, id_eq]

theorem guard?_place (hc : c.In σ.text) :
    guard? (σ.place c) = (guard? c).map (Prod.map id σ.place) := by
  simp only [guard?, Option.bind_eq_bind, Copy.noise?_place hc]
  cases hnoise : c.noise? with
  | none => rfl
  | some d =>
    have hd := hc.of_reaches (Cursor.noise?_precedes hnoise).reaches
    simp only [Option.map_some, Option.bind_some,
      Copy.eat?_place hd (show WithinLine "when".toList by decide)]
    cases hwhen : d.eat? "when" with
    | none => rfl
    | some e =>
      have he := hd.of_reaches (Cursor.eat?_reaches hwhen)
      have hvalue := he.of_reaches e.skipInlineSpace_reaches
      simp only [Option.map_some, Option.bind_some, Copy.skipInlineSpace_place he,
        Copy.offset_skipInlineSpace_place he, Copy.line_place, Copy.lineEnd_place hvalue]
      split <;> rfl

theorem param_copies : param.Copies σ id := by
  intro c hc
  unfold param
  rw [paramKind_copies hc]
  cases hkind : paramKind c with
  | error fault => rfl
  | ok answer =>
    cases answer with
    | none => rfl
    | some read =>
      obtain ⟨⟨kind, group⟩, d⟩ := read
      have hd := hc.of_reaches (paramKind_advances hkind).reaches
      simp only [Copy.answer, id_eq, pairs_place hd, Prod.map,
        guard?_place (hd.of_reaches (pairs_reaches d))]
      cases guard? (pairs d).2 <;> rfl

-- ---------------------------------------------------------------------------
-- Blocks
-- ---------------------------------------------------------------------------

theorem attribute?_place (hc : c.In σ.text) :
    attribute? (σ.place c) =
      (attribute? c).map (Prod.map (·.mapText σ.lineEnd.writeString) σ.place) := by
  simp only [attribute?, Option.bind_eq_bind, Option.pure_def, Copy.rest_place,
    LineEnd.find?_write (show WithinLine [']'] by decide) (List.cons_ne_nil _ _)]
  cases hfind : find? [']'] c.rest with
  | none => rfl
  | some n =>
    have hn : n ≤ c.rest.length := (find?_eq_some_iff.1 hfind).2.1
    have hend := hc.of_reaches (Cursor.reaches_drop hn)
    simp only [Option.map_some, Option.bind_some, Copy.place_drop hc hn,
      Copy.eat?_place hend (show WithinLine "]=".toList by decide)]
    cases hd : (c.drop n).eat? "]=" with
    | none => rfl
    | some d =>
      have hdin := hend.of_reaches (Cursor.eat?_reaches hd)
      simp only [Option.map_some, Option.bind_some, Copy.line_place, Copy.lineEnd_place hdin,
        Copy.take_write_place, LineEnd.writeString_eq_iff (show WithinLine "Ignore".toList by decide)]
      split <;> rfl

theorem withEntry?_place (hc : c.In σ.text) :
    withEntry? (σ.place c) =
      Option.map (Prod.map (·.mapText σ.lineEnd.writeString) σ.place) ( withEntry? c) := by
  unfold withEntry?
  rw [Copy.eat?_place hc (by decide), Copy.eat?_place hc (by decide), Copy.eat?_place hc (by decide)]
  cases hjson : c.eat? "JsonPath=" with
  | some d =>
    have hd := hc.of_reaches (Cursor.eat?_reaches hjson)
    simp only [Option.map_some, Copy.line_place, Copy.lineEnd_place hd]
    rfl
  | none =>
    cases homit : c.eat? "OmitExcept=" with
    | some d =>
      have hd := hc.of_reaches (Cursor.eat?_reaches homit)
      simp only [Option.map_some, Option.map_none, Copy.line_place, Copy.lineEnd_place hd]
      rfl
    | none =>
      cases hopen : c.eat? "[" with
      | none => rfl
      | some d => exact attribute?_place (hc.of_reaches (Cursor.eat?_reaches hopen))

theorem withEntry_copies : withEntry.Copies σ (·.mapText σ.lineEnd.writeString) := by
  intro c hc
  simp only [withEntry, Rule.ofOption, withEntry?_place hc]
  cases withEntry? c <;> rfl

theorem openBlock?_place (hc : c.In σ.text) {keyword : String} (hw : WithinLine keyword.toList) :
    openBlock? keyword (σ.place c) = (openBlock? keyword c).map σ.place := by
  simp only [openBlock?, Option.bind_eq_bind, Option.pure_def, Copy.eat?_place hc hw]
  cases hd : c.eat? keyword with
  | none => rfl
  | some d =>
    have hdin := hc.of_reaches (Cursor.eat?_reaches hd)
    have hnoise := hdin.of_reaches d.skipNoise_reaches
    simp only [Option.map_some, Option.bind_some, Copy.skipNoise_place hdin,
      Copy.eat?_place hnoise (show WithinLine "\x7b".toList by decide)]
    cases he : d.skipNoise.eat? "\x7b" with
    | none => rfl
    | some e =>
      have hein := hnoise.of_reaches (Cursor.eat?_reaches he)
      simp only [Option.map_some, Option.bind_some, Copy.skipNoise_place hein]

theorem listBlock_copies {α : Type} {block : ListBlock} {entry : Rule α}
    {advances : entry.Advances} {f : α → α} (hentry : entry.Copies σ f) :
    (listBlock block entry advances).Copies σ (List.map f) := by
  intro c hc
  unfold listBlock
  rw [openBlock?_place hc (by cases block <;> decide)]
  cases hopen : openBlock? block.keyword c with
  | none => rfl
  | some d =>
    have hd := hc.of_reaches (openBlock?_reaches hopen)
    have hcollect : collect entry advances
          (.malformed (.blockUnterminated block.keyword) (σ.place c).offset)
          (fun e => .malformed (.strayInBlock block (snippet e)) (σ.place c).offset) (σ.place d) =
        σ.result (List.map f) (collect entry advances
          (.malformed (.blockUnterminated block.keyword) c.offset)
          (fun e => .malformed (.strayInBlock block (snippet e)) c.offset) d) := by
      refine collect_place hentry ?_ (fun e => ?_) hd
      · rfl
      · rw [Copy.snippet_place]
        rfl
    simp only [Option.map_some, hcollect]
    cases collect entry advances (.malformed (.blockUnterminated block.keyword) c.offset)
      (fun e => .malformed (.strayInBlock block (snippet e)) c.offset) d <;> rfl

theorem withBlock_copies : withBlock.Copies σ (·.mapText σ.lineEnd.writeString) :=
  (listBlock_copies withEntry_copies).map fun _ => rfl

theorem paramsBlock_copies : paramsBlock.Copies σ (·.mapText σ.lineEnd.writeString) :=
  (listBlock_copies param_copies).map fun lines => by rw [List.map_id]; rfl

theorem mapText_ofText (g : String → String) (name body : String) :
    (Block.ofText name body).mapText g = Block.ofText name (g body) := by
  unfold Block.ofText
  split
  · rfl
  · split <;> rfl

theorem textBlock_copies : textBlock.Copies σ (·.mapText σ.lineEnd.writeString) := by
  intro c hc
  have hp : WithinLines Char.isAlphanum := ⟨rfl, rfl⟩
  have htake := Copy.take_count_place σ c hp
  have hdrop := Copy.drop_count_place hc hp
  rw [Copy.count_place _ _ hp] at htake hdrop
  have hname := hc.of_reaches (Cursor.reaches_drop (c.count_le_length Char.isAlphanum))
  have hnoise := hname.of_reaches (Cursor.skipNoise_reaches _)
  simp only [textBlock, Copy.count_place _ _ hp, htake, hdrop, Copy.skipNoise_place hname,
    Copy.eat?_place hnoise (show WithinLine "\x7b".toList by decide)]
  split
  · rfl
  · cases hopen : (c.drop (c.count Char.isAlphanum)).skipNoise.eat? "\x7b" with
    | none => rfl
    | some d =>
      have hd := hnoise.of_reaches (Cursor.eat?_reaches hopen)
      simp only [Option.map_some, Copy.rest_place,
        LineEnd.find?_write (show WithinLine ['}'] by decide) (List.cons_ne_nil _ _)]
      cases hfind : find? ['}'] d.rest with
      | none => rfl
      | some k =>
        have hclose := Copy.drop_find?_place hd (show WithinLine ['}'] by decide) hfind
        simp only [Option.map_some, Copy.take_write_place]
        simp only [List.length_singleton] at hclose
        rw [hclose, ← mapText_ofText]
        rfl

theorem block_copies :
    block.Copies σ (Located.transfer σ.offset (·.mapText σ.lineEnd.writeString)) :=
  ((withBlock_copies.orElse paramsBlock_copies).orElse textBlock_copies).located

-- ---------------------------------------------------------------------------
-- Endpoint declarations
-- ---------------------------------------------------------------------------

theorem url?_place (hc : c.In σ.text) : url? (σ.place c) = (url? c).map (Prod.map id σ.place) := by
  have hle := urlLength_le_length c.rest
  have hline := not_mem_take_urlLength c.rest
  simp only [url?, Copy.rest_place, urlLength_write, Copy.take_place hle hline,
    Copy.place_drop_line hc hle hline]
  split <;> rfl

theorem requestUrl_place (hc : c.In σ.text) (method : Method) :
    requestUrl method (σ.place c) = σ.result id (requestUrl method c) := by
  unfold requestUrl
  rw [Copy.noise?_place hc]
  cases hnoise : c.noise? with
  | none => rfl
  | some d =>
    have hd := hc.of_reaches (Cursor.noise?_precedes hnoise).reaches
    simp only [Option.map_some, Option.bind_some, url?_place hd]
    cases url? d <;> rfl

theorem target_place (hc : c.In σ.text) (name : String) :
    target name (σ.place c) = σ.result id (target name c) := by
  unfold target
  rw [keyword?_place hc (by decide), Copy.eat?_place hc (by decide), Copy.eat?_place hc (by decide)]
  cases keyword? "Impl" c with
  | some d => rfl
  | none =>
    cases hget : c.eat? "Get" with
    | some d =>
      have hd := hc.of_reaches (Cursor.eat?_reaches hget)
      simp only [Option.map_some, Option.map_none, requestUrl_place hd]
      cases requestUrl .get d <;> rfl
    | none =>
      cases hpost : c.eat? "Post" with
      | some d =>
        have hd := hc.of_reaches (Cursor.eat?_reaches hpost)
        simp only [Option.map_some, Option.map_none, requestUrl_place hd]
        cases requestUrl .post d <;> rfl
      | none => rfl

theorem endpointName?_place (hc : c.In σ.text) :
    endpointName? (σ.place c) = (endpointName? c).map (Prod.map id σ.place) := by
  simp only [endpointName?, Option.bind_eq_bind, Copy.noise?_place hc]
  cases hnoise : c.noise? with
  | none => rfl
  | some d =>
    have hd := hc.of_reaches (Cursor.noise?_precedes hnoise).reaches
    have hp : WithinLines isNameChar := ⟨rfl, rfl⟩
    have htake := Copy.take_count_place σ d hp
    have hdrop := Copy.drop_count_place hd hp
    rw [Copy.count_place _ _ hp] at htake hdrop
    simp only [Option.map_some, Option.bind_some, Copy.count_place _ _ hp, htake, hdrop]
    split <;> rfl

theorem header_place (hc : c.In σ.text) :
    header (σ.place c) = σ.result id (header c) := by
  simp only [header, Copy.word?_place hc, Copy.take_word_place]
  cases htype : c.word? with
  | none => rfl
  | some d =>
    have hd := hc.of_reaches (Cursor.word?_precedes htype).reaches
    simp only [Option.map_some, endpointName?_place hd]
    cases hname : endpointName? d with
    | none => rfl
    | some read =>
      obtain ⟨name, e⟩ := read
      have he := hd.of_reaches (endpointName?_precedes hname).reaches
      have hnoise := he.of_reaches e.skipNoise_reaches
      simp only [Option.map_some, Prod.map, id_eq, Copy.skipNoise_place he,
        Copy.eat?_place hnoise (show WithinLine ":".toList by decide)]
      cases hcolon : e.skipNoise.eat? ":" with
      | none => rfl
      | some f =>
        have hf := hnoise.of_reaches (Cursor.eat?_reaches hcolon)
        simp only [Option.map_some, Copy.skipNoise_place hf,
          target_place (hf.of_reaches f.skipNoise_reaches)]
        cases target name f.skipNoise <;> rfl

theorem endpointBody_place (hc : c.In σ.text) (name : String) (start : Nat) :
    endpointBody name (σ.offset start) (σ.place c) =
      σ.result (List.map (Located.transfer σ.offset (·.mapText σ.lineEnd.writeString)))
        (endpointBody name start c) := by
  unfold endpointBody
  refine collect_place block_copies ?_ (fun d => ?_) hc
  · rfl
  · rw [Copy.snippet_place]
    rfl

theorem endpoint_copies :
    endpoint.Copies σ (EndpointDecl.transfer σ.offset σ.lineEnd.writeString) := by
  intro c hc
  unfold endpoint
  rw [Copy.eat?_place hc (by decide)]
  cases hword : c.eat? "endpoint" with
  | none => rfl
  | some b =>
    have hb := hc.of_reaches (Cursor.eat?_reaches hword)
    simp only [Option.map_some, Option.bind_some, Copy.noise?_place hb]
    cases hnoise : b.noise? with
    | none => rfl
    | some d =>
      have hd := hb.of_reaches (Cursor.noise?_precedes hnoise).reaches
      simp only [Option.map_some, header_place hd]
      cases hheader : header d with
      | error fault => rfl
      | ok read =>
        obtain ⟨head, e⟩ := read
        have he := hd.of_reaches (header_precedes hheader).reaches
        have hskip := he.of_reaches e.skipNoise_reaches
        simp only [Copy.result, id_eq, Copy.skipNoise_place he,
          Copy.eat?_place hskip (show WithinLine "\x7b".toList by decide)]
        cases hbrace : e.skipNoise.eat? "\x7b" with
        | none => rfl
        | some f =>
          have hf := hskip.of_reaches (Cursor.eat?_reaches hbrace)
          have hbody := endpointBody_place (hf.of_reaches f.skipNoise_reaches) head.name c.offset
          simp only [Option.map_some, Copy.skipNoise_place hf, Copy.offset_place, hbody]
          cases endpointBody head.name c.offset f.skipNoise <;> rfl

-- ---------------------------------------------------------------------------
-- Elements
-- ---------------------------------------------------------------------------

theorem directive_copies {tag : String} (htag : WithinLine tag.toList) :
    (directive tag).Copies σ id := by
  intro c hc
  unfold directive
  rw [Copy.eat?_place hc htag]
  cases hword : c.eat? tag with
  | none => rfl
  | some d =>
    have hd := hc.of_reaches (Cursor.eat?_reaches hword)
    have he := hd.of_reaches d.skipInlineSpace_reaches
    simp only [Option.map_some, Copy.skipInlineSpace_place hd, Copy.offset_skipInlineSpace_place hd,
      Copy.line_place, Copy.lineEnd_place he]
    split <;> rfl

theorem namespaceLine_copies :
    namespaceLine.Copies σ (Item.transfer σ.offset σ.lineEnd.writeString) :=
  (directive_copies (by decide)).map fun _ => rfl

theorem descriptionLine_copies :
    descriptionLine.Copies σ (Item.transfer σ.offset σ.lineEnd.writeString) :=
  (directive_copies (by decide)).map fun _ => rfl

theorem rawBlock_copies : rawBlock.Copies σ (Item.transfer σ.offset σ.lineEnd.writeString) := by
  intro c hc
  have htag : WithinLine "#endraw".toList := by decide
  unfold rawBlock
  rw [Copy.eat?_place hc (by decide)]
  cases hword : c.eat? "#raw" with
  | none => rfl
  | some d =>
    have hd := hc.of_reaches (Cursor.eat?_reaches hword)
    simp only [Option.map_some, Copy.rest_place, LineEnd.find?_write htag (by decide)]
    cases hfind : find? "#endraw".toList d.rest with
    | none => rfl
    | some n =>
      have hclose := Copy.drop_find?_place hd htag hfind
      rw [String.length_toList] at hclose
      simp only [Option.map_some, Copy.take_write_place, hclose]
      rfl

theorem element_copies : element.Copies σ (Element.transfer σ.offset σ.lineEnd.writeString) :=
  (((namespaceLine_copies.orElse descriptionLine_copies).orElse rawBlock_copies).orElse
    (endpoint_copies.map fun _ => rfl)).located

theorem elements_eq (c : Cursor) :
    elements c =
      if c.atEnd then .ok []
      else match element c with
        | .error fault => .error fault
        | .ok none => .error (.malformed (.strayText (snippet c)) c.offset)
        | .ok (some (e, d)) =>
          match elements d.skipNoise with
          | .ok es => .ok (e :: es)
          | .error fault => .error fault := by
  conv => lhs; unfold elements
  split
  · rfl
  · split
    · next h => rw [h]
    · next h => rw [h]
    · next h => rewrite [h]; rfl

/-- What is read from a copy is the copy of what is read from the text. -/
theorem elements_place (hc : c.In σ.text) :
    elements (σ.place c) =
      ((elements c).map (List.map (Element.transfer σ.offset σ.lineEnd.writeString))).mapError
        σ.fault := by
  fun_induction elements c with
  | case1 c hend =>
    rw [elements_eq, Copy.atEnd_place, if_pos hend]
    rfl
  | case2 c hend fault hr =>
    rw [elements_eq, Copy.atEnd_place, if_neg hend, element_copies hc, hr]
    rfl
  | case3 c hend hr =>
    rw [elements_eq, Copy.atEnd_place, if_neg hend, element_copies hc, hr, Copy.snippet_place]
    rfl
  | case4 c hend e d hr es hes ih =>
    have hd := hc.of_reaches (element_advances hr).reaches
    have hnext := ih (hd.of_reaches d.skipNoise_reaches)
    rw [hes] at hnext
    rw [elements_eq, Copy.atEnd_place, if_neg hend, element_copies hc, hr]
    simp only [Copy.answer, Copy.skipNoise_place hd, hnext]
    rfl
  | case5 c hend e d hr fault hes ih =>
    have hd := hc.of_reaches (element_advances hr).reaches
    have hnext := ih (hd.of_reaches d.skipNoise_reaches)
    rw [hes] at hnext
    rw [elements_eq, Copy.atEnd_place, if_neg hend, element_copies hc, hr]
    simp only [Copy.answer, Copy.skipNoise_place hd, hnext]
    rfl

end Readings

end Source

end ApiStubs
