-- SUMMARY: Reading the blocks that are printed.
import ApiStubs.Proofs.Printed.Param

/-!
# Reading printed blocks

`ReadsLines` is what a rule has to do on the lines of a printed block. Entries,
parameter lines and blocks all do it, so the loop that reads a block is followed
once.
-/

namespace ApiStubs

open Source Text

-- ---------------------------------------------------------------------------
-- Lines of a block
-- ---------------------------------------------------------------------------

section Collect

variable {α : Type} {rule : Rule α} {advances : rule.Advances} {unclosed : Fault}
  {stray : Cursor → Fault} {c d e : Cursor}

theorem atEnd_of_head {x : Char} (h : c.rest.head? = some x) : c.atEnd = false := by
  cases hc : c.rest with
  | nil => rw [hc] at h; cases h
  | cons y ys => simp [Cursor.atEnd, hc]

theorem collect_close (h : c.Spans ['}'] d) :
    collect rule advances unclosed stray c = .ok ([], d) := by
  have hend : c.atEnd = false := atEnd_of_head (h.head?_eq rfl)
  have heat : c.eat? "\x7d" = some d := Cursor.eat?_eq_some_iff.2 h
  unfold collect
  simp [hend, heat]

theorem collect_cons {x : Char} {v : α} {vs : List α} (hhead : c.rest.head? = some x)
    (hx : x ≠ '}') (hread : rule c = .ok (some (v, d)))
    (hrest : collect rule advances unclosed stray d.skipNoise = .ok (vs, e)) :
    collect rule advances unclosed stray c = .ok (v :: vs, e) := by
  have heat : c.eat? "\x7d" = none :=
    Cursor.eat?_eq_none_of_head rfl hhead (fun h => hx h.symm)
  unfold collect
  simp only [atEnd_of_head hhead, heat, Bool.false_eq_true, if_false]
  split
  · next heq => rw [hread] at heq; cases heq
  · next heq => rw [hread] at heq; cases heq
  · next heq =>
    rw [hread] at heq
    cases heq
    rw [hrest]

end Collect

/-- The rule reads each of the printed items when a line feed and something that
    may follow come after it. An item that is read shows the value that belongs to
    the printed one. -/
structure ReadsLines {α β ι : Type} (rule : Rule α) (view : α → β) (line : ι → List Char)
    (value : ι → β) (Follows : List Char → Prop) (items : List ι) : Prop where
  visible : ∀ s, Follows s → startsNoise s = false
  close : ∀ s, Follows ('}' :: s)
  next : ∀ i ∈ items, ∀ s, Follows (line i ++ '\n' :: s)
  start : ∀ i ∈ items, ∃ x, (line i).head? = some x ∧ x ≠ '}'
  read : ∀ i ∈ items, ∀ {c d s}, c.Spans (line i) d → d.rest = '\n' :: s → Follows s →
    ∃ v, rule c = .ok (some (v, d)) ∧ view v = value i

namespace ReadsLines

variable {α β ι : Type} {rule : Rule α} {view : α → β} {line : ι → List Char} {value : ι → β}
  {Follows : List Char → Prop} {items : List ι}

theorem tail {i : ι} (h : ReadsLines rule view line value Follows (i :: items)) :
    ReadsLines rule view line value Follows items where
  visible := h.visible
  close := h.close
  next := fun j hj => h.next j (List.mem_cons_of_mem _ hj)
  start := fun j hj => h.start j (List.mem_cons_of_mem _ hj)
  read := fun j hj => h.read j (List.mem_cons_of_mem _ hj)

/-- After a line feed comes the next item or the closing brace. -/
theorem follows (h : ReadsLines rule view line value Follows items) {c d e : Cursor}
    (hitems : c.Spans (items.flatMap fun i => line i ++ ['\n']) d) (hclose : d.Spans ['}'] e) :
    Follows c.rest := by
  cases items with
  | nil =>
    rw [List.flatMap_nil, Cursor.spans_nil_iff] at hitems
    subst hitems
    rw [hclose.rest_eq]
    exact h.close _
  | cons i items =>
    rw [hitems.rest_eq, List.flatMap_cons, List.append_assoc, List.append_assoc,
      List.singleton_append]
    exact h.next i (List.mem_cons_self ..) _

/-- A block of printed items is collected up to its closing brace. -/
theorem collect (h : ReadsLines rule view line value Follows items) (advances : rule.Advances)
    (unclosed : Fault) (stray : Cursor → Fault) {c d e : Cursor}
    (hitems : c.Spans (items.flatMap fun i => line i ++ ['\n']) d) (hclose : d.Spans ['}'] e) :
    ∃ vs, Source.collect rule advances unclosed stray c = .ok (vs, e) ∧
      vs.map view = items.map value := by
  induction items generalizing c with
  | nil =>
    rw [List.flatMap_nil, Cursor.spans_nil_iff] at hitems
    subst hitems
    exact ⟨[], collect_close hclose, rfl⟩
  | cons i items ih =>
    rw [List.flatMap_cons] at hitems
    obtain ⟨b, hline, hrest⟩ := Cursor.spans_append_iff.1 hitems
    obtain ⟨a, hline, hfeed⟩ := Cursor.spans_append_iff.1 hline
    have hfollows : Follows b.rest := h.tail.follows hrest hclose
    obtain ⟨v, hread, hview⟩ := h.read i (List.mem_cons_self ..) hline hfeed.rest_eq hfollows
    obtain ⟨x, hhead, hx⟩ := h.start i (List.mem_cons_self ..)
    have hhead' : c.rest.head? = some x := by
      rw [hline.rest_eq, List.head?_append, hhead, Option.some_or]
    have hskip : a.skipNoise = b := Cursor.skipNoise_of_space hfeed rfl (h.visible _ hfollows)
    obtain ⟨vs, hcollect, hvs⟩ := ih h.tail hrest
    refine ⟨v :: vs, collect_cons hhead' hx hread (hskip ▸ hcollect), ?_⟩
    rw [List.map_cons, List.map_cons, hview, hvs]

end ReadsLines

-- ---------------------------------------------------------------------------
-- Blocks
-- ---------------------------------------------------------------------------

/-- The text of a list block with the given lines, without the line feed after it. -/
def blockText (keyword : String) (lines : List (List Char)) : List Char :=
  keyword.toList ++ (['\n'] ++ (['{'] ++ (['\n'] ++ (lines.flatMap (· ++ ['\n']) ++ ['}']))))

theorem toList_printBlock (keyword : String) (lines : List String) :
    (printBlock keyword lines).toList = blockText keyword (lines.map (·.toList)) ++ ['\n'] := by
  change (keyword ++ "\n\x7b\n" ++ .join (lines.map (· ++ "\n")) ++ "\x7d\n").toList = _
  simp [blockText, String.toList_append, String.toList_join, List.flatMap_map]

/-- A printed list block is read when its lines are. -/
theorem listBlock_of_spans {α ι : Type} {block : ListBlock} {entry : Rule α}
    {advances : entry.Advances} {line : ι → List Char} {value : ι → α}
    {Follows : List Char → Prop} {items : List ι}
    (hlines : ReadsLines entry id line value Follows items) {c d : Cursor}
    (h : c.Spans (blockText block.keyword (items.map line)) d) :
    listBlock block entry advances c = .ok (some (items.map value, d)) := by
  unfold blockText at h
  obtain ⟨a, hword, h⟩ := Cursor.spans_append_iff.1 h
  obtain ⟨a', hfeed, h⟩ := Cursor.spans_append_iff.1 h
  obtain ⟨b, hopen, h⟩ := Cursor.spans_append_iff.1 h
  obtain ⟨b', hfeed', h⟩ := Cursor.spans_append_iff.1 h
  obtain ⟨e, hitems, hclose⟩ := Cursor.spans_append_iff.1 h
  rw [List.flatMap_map] at hitems
  have hskip : a.skipNoise = a' :=
    Cursor.skipNoise_of_space hfeed rfl (hopen.startsNoise_eq_false rfl rfl)
  have hskip' : b.skipNoise = b' :=
    Cursor.skipNoise_of_space hfeed' rfl (hlines.visible _ (hlines.follows hitems hclose))
  have heat : a'.eat? "\x7b" = some b := Cursor.eat?_eq_some_iff.2 hopen
  have hblock : openBlock? block.keyword c = some b' := by
    simp [openBlock?, Cursor.eat?_eq_some_iff.2 hword, hskip, heat, hskip']
  obtain ⟨vs, hcollect, hvs⟩ := hlines.collect advances
    (.malformed (.blockUnterminated block.keyword) c.offset)
    (fun e => .malformed (.strayInBlock block (snippet e)) c.offset) hitems hclose
  rw [List.map_id] at hvs
  unfold listBlock
  simp only [hblock, hcollect, hvs]

/-- The text of an entry of a `with` block. -/
def Source.WithEntry.line : WithEntry → List Char
  | .jsonPath path => "JsonPath=".toList ++ path.toList
  | .omitExcept names => "OmitExcept=".toList ++ names.toList
  | .attribute name value => ['['] ++ (name.toList ++ ("]=".toList ++ value.toList))
  | .ignore => "[Ignore]=".toList

/-- The entry can be written on a line. -/
def Source.WithEntry.Legible : WithEntry → Prop
  | .jsonPath path => OneLine path
  | .omitExcept names => OneLine names
  | .attribute name value => ']' ∉ name.toList ∧ name ≠ "Ignore" ∧ OneLine value
  | .ignore => True

theorem attribute?_of_spans {name value : String} (hname : ']' ∉ name.toList)
    (hvalue : OneLine value) {c d : Cursor}
    (h : c.Spans (name.toList ++ ("]=".toList ++ value.toList)) d)
    (hd : d.rest.head? = some '\n') :
    attribute? c =
      some (if name = "Ignore" then .ignore else .attribute name value, d) := by
  obtain ⟨a, hspans, h⟩ := Cursor.spans_append_iff.1 h
  obtain ⟨b, hclose, hline⟩ := Cursor.spans_append_iff.1 h
  have hrun : c.Run (· != ']') name a := by
    refine ⟨hspans, fun x hx => ?_, stops_of_head (hclose.head?_eq rfl) rfl⟩
    rw [bne_iff_ne]
    rintro rfl
    exact hname hx
  have hbracket : a.Spans [']'] (a.drop 1) := ⟨by simp [hclose.rest_eq], rfl⟩
  have hfind := hrun.find?_eq hbracket
  have hrun' := run_line_of_spans hvalue hline hd
  have hdrop : c.drop name.toList.length = a := hspans.eq_drop.symm
  have htake : c.take name.toList.length = name := by
    rw [hspans.take_length, String.ofList_toList]
  have heat : a.eat? "]=" = some b := Cursor.eat?_eq_some_iff.2 hclose
  simp only [attribute?, hfind, hdrop, htake, heat, Option.bind_eq_bind, Option.bind_some,
    hrun'.line_eq, hrun'.lineEnd_eq, Option.pure_def]

theorem withEntry_of_spans {w : WithEntry} (hw : w.Legible) {c d : Cursor}
    (h : c.Spans w.line d) (hd : d.rest.head? = some '\n') :
    withEntry c = .ok (some (w, d)) := by
  unfold withEntry Rule.ofOption withEntry?
  match w, hw, h with
  | .jsonPath path, hw, h =>
    obtain ⟨a, hword, hline⟩ := Cursor.spans_append_iff.1 h
    have hrun := run_line_of_spans hw hline hd
    simp only [Cursor.eat?_eq_some_iff.2 hword, hrun.line_eq, hrun.lineEnd_eq]
  | .omitExcept names, hw, h =>
    obtain ⟨a, hword, hline⟩ := Cursor.spans_append_iff.1 h
    have hrun := run_line_of_spans hw hline hd
    have hhead : c.rest.head? = some 'O' := hword.head?_eq rfl
    have hpath : c.eat? "JsonPath=" = none := Cursor.eat?_eq_none_of_head rfl hhead (by decide)
    simp only [hpath, Cursor.eat?_eq_some_iff.2 hword, hrun.line_eq, hrun.lineEnd_eq]
  | .attribute name value, ⟨hname, hignore, hvalue⟩, h =>
    obtain ⟨a, hopen, h⟩ := Cursor.spans_append_iff.1 h
    have hhead : c.rest.head? = some '[' := hopen.head?_eq rfl
    have hpath : c.eat? "JsonPath=" = none := Cursor.eat?_eq_none_of_head rfl hhead (by decide)
    have homit : c.eat? "OmitExcept=" = none := Cursor.eat?_eq_none_of_head rfl hhead (by decide)
    have hbracket : c.eat? "[" = some a := Cursor.eat?_eq_some_iff.2 hopen
    simp only [hpath, homit, hbracket, Option.bind_some, attribute?_of_spans hname hvalue h hd,
      if_neg hignore]
  | .ignore, _, h =>
    have h' : c.Spans (['['] ++ ("Ignore".toList ++ ("]=".toList ++ "".toList))) d := h
    obtain ⟨a, hopen, h'⟩ := Cursor.spans_append_iff.1 h'
    have hhead : c.rest.head? = some '[' := hopen.head?_eq rfl
    have hpath : c.eat? "JsonPath=" = none := Cursor.eat?_eq_none_of_head rfl hhead (by decide)
    have homit : c.eat? "OmitExcept=" = none := Cursor.eat?_eq_none_of_head rfl hhead (by decide)
    have hbracket : c.eat? "[" = some a := Cursor.eat?_eq_some_iff.2 hopen
    simp only [hpath, homit, hbracket, Option.bind_some,
      attribute?_of_spans (by decide) (by decide) h' hd, if_true]

theorem exists_head_line (w : WithEntry) :
    ∃ x, w.line.head? = some x ∧ isPlain x = true ∧ x ≠ '}' := by
  match w with
  | .jsonPath _ => exact ⟨'J', rfl, rfl, by decide⟩
  | .omitExcept _ => exact ⟨'O', rfl, rfl, by decide⟩
  | .attribute _ _ => exact ⟨'[', rfl, rfl, by decide⟩
  | .ignore => exact ⟨'[', rfl, rfl, by decide⟩

theorem withEntry_readsLines {ws : List WithEntry} (hws : ∀ w ∈ ws, w.Legible) :
    ReadsLines withEntry id WithEntry.line id (startsNoise · = false) ws where
  visible := fun _ h => h
  close := fun _ => Cursor.startsNoise_of_head rfl rfl
  next := by
    intro w _ s
    obtain ⟨x, hhead, hplain, -⟩ := exists_head_line w
    exact Cursor.startsNoise_of_head (by rw [List.head?_append, hhead, Option.some_or]) hplain
  start := by
    intro w _
    obtain ⟨x, hhead, -, hx⟩ := exists_head_line w
    exact ⟨x, hhead, hx⟩
  read := by
    intro w hw c d s h hd _
    exact ⟨w, withEntry_of_spans (hws w hw) h (by simp [hd]), rfl⟩

theorem param_readsLines {ps : List Param} (hps : ∀ p ∈ ps, p.WellFormed) :
    ReadsLines param id (·.print.toList) Param.marked FollowsParam ps where
  visible := fun _ h => h.startsNoise_eq_false
  close := fun s => .inl ⟨s, rfl⟩
  next := fun p _ s => p.followsParam_print s
  start := by
    intro p _
    obtain ⟨x, hx, hhead⟩ := p.exists_head_printKind
    refine ⟨x, by rw [Param.toList_print, List.head?_append, hhead, Option.some_or], ?_⟩
    rintro rfl
    exact absurd hx (by decide)
  read := by
    intro p hp c d s h hd hs
    exact ⟨p.marked, param_of_spans (hps p hp) h hd hs, rfl⟩

/-- The text of a text block, without the line feed after it. -/
def textBlockText (name body : String) : List Char :=
  name.toList ++ (['{'] ++ (body.toList ++ ['}']))

theorem textBlock_of_spans {name body : String} (hne : name ≠ "")
    (hname : AllChars Char.isAlphanum name) (hbody : '}' ∉ body.toList) {c d : Cursor}
    (h : c.Spans (textBlockText name body) d) :
    textBlock c = .ok (some (.ofText name body, d)) := by
  obtain ⟨a, hspans, h⟩ := Cursor.spans_append_iff.1 h
  obtain ⟨b, hopen, h⟩ := Cursor.spans_append_iff.1 h
  obtain ⟨e, hspans', hclose⟩ := Cursor.spans_append_iff.1 h
  have hhead : a.rest.head? = some '{' := hopen.head?_eq rfl
  have hrun : c.Run Char.isAlphanum name a := ⟨hspans, hname, stops_of_head hhead (by decide)⟩
  have hrun' : b.Run (· != '}') body e := by
    refine ⟨hspans', fun x hx => ?_, stops_of_head (hclose.head?_eq rfl) rfl⟩
    rw [bne_iff_ne]
    rintro rfl
    exact hbody hx
  have hcount : c.count Char.isAlphanum ≠ 0 := by
    rw [hrun.count_eq, String.length_toList]
    simpa using hne
  have hskip : a.skipNoise = a := Cursor.skipNoise_eq_self (Cursor.startsNoise_of_head hhead rfl)
  have heat : a.eat? "\x7b" = some b := Cursor.eat?_eq_some_iff.2 hopen
  have htake : b.take body.toList.length = body := by
    rw [hspans'.take_length, String.ofList_toList]
  have hdrop : b.drop (body.toList.length + 1) = d := by
    rw [← Cursor.drop_drop, ← hspans'.eq_drop, hclose.eq_drop, List.length_singleton]
  simp only [textBlock, if_neg hcount, hrun.drop_eq, hrun.take_eq, hskip, heat,
    hrun'.find?_eq hclose, htake, hdrop]

/-- The text of a block, without the line feed after it. -/
def Source.Block.text : Block → List Char
  | .withEntries list => blockText "with" (list.map WithEntry.line)
  | .params lines => blockText "params" (lines.map (·.print.toList))
  | .description body => textBlockText "description" body
  | .returns body => textBlockText "returns" body
  | .other name body => textBlockText name body

/-- The block as a file declares it, with marked names. -/
def Source.Block.marked : Block → Block
  | .params lines => .params (lines.map Param.marked)
  | b => b

/-- The block is one that is printed, and its texts can be written. -/
def Source.Block.Legible : Block → Prop
  | .withEntries list => ∀ w ∈ list, w.Legible
  | .params lines => ∀ p ∈ lines, p.WellFormed
  | .description body => '}' ∉ body.toList
  | .returns body => '}' ∉ body.toList
  | .other _ _ => False

theorem listBlock_eq_none {α : Type} {block : ListBlock} {entry : Rule α}
    {advances : entry.Advances} {c : Cursor} (h : c.eat? block.keyword = none) :
    listBlock block entry advances c = .ok none := by
  simp [listBlock, openBlock?, h]

theorem withBlock_eq_none {c : Cursor} {x : Char} (hc : c.rest.head? = some x) (hx : 'w' ≠ x) :
    withBlock c = .ok none := by
  have hword : c.eat? ListBlock.withEntries.keyword = none :=
    Cursor.eat?_eq_none_of_head rfl hc hx
  simp only [withBlock, Rule.map, listBlock_eq_none hword]

theorem paramsBlock_eq_none {c : Cursor} {x : Char} (hc : c.rest.head? = some x) (hx : 'p' ≠ x) :
    paramsBlock c = .ok none := by
  have hword : c.eat? ListBlock.params.keyword = none := Cursor.eat?_eq_none_of_head rfl hc hx
  simp only [paramsBlock, Rule.map, listBlock_eq_none hword]

theorem block_of_spans {b : Block} (hb : b.Legible) {c d : Cursor} (h : c.Spans b.text d) :
    block c = .ok (some (⟨c.offset, b.marked⟩, d)) := by
  unfold block Rule.located Rule.orElse
  cases b with
  | withEntries list =>
    have hread : withBlock c = .ok (some (.withEntries list, d)) := by
      have hlist : listBlock .withEntries withEntry withEntry_advances c =
          .ok (some (list.map id, d)) := listBlock_of_spans (withEntry_readsLines hb) h
      simp only [withBlock, Rule.map, hlist, List.map_id]
    simp only [hread, Block.marked]
  | params lines =>
    have hhead : c.rest.head? = some 'p' := h.head?_eq rfl
    have hread : paramsBlock c = .ok (some (.params (lines.map Param.marked), d)) := by
      have hlist : listBlock .params param param_advances c =
          .ok (some (lines.map Param.marked, d)) := listBlock_of_spans (param_readsLines hb) h
      simp only [paramsBlock, Rule.map, hlist]
    simp only [withBlock_eq_none hhead (by decide), hread, Block.marked]
  | description body =>
    have hhead : c.rest.head? = some 'd' := h.head?_eq rfl
    have hread := textBlock_of_spans (by decide) (by decide) hb h
    simp only [withBlock_eq_none hhead (by decide), paramsBlock_eq_none hhead (by decide), hread]
    rfl
  | returns body =>
    have hhead : c.rest.head? = some 'r' := h.head?_eq rfl
    have hread := textBlock_of_spans (by decide) (by decide) hb h
    simp only [withBlock_eq_none hhead (by decide), paramsBlock_eq_none hhead (by decide), hread]
    rfl
  | other name body => exact absurd hb id

theorem exists_head_text {b : Block} (hb : b.Legible) :
    ∃ x, b.text.head? = some x ∧ isPlain x = true ∧ x ≠ '}' := by
  cases b with
  | withEntries list => exact ⟨'w', rfl, rfl, by decide⟩
  | params lines => exact ⟨'p', rfl, rfl, by decide⟩
  | description body => exact ⟨'d', rfl, rfl, by decide⟩
  | returns body => exact ⟨'r', rfl, rfl, by decide⟩
  | other name body => exact absurd hb id

theorem block_readsLines {bs : List Block} (hbs : ∀ b ∈ bs, b.Legible) :
    ReadsLines block Located.value Block.text Block.marked (startsNoise · = false) bs where
  visible := fun _ h => h
  close := fun _ => Cursor.startsNoise_of_head rfl rfl
  next := by
    intro b hb s
    obtain ⟨x, hhead, hplain, -⟩ := exists_head_text (hbs b hb)
    exact Cursor.startsNoise_of_head (by rw [List.head?_append, hhead, Option.some_or]) hplain
  start := by
    intro b hb
    obtain ⟨x, hhead, -, hx⟩ := exists_head_text (hbs b hb)
    exact ⟨x, hhead, hx⟩
  read := by
    intro b hb c d s h _ _
    exact ⟨_, block_of_spans (hbs b hb) h, rfl⟩

end ApiStubs
