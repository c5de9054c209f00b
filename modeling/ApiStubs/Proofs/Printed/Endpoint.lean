-- SUMMARY: Reading the endpoints that are printed.
import ApiStubs.Proofs.Printed.Block

/-!
# Reading printed endpoints

A URL is read to its end since nothing in it starts a comment. The declaration
that is read from a printed endpoint is that endpoint with marked names, and the
endpoint is what the declaration stands for.
-/

namespace ApiStubs

open Source Text

-- ---------------------------------------------------------------------------
-- Headers
-- ---------------------------------------------------------------------------

theorem isBlank_of_isSpace {x : Char} (h : isSpace x = true) : isBlank x = true := by
  simp only [isSpace, Bool.or_eq_true, beq_iff_eq] at h
  rcases h with ((((rfl | rfl) | rfl) | rfl) | rfl) | rfl <;> decide

namespace WellFormedUrl

variable {url : String}

theorem of_mem (h : WellFormedUrl url) {x : Char} (hx : x ∈ url.toList) :
    isBlank x = false ∧ x ≠ '#' := by
  simpa using h.chars x hx

theorem not_blockComment (h : WellFormedUrl url) {before after : List Char}
    (heq : url.toList = before ++ '/' :: '*' :: after) : False := by
  have hlt : before.length < url.length := by
    rw [← String.length_toList, heq]
    simp
  refine h.noBlockComment _ hlt ⟨after, ?_⟩
  rw [heq, List.drop_left]
  rfl

theorem colon_before (h : WellFormedUrl url) (before after : List Char)
    (heq : url.toList = before ++ '/' :: '/' :: after) : before.getLast? = some ':' := by
  have hlt : before.length < url.length := by
    rw [← String.length_toList, heq]
    simp
  have hslash := h.slashes _ hlt
  rw [heq, List.drop_left, List.take_left] at hslash
  exact hslash ⟨after, rfl⟩

/-- Inside a URL nothing begins that ends it, whatever comes after the URL as long
    as it does not complete a comment. -/
theorem continues (h : WellFormedUrl url) (before : List Char) {after s : List Char} {x : Char}
    (heq : url.toList = before ++ x :: after) (hx : x = '/' → after.head? ≠ some '/')
    (hslash : s.head? ≠ some '/') (hstar : s.head? ≠ some '*') :
    (isBlank x || startsNoise (x :: (after ++ s))) = false := by
  obtain ⟨hblank, hhash⟩ := h.of_mem (by simp [heq] : x ∈ url.toList)
  have hspace : isSpace x = false := by
    cases hs : isSpace x with
    | false => rfl
    | true => rw [isBlank_of_isSpace hs] at hblank; cases hblank
  rw [hblank, Bool.false_or]
  by_cases hcomment : x = '/'
  · subst hcomment
    have hnone : comment? ('/' :: (after ++ s)) = none := by
      cases after with
      | nil =>
        cases s with
        | nil => rfl
        | cons y ys =>
          have hy : y ≠ '/' := by rintro rfl; exact hslash rfl
          have hy' : y ≠ '*' := by rintro rfl; exact hstar rfl
          simp [comment?, hy, hy']
      | cons y ys =>
        have hy : y ≠ '/' := by rintro rfl; exact hx rfl rfl
        have hy' : y ≠ '*' := by rintro rfl; exact h.not_blockComment heq
        simp [comment?, hy, hy']
    simp [startsNoise, unit?, hspace, hnone]
  · exact Cursor.startsNoise_of_head rfl (by simp [isPlain, hspace, hcomment, hhash])

theorem head?_ne_slash {x : Char} {cs : List Char} (h : ∀ cs', x = '/' → cs = '/' :: cs' → False) :
    x = '/' → cs.head? ≠ some '/' := by
  intro hx hhead
  obtain ⟨cs', rfl⟩ := List.head?_eq_some_iff.1 hhead
  exact h cs' hx rfl

/-- A URL goes on to the line feed after it. -/
theorem urlTail_eq (h : WellFormedUrl url) (before : List Char) {last : Char} {rest : List Char}
    (heq : url.toList = before ++ rest) (hlast : before.getLast? = some last) (s : List Char) :
    urlTail last (rest ++ '\n' :: s) = rest.length := by
  fun_induction urlTail last rest generalizing before with
  | case1 last => rfl
  | case2 cs ih =>
    have heq' : url.toList = (before ++ ['/', '/']) ++ cs := by simp [heq]
    simp [urlTail, ih _ heq' (by simp)]
  | case3 last cs hcolon =>
    have hbefore := h.colon_before _ _ heq
    rw [hlast] at hbefore
    exact absurd (Option.some.inj hbefore) hcolon
  | case4 last x cs hslashes hstop =>
    have hgoes := h.continues _ heq (head?_ne_slash hslashes) (s := []) (by simp) (by simp)
    rw [List.append_nil, hstop] at hgoes
    cases hgoes
  | case5 last x cs hslashes hstop ih =>
    have hgoes := h.continues _ heq (head?_ne_slash hslashes) (s := '\n' :: s) (by simp) (by simp)
    have hslashes' : ∀ cs', x = '/' → cs ++ '\n' :: s = '/' :: cs' → False := by
      intro cs' hx' hcs
      cases cs with
      | nil => simp at hcs
      | cons y ys => exact hslashes ys hx' (by rw [(List.cons.inj hcs).1])
    have heq' : url.toList = (before ++ [x]) ++ cs := by simp [heq]
    rw [List.cons_append, urlTail.eq_3 _ _ _ hslashes', hgoes, ih _ heq' (by simp)]
    simp

theorem exists_cons (h : WellFormedUrl url) : ∃ x rest, url.toList = x :: rest := by
  cases heq : url.toList with
  | nil => exact absurd (String.toList_inj.1 heq) h.nonempty
  | cons x rest => exact ⟨x, rest, rfl⟩

theorem url?_of_spans (h : WellFormedUrl url) {c d : Cursor} {s : List Char}
    (hspans : c.Spans url.toList d) (hd : d.rest = '\n' :: s) : url? c = some (url, d) := by
  obtain ⟨x, rest, heq⟩ := h.exists_cons
  have hblank : isBlank x = false := (h.of_mem (by simp [heq])).1
  have htail : urlTail x (rest ++ '\n' :: s) = rest.length :=
    h.urlTail_eq [x] heq rfl s
  have hlength : urlLength c.rest = url.toList.length := by
    rw [hspans.rest_eq, hd, heq, List.cons_append, urlLength, hblank, htail]
    rfl
  have hpos : url.toList.length ≠ 0 := by simp [heq]
  simp only [url?, hlength, if_neg hpos, hspans.take_length, String.ofList_toList,
    ← hspans.eq_drop]

/-- No noise begins at a URL. -/
theorem startsNoise_eq_false (h : WellFormedUrl url) (s : List Char) :
    startsNoise (url.toList ++ '\n' :: s) = false := by
  obtain ⟨x, rest, heq⟩ := h.exists_cons
  -- A second slash would have to follow a colon, and nothing comes before the first.
  have hslashes : ∀ rest', x = '/' → rest = '/' :: rest' → False := by
    rintro rest' rfl rfl
    have hcolon := h.colon_before [] _ heq
    cases hcolon
  have hgoes := h.continues [] heq (head?_ne_slash hslashes) (s := '\n' :: s) (by simp) (by simp)
  rw [heq]
  exact (Bool.or_eq_false_iff.1 hgoes).2

end WellFormedUrl

/-- A text of plain characters is read as one word up to a space. -/
theorem word_append_space {s : List Char} (hs : ∀ x ∈ s, isPlain x = true) (t : List Char) :
    word (s ++ ' ' :: t) = s.length := by
  induction s with
  | nil => rfl
  | cons x xs ih =>
    have hnoise : startsNoise (x :: (xs ++ ' ' :: t)) = false :=
      Cursor.startsNoise_of_head rfl (hs x (List.mem_cons_self ..))
    rw [List.cons_append, word, hnoise, ih (fun y hy => hs y (List.mem_cons_of_mem _ hy))]
    rfl

namespace Endpoint

/-- Where the header of the printed endpoint says that its calls go. -/
def target (e : Endpoint) : Target :=
  match e.method with
  | .impl => .impl
  | .get => .get (e.url.getD "")
  | .post => .post (e.url.getD "")

def header (e : Endpoint) : Header := ⟨e.returnType, e.name, e.target⟩

def headerText (e : Endpoint) : List Char :=
  e.returnType.toList ++ ([' '] ++ (e.name.toList ++
    ([' '] ++ ([':'] ++ ([' '] ++ e.printTarget.toList)))))

variable {e : Endpoint}

theorem method_target (e : Endpoint) : e.target.method = e.method := by
  unfold target
  cases e.method <;> rfl

theorem WellFormed.url?_target (he : e.WellFormed) : e.target.url? = e.url := by
  have hmethod := he.method
  unfold target
  cases hm : e.method with
  | impl => exact (hmethod.2 hm).symm
  | get =>
    cases hu : e.url with
    | none => rw [hmethod.1 hu] at hm; cases hm
    | some url => rfl
  | post =>
    cases hu : e.url with
    | none => rw [hmethod.1 hu] at hm; cases hm
    | some url => rfl

theorem WellFormed.exists_url (he : e.WellFormed) (hm : e.method ≠ .impl) :
    ∃ url, e.url = some url ∧ WellFormedUrl url := by
  cases hu : e.url with
  | none => exact absurd (he.method.1 hu) hm
  | some url => exact ⟨url, rfl, he.url url hu⟩

theorem requestUrl_of_spans {url : String} (hurl : WellFormedUrl url) {method : Method}
    {c d : Cursor} {s : List Char} (h : c.Spans ([' '] ++ url.toList) d) (hd : d.rest = '\n' :: s) :
    requestUrl method c = .ok (url, d) := by
  obtain ⟨a, hspace, hspans⟩ := Cursor.spans_append_iff.1 h
  have hnoise : startsNoise a.rest = false := by
    rw [hspans.rest_eq, hd]
    exact hurl.startsNoise_eq_false s
  simp [requestUrl, Cursor.noise?_of_space hspace rfl hnoise, hurl.url?_of_spans hspans hd]

theorem target_of_spans (he : e.WellFormed) {name : String} {c d : Cursor} {s : List Char}
    (h : c.Spans e.printTarget.toList d) (hd : d.rest = '\n' :: s) :
    Source.target name c = .ok (e.target, d) := by
  unfold printTarget at h
  unfold Source.target target
  cases hm : e.method with
  | impl =>
    simp only [hm] at h
    have hword : keyword? "Impl" c = some d :=
      keyword?_eq_some_iff.2 ⟨h, stops_of_head (x := '\n') (by simp [hd]) (by decide)⟩
    simp only [hword]
  | get =>
    obtain ⟨url, hu, hurl⟩ := he.exists_url (by simp [hm])
    simp only [hm, hu, Option.getD_some] at h ⊢
    have h' : c.Spans ("Get".toList ++ ([' '] ++ url.toList)) d := by
      simpa [Method.keyword, String.toList_append] using h
    obtain ⟨a, hword, hrequest⟩ := Cursor.spans_append_iff.1 h'
    have himpl : keyword? "Impl" c = none :=
      keyword?_eq_none_of_head rfl (hword.head?_eq rfl) (by decide)
    simp only [himpl, Cursor.eat?_eq_some_iff.2 hword, requestUrl_of_spans hurl hrequest hd]
    rfl
  | post =>
    obtain ⟨url, hu, hurl⟩ := he.exists_url (by simp [hm])
    simp only [hm, hu, Option.getD_some] at h ⊢
    have h' : c.Spans ("Post".toList ++ ([' '] ++ url.toList)) d := by
      simpa [Method.keyword, String.toList_append] using h
    obtain ⟨a, hword, hrequest⟩ := Cursor.spans_append_iff.1 h'
    have hhead : c.rest.head? = some 'P' := hword.head?_eq rfl
    have himpl : keyword? "Impl" c = none := keyword?_eq_none_of_head rfl hhead (by decide)
    have hget : c.eat? "Get" = none := Cursor.eat?_eq_none_of_head rfl hhead (by decide)
    simp only [himpl, hget, Cursor.eat?_eq_some_iff.2 hword,
      requestUrl_of_spans hurl hrequest hd]
    rfl

theorem exists_head_printTarget (e : Endpoint) :
    ∃ x, e.printTarget.toList.head? = some x ∧ isPlain x = true := by
  unfold printTarget
  cases e.method with
  | impl => exact ⟨'I', by simp [Method.keyword], rfl⟩
  | get => exact ⟨'G', by simp [Method.keyword, String.toList_append], rfl⟩
  | post => exact ⟨'P', by simp [Method.keyword, String.toList_append], rfl⟩

theorem WellFormed.word?_of_spans (he : e.WellFormed) {c d f : Cursor}
    (h : c.Spans e.returnType.toList d) (hspace : d.Spans [' '] f) :
    c.word? = some d ∧ c.take (word c.rest) = e.returnType := by
  have hword : word c.rest = e.returnType.toList.length := by
    rw [h.rest_eq, hspace.rest_eq]
    exact word_append_space he.returnType.2 _
  have hpos : e.returnType.toList.length ≠ 0 := by
    simpa [String.length_toList] using he.returnType.1
  rw [Cursor.word?, hword, if_neg hpos, ← h.eq_drop, h.take_length, String.ofList_toList]
  exact ⟨rfl, rfl⟩

theorem WellFormed.endpointName?_of_spans (he : e.WellFormed) {c d f g : Cursor}
    (hspace : c.Spans [' '] d) (h : d.Spans e.name.toList f) (hspace' : f.Spans [' '] g) :
    endpointName? c = some (e.name, f) := by
  have hnoise : c.noise? = some d := by
    obtain ⟨x, hx, hhead⟩ := exists_head he.name.1
    have hplain := isPlain_of_isNameChar (he.name.2 x hx)
    exact Cursor.noise?_of_space hspace rfl (h.startsNoise_eq_false hhead hplain)
  have hrun : d.Run isNameChar e.name f :=
    ⟨h, he.name.2, stops_of_head (hspace'.head?_eq rfl) rfl⟩
  have hcount : d.count isNameChar ≠ 0 := by
    rw [hrun.count_eq, String.length_toList]
    simpa using he.name.1
  simp [endpointName?, hnoise, hcount, hrun.take_eq, hrun.drop_eq]

theorem header_of_spans (he : e.WellFormed) {c d : Cursor} {s : List Char}
    (h : c.Spans e.headerText d) (hd : d.rest = '\n' :: s) :
    Source.header c = .ok (e.header, d) := by
  obtain ⟨a, htype, h⟩ := Cursor.spans_append_iff.1 h
  obtain ⟨b, hspace, h⟩ := Cursor.spans_append_iff.1 h
  obtain ⟨b', hname, h⟩ := Cursor.spans_append_iff.1 h
  obtain ⟨f, hspace', h⟩ := Cursor.spans_append_iff.1 h
  obtain ⟨f', hcolon, h⟩ := Cursor.spans_append_iff.1 h
  obtain ⟨g, hspace'', htarget⟩ := Cursor.spans_append_iff.1 h
  obtain ⟨hword, htake⟩ := he.word?_of_spans htype hspace
  have hname? := he.endpointName?_of_spans hspace hname hspace'
  have hskip : b'.skipNoise = f :=
    Cursor.skipNoise_of_space hspace' rfl (hcolon.startsNoise_eq_false rfl rfl)
  have heat : f.eat? ":" = some f' := Cursor.eat?_eq_some_iff.2 hcolon
  have hskip' : f'.skipNoise = g := by
    obtain ⟨x, hhead, hplain⟩ := e.exists_head_printTarget
    exact Cursor.skipNoise_of_space hspace'' rfl (htarget.startsNoise_eq_false hhead hplain)
  unfold Source.header
  simp only [hword, htake, hname?, hskip, heat, hskip', target_of_spans he htarget hd]
  rfl

-- ---------------------------------------------------------------------------
-- Declarations
-- ---------------------------------------------------------------------------

/-- The entries of the `with` block that is printed. -/
def entries (e : Endpoint) : List WithEntry :=
  e.jsonPath.toList.map .jsonPath ++ e.attributes.map (fun a => .attribute a.1 a.2) ++
    (if e.ignore then [.ignore] else [])

/-- The blocks that are printed. -/
def blocks (e : Endpoint) : List Block :=
  .withEntries e.entries :: (e.description.toList.map .description ++
    (e.returns.toList.map .returns ++ [.params e.params]))

/-- The text of the declaration, without the line feed after it. -/
def text (e : Endpoint) : List Char :=
  "endpoint".toList ++ ([' '] ++ (e.headerText ++ (['\n'] ++ (['{'] ++ (['\n'] ++
    (e.blocks.flatMap (fun b => b.text ++ ['\n']) ++ ['}']))))))

theorem toList_printEntries (e : Endpoint) :
    e.printEntries.map (·.toList) = e.entries.map WithEntry.line := by
  have hpath : ∀ path, s!"JsonPath={path}".toList = (WithEntry.jsonPath path).line := by
    intro path
    exact String.toList_append
  have hattribute : ∀ name value,
      s!"[{name}]={value}".toList = (WithEntry.attribute name value).line := by
    intro name value
    simp only [toString, String.toList_append, List.append_assoc]
    rfl
  have hignore : "[Ignore]=".toList = WithEntry.ignore.line := rfl
  unfold printEntries entries
  cases e.jsonPath <;> cases e.ignore <;>
    simp [hpath, hattribute, hignore]

theorem toList_printText (name : String) (body? : Option String) :
    (printText name body?).toList =
      body?.toList.flatMap fun body => textBlockText name body ++ ['\n'] := by
  cases body? with
  | none => rfl
  | some body =>
    change (name ++ "\x7b" ++ body ++ "\x7d\n").toList = _
    simp [textBlockText, String.toList_append]

theorem flatMap_blocks (e : Endpoint) :
    e.blocks.flatMap (fun b => b.text ++ ['\n']) =
      (printBlock "with" e.printEntries).toList ++
        ((printText "description" e.description).toList ++
          ((printText "returns" e.returns).toList ++
            (printBlock "params" (e.params.map Param.print)).toList)) := by
  simp only [blocks, List.flatMap_cons, List.flatMap_append, List.flatMap_map, List.flatMap_nil,
    Block.text, toList_printBlock, toList_printText, toList_printEntries, List.append_assoc,
    List.append_nil, List.map_map]
  rfl

theorem toList_print (e : Endpoint) : e.print.toList = e.text ++ ['\n'] := by
  unfold print text headerText
  rw [flatMap_blocks]
  -- The blocks stand in the same order on both sides, and what is in them no longer matters.
  generalize printBlock "with" e.printEntries = entries
  generalize printText "description" e.description = description
  generalize printText "returns" e.returns = returns
  generalize printBlock "params" (e.params.map Param.print) = params
  simp [toString, String.toList_append]

theorem WellFormed.entries_legible (he : e.WellFormed) : ∀ w ∈ e.entries, w.Legible := by
  intro w hw
  rcases List.mem_append.1 hw with hw | hignore
  · rcases List.mem_append.1 hw with hpath | hattribute
    · obtain ⟨path, hmem, rfl⟩ := List.mem_map.1 hpath
      exact he.jsonPath path (Option.mem_toList.1 hmem)
    · obtain ⟨a, hmem, rfl⟩ := List.mem_map.1 hattribute
      exact he.attributes a hmem
  · have hw : w = .ignore := by
      split at hignore
      · exact List.mem_singleton.1 hignore
      · exact absurd hignore List.not_mem_nil
    subst hw
    trivial

theorem WellFormed.blocks_legible (he : e.WellFormed) : ∀ b ∈ e.blocks, b.Legible := by
  intro b hb
  simp only [blocks, List.mem_cons, List.mem_append, List.mem_map, Option.mem_toList,
    List.not_mem_nil, or_false] at hb
  rcases hb with rfl | ⟨body, hbody, rfl⟩ | ⟨body, hbody, rfl⟩ | rfl
  · exact he.entries_legible
  · exact he.description body hbody
  · exact he.returns body hbody
  · exact he.params

/-- A printed endpoint is read as its declaration. -/
theorem endpoint_of_spans (he : e.WellFormed) {c d : Cursor} (h : c.Spans e.text d) :
    ∃ bs, Source.endpoint c = .ok (some (⟨e.header, bs⟩, d)) ∧
      bs.map Located.value = e.blocks.map Block.marked := by
  obtain ⟨a, hword, h⟩ := Cursor.spans_append_iff.1 h
  obtain ⟨a', hspace, h⟩ := Cursor.spans_append_iff.1 h
  obtain ⟨b, hheader, h⟩ := Cursor.spans_append_iff.1 h
  obtain ⟨b', hfeed, h⟩ := Cursor.spans_append_iff.1 h
  obtain ⟨f, hopen, h⟩ := Cursor.spans_append_iff.1 h
  obtain ⟨f', hfeed', h⟩ := Cursor.spans_append_iff.1 h
  obtain ⟨g, hblocks, hclose⟩ := Cursor.spans_append_iff.1 h
  have hlines := block_readsLines he.blocks_legible
  have hnoise : a.noise? = some a' := by
    obtain ⟨x, hx, hhead⟩ := exists_head he.returnType.1
    obtain ⟨f, htype, -⟩ := Cursor.spans_append_iff.1 hheader
    exact Cursor.noise?_of_space hspace rfl
      (htype.startsNoise_eq_false hhead (he.returnType.2 x hx))
  have hskip : b.skipNoise = b' :=
    Cursor.skipNoise_of_space hfeed rfl (hopen.startsNoise_eq_false rfl rfl)
  have hskip' : f.skipNoise = f' :=
    Cursor.skipNoise_of_space hfeed' rfl (hlines.visible _ (hlines.follows hblocks hclose))
  obtain ⟨bs, hcollect, hbs⟩ := hlines.collect block_advances
    (.malformed (.endpointUnterminated e.name) c.offset)
    (fun d => .malformed (.strayInEndpoint (snippet d) e.name) d.offset) hblocks hclose
  refine ⟨bs, ?_, hbs⟩
  have hstart : (c.eat? "endpoint").bind (·.noise?) = some a' := by
    rw [Cursor.eat?_eq_some_iff.2 hword, Option.bind_some, hnoise]
  have heat : b'.eat? "\x7b" = some f := Cursor.eat?_eq_some_iff.2 hopen
  have hbody : endpointBody e.header.name c.offset f' = .ok (bs, d) := hcollect
  unfold Source.endpoint
  simp only [hstart, header_of_spans he hheader hfeed.rest_eq, hskip, heat, hskip', hbody]

-- ---------------------------------------------------------------------------
-- What the declaration stands for
-- ---------------------------------------------------------------------------

theorem first?_eq {α : Type} (view : Block → Option α) {d : EndpointDecl}
    (hd : d.blocks.map Located.value = e.blocks.map Block.marked) :
    d.first? view = (e.blocks.map Block.marked).findSome? view := by
  rw [← hd, List.findSome?_map]
  rfl

theorem jsonPath_entries (e : Endpoint) : e.entries.findSome? (·.jsonPath?) = e.jsonPath := by
  have hattributes : (e.attributes.map fun a => WithEntry.attribute a.1 a.2).findSome?
      (·.jsonPath?) = none := by
    rw [List.findSome?_map]
    exact List.findSome?_eq_none_iff.2 fun _ _ => rfl
  rw [entries, List.findSome?_append, List.findSome?_append, hattributes]
  cases e.jsonPath <;> cases e.ignore <;> rfl

theorem attributes_entries (e : Endpoint) :
    e.entries.filterMap (·.attribute?) = e.attributes := by
  have hattributes : (e.attributes.map fun a => WithEntry.attribute a.1 a.2).filterMap
      (·.attribute?) = e.attributes := by
    rw [List.filterMap_map]
    exact List.filterMap_some
  rw [entries, List.filterMap_append, List.filterMap_append, hattributes]
  cases e.jsonPath <;> cases e.ignore <;> exact List.append_nil _

theorem contains_ignore_entries (e : Endpoint) : e.entries.contains .ignore = e.ignore := by
  unfold entries
  cases e.jsonPath <;> cases e.ignore <;> simp

/-- The declaration of a printed endpoint declares that endpoint. -/
theorem ofDecl_eq {d : EndpointDecl} (he : e.WellFormed) (hheader : d.header = e.header)
    (hd : d.blocks.map Located.value = e.blocks.map Block.marked) : ofDecl d = e := by
  have hentries : d.entries = e.entries := by
    rw [EndpointDecl.entries, first?_eq _ hd]
    rfl
  have hdescription : d.first? Block.description? = e.description := by
    rw [first?_eq _ hd, blocks]
    cases e.description <;> cases e.returns <;> rfl
  have hreturns : d.first? Block.returns? = e.returns := by
    rw [first?_eq _ hd, blocks]
    cases e.description <;> cases e.returns <;> rfl
  have hparams : d.first? Block.params? = some (e.params.map Param.marked) := by
    rw [first?_eq _ hd, blocks]
    cases e.description <;> cases e.returns <;> rfl
  have hmarks : (e.params.map Param.marked).map (·.withoutMarks) = e.params := by
    rw [List.map_map]
    exact List.map_id'' Param.withoutMarks_marked _
  unfold ofDecl
  simp only [hheader, header, hentries, hdescription, hreturns, hparams, jsonPath_entries,
    attributes_entries, contains_ignore_entries, Option.getD_some, hmarks, method_target,
    he.url?_target]

end Endpoint

end ApiStubs
