-- SUMMARY: A file means the same with either kind of line end, up to the calls generated from it.
import ApiStubs.Proofs.Copy.Rules
import ApiStubs.Proofs.Declared
import ApiStubs.Stub.Basic
import Mathlib.Data.List.Induction

/-!
# Line ends do not matter

A copy of a file with carriage returns before its line feeds is read as the file
is. The same lines and columns are reported, because both count only line feeds
and what follows the last of them. The template is the same up to line ends in the
texts that may run over several lines.

Of these texts, generated code has only the lines. They are the same in the copy
if the file itself has no carriage returns: with one before a line feed, the copy
would have a line end more.
-/

namespace ApiStubs

open Source Text

-- ---------------------------------------------------------------------------
-- Positions
-- ---------------------------------------------------------------------------

namespace Text.LineEnd

variable {e : LineEnd} {s : List Char}

@[simp] theorem toList_writeString (e : LineEnd) (s : String) :
    (e.writeString s).toList = e.write s.toList :=
  String.toList_ofList

theorem write_concat_of_ne {c : Char} (hc : c ≠ '\n') : e.write (s ++ [c]) = e.write s ++ [c] := by
  rw [write_append, write_cons_of_ne hc, write_nil]

theorem after_write (e : LineEnd) (s : List Char) :
    Position.after (e.write s) = Position.after s := by
  induction s using List.reverseRecOn with
  | nil => rfl
  | append_singleton s c ih =>
    by_cases hc : c = '\n'
    · subst hc
      rw [Position.after_concat_feed, write_append, ← ih]
      cases e with
      | feed => exact Position.after_concat_feed _
      | returnFeed =>
        -- The carriage return moves the column, and the line feed sets it back.
        change Position.after (write .returnFeed s ++ '\r' :: ['\n']) = _
        rw [List.append_cons, Position.after_concat_feed, Position.after_concat_of_ne (by decide)]
    · rw [write_concat_of_ne hc, Position.after_concat_of_ne hc, Position.after_concat_of_ne hc, ih]

end Text.LineEnd

namespace Text.Copy

/-- The copy that stands alone. -/
def alone (text : List Char) (e : LineEnd) : Copy := ⟨text, e, 0⟩

variable {text : List Char} {e : LineEnd}

theorem take_offset_alone (text : List Char) (e : LineEnd) (n : Nat) :
    (e.write text).take ((alone text e).offset n) = e.write (text.take n) := by
  have hoffset : (alone text e).offset n = n + e.growth * (text.take n).count '\n' := by
    simp [offset, alone]
  rcases Nat.le_total n text.length with hn | hn
  · have hlen : (alone text e).offset n = (e.write (text.take n)).length := by
      rw [hoffset, LineEnd.length_write, List.length_take, Nat.min_eq_left hn]
    rw [hlen]
    conv => lhs; arg 2; rw [← List.take_append_drop n text]
    rw [LineEnd.write_append, List.take_left]
  · have hlen := LineEnd.length_write e text
    rw [List.take_of_length_le hn] at hoffset ⊢
    exact List.take_of_length_le (by omega)

/-- Line and column do not depend on the kind of line end. -/
theorem ofOffset_alone (text : List Char) (e : LineEnd) (n : Nat) :
    Position.ofOffset (e.write text) ((alone text e).offset n) = Position.ofOffset text n := by
  rw [Position.ofOffset, Position.ofOffset, Int.toNat_natCast, Int.toNat_natCast,
    take_offset_alone, LineEnd.after_write]

theorem locate_alone (text : List Char) (e : LineEnd) (f : Fault) :
    ((alone text e).fault f).locate (e.write text) = f.locate text := by
  cases f with
  | malformed cause offset =>
    rw [fault, Fault.locate, Fault.locate, ofOffset_alone]
  | indexTooLong digits => rfl

end Text.Copy

theorem Source.parse_write (e : LineEnd) (text : List Char) :
    parse (e.write text) =
      ((parse text).map
        (List.map (Element.transfer (Copy.alone text e).offset e.writeString))).mapError
        (Copy.alone text e).fault := by
  have hstart : (Cursor.start text).In (Copy.alone text e).text :=
    ⟨by simp [Cursor.start, Copy.alone], Nat.zero_le _⟩
  have hplace : Cursor.start (e.write text) = (Copy.alone text e).place (Cursor.start text) := by
    simp [Cursor.start, Copy.place, Copy.alone, Copy.offset]
  rw [parse, parse, hplace, Copy.skipNoise_place hstart,
    elements_place (hstart.of_reaches (Cursor.skipNoise_reaches _))]
  rfl

/-- A copy is read as its text, and refused with the same fault at the same line and
    column. -/
theorem Source.read_writeString (e : LineEnd) (text : String) :
    Source.read (e.writeString text) =
      (Source.read text).map
        (List.map (Element.transfer (Copy.alone text.toList e).offset e.writeString)) := by
  rw [Source.read, Source.read, LineEnd.toList_writeString, parse_write]
  cases parse text.toList with
  | ok elements => rfl
  | error fault => exact congrArg Except.error (Copy.locate_alone text.toList e fault)

-- ---------------------------------------------------------------------------
-- Templates
-- ---------------------------------------------------------------------------

/-- The endpoint with `g` applied to every text that may run over several lines. -/
def Endpoint.mapTexts (g : String → String) (e : Endpoint) : Endpoint :=
  { e with
    attributes := e.attributes.map (Prod.map g id)
    description := e.description.map g
    returns := e.returns.map g }

/-- The template with `g` applied to every text that may run over several lines. -/
def Template.mapTexts (g : String → String) (t : Template) : Template :=
  { t with endpoints := t.endpoints.map (·.mapTexts g) }

section Transfer

variable {offset : Nat → Nat} {g : String → String}

namespace Source.EndpointDecl

/-- A view that goes along with `mapText` sees the same block first. -/
theorem first?_transfer {α : Type} {view : Block → Option α} {k : α → α}
    (hview : ∀ b : Block, view (b.mapText g) = (view b).map k) (d : EndpointDecl) :
    (d.transfer offset g).first? view = (d.first? view).map k := by
  unfold first? EndpointDecl.transfer
  dsimp only
  rw [List.findSome?_map, List.map_findSome?]
  congr 1
  funext b
  exact hview b.value

theorem entries_transfer (d : EndpointDecl) :
    (d.transfer offset g).entries = d.entries.map (·.mapText g) := by
  have hview (b : Block) : (b.mapText g).withEntries? =
      b.withEntries?.map (List.map (·.mapText g)) := by
    cases b <;> rfl
  unfold entries
  rw [first?_transfer hview]
  cases d.first? Block.withEntries? <;> rfl

end Source.EndpointDecl

theorem Source.WithEntry.contains_ignore_map (list : List WithEntry) :
    (list.map (·.mapText g)).contains .ignore = list.contains .ignore := by
  have hignore (w : WithEntry) : (.ignore == w.mapText g) = (.ignore == w) := by
    cases w <;> rfl
  simp only [List.contains_eq_any_beq, List.any_map, Function.comp_def, hignore]

theorem Endpoint.ofDecl_transfer (d : EndpointDecl) :
    Endpoint.ofDecl (d.transfer offset g) = (Endpoint.ofDecl d).mapTexts g := by
  have hjson (w : WithEntry) : (w.mapText g).jsonPath? = w.jsonPath? := by
    cases w <;> rfl
  have hattribute (w : WithEntry) :
      (w.mapText g).attribute? = w.attribute?.map (Prod.map g id) := by
    cases w <;> rfl
  have hparams (b : Block) : (b.mapText g).params? = b.params?.map id := by
    cases b <;> rfl
  have hdescription (b : Block) : (b.mapText g).description? = b.description?.map g := by
    cases b <;> rfl
  have hreturns (b : Block) : (b.mapText g).returns? = b.returns?.map g := by
    cases b <;> rfl
  simp only [ofDecl, mapTexts, EndpointDecl.entries_transfer, EndpointDecl.first?_transfer hparams,
    EndpointDecl.first?_transfer hdescription, EndpointDecl.first?_transfer hreturns,
    List.findSome?_map, List.filterMap_map, List.map_filterMap, Function.comp_def, hjson, hattribute,
    WithEntry.contains_ignore_map, Option.map_id_fun, id_eq]
  rfl

theorem Source.namespaces_transfer (elements : List Element) :
    namespaces (elements.map (Element.transfer offset g)) =
      (namespaces elements).map (Located.transfer offset id) := by
  simp only [namespaces, List.filterMap_map, List.map_filterMap]
  congr 1
  funext e
  obtain ⟨n, item⟩ := e
  cases item <;> rfl

theorem Source.findSome?_description_transfer (elements : List Element) :
    (elements.map (Element.transfer offset g)).findSome? (·.value.description?) =
      elements.findSome? (·.value.description?) := by
  rw [List.findSome?_map]
  congr 1
  funext e
  obtain ⟨n, item⟩ := e
  cases item <;> rfl

theorem Source.filterMap_endpoint_transfer (elements : List Element) :
    ((elements.map (Element.transfer offset g)).filterMap (·.value.endpoint?)).map .ofDecl =
      ((elements.filterMap (·.value.endpoint?)).map .ofDecl).map (Endpoint.mapTexts g) := by
  simp only [List.filterMap_map, List.map_filterMap]
  congr 1
  funext e
  obtain ⟨n, item⟩ := e
  cases item with
  | endpoint decl => exact congrArg some (Endpoint.ofDecl_transfer decl)
  | _ => rfl

end Transfer

theorem Template.ofElements_write (e : LineEnd) (text : List Char) (elements : List Element) :
    ofElements (e.write text)
        (elements.map (Element.transfer (Copy.alone text e).offset e.writeString)) =
      (ofElements text elements).map (mapTexts e.writeString) := by
  unfold ofElements
  rw [namespaces_transfer]
  rcases namespaces elements with _ | ⟨first, _ | ⟨second, more⟩⟩
  · rfl
  · simp only [List.map_cons, List.map_nil, findSome?_description_transfer,
      filterMap_endpoint_transfer]
    rfl
  · simp only [List.map_cons, Located.transfer, Copy.ofOffset_alone]
    rfl

/-- The template of a copy is that of the text, with the line ends of the copy in the
    texts that may run over several lines. -/
theorem Template.parse_writeString (e : LineEnd) (text : String) :
    Template.parse (e.writeString text) = (Template.parse text).map (mapTexts e.writeString) := by
  rw [parse, parse, read_writeString, LineEnd.toList_writeString]
  cases read text with
  | error fault => rfl
  | ok elements => exact ofElements_write e text.toList elements

-- ---------------------------------------------------------------------------
-- Documentation
-- ---------------------------------------------------------------------------

namespace Text.LineEnd

variable {e : LineEnd} {s : List Char}

theorem trimLeft_write (e : LineEnd) (s : List Char) :
    trimLeft (e.write s) = e.write (trimLeft s) := by
  unfold trimLeft
  induction s with
  | nil => rfl
  | cons c cs ih =>
    by_cases hc : c = '\n'
    · subst hc
      have hchars : (e.chars ++ e.write cs).dropWhile isBlank = (e.write cs).dropWhile isBlank := by
        cases e <;> rfl
      rw [write_cons_feed, hchars, ih]
      rfl
    · rw [write_cons_of_ne hc, List.dropWhile_cons, List.dropWhile_cons, ih]
      split
      · rfl
      · rw [write_cons_of_ne hc]

theorem trimRight_write (e : LineEnd) (s : List Char) :
    trimRight (e.write s) = e.write (trimRight s) := by
  induction s using List.reverseRecOn with
  | nil => rfl
  | append_singleton s c ih =>
    by_cases hc : c = '\n'
    · subst hc
      have hchars (t : List Char) : trimRight (t ++ e.chars) = trimRight t := by
        cases e with
        | feed => exact trimRight_concat t '\n'
        | returnFeed =>
          have hsplit : t ++ LineEnd.returnFeed.chars = (t ++ ['\r']) ++ ['\n'] := by
            simp [chars]
          rw [hsplit, trimRight_concat, if_pos (by decide), trimRight_concat, if_pos (by decide)]
      rw [write_append, write_cons_feed, write_nil, List.append_nil, hchars, ih, trimRight_concat,
        if_pos (by decide)]
    · rw [write_concat_of_ne hc, trimRight_concat, trimRight_concat, ih]
      split
      · rfl
      · rw [write_concat_of_ne hc]

theorem trim_write (e : LineEnd) (s : List Char) : trim (e.write s) = e.write (trim s) := by
  rw [trim, trim, trimLeft_write, trimRight_write]

theorem lines_cons_of_ne {c : Char} (hc : c ≠ '\r') (cs : List Char) :
    lines (c :: cs) =
      if isLineBreak c then [] :: lines cs
      else match lines cs with
        | [] => [[c]]
        | l :: ls => (c :: l) :: ls := by
  conv => lhs; unfold lines
  split
  · next heq => cases heq
  · next heq => cases heq; exact absurd rfl hc
  · next heq => cases heq; rfl

/-- A text without carriage returns has the same lines in every copy. -/
theorem lines_write (h : '\r' ∉ s) : lines (e.write s) = lines s := by
  induction s with
  | nil => rfl
  | cons c cs ih =>
    obtain ⟨hc, hcs⟩ := not_or.1 (mt List.mem_cons.2 h)
    by_cases hfeed : c = '\n'
    · subst hfeed
      have hchars (t : List Char) : lines (e.chars ++ t) = [] :: lines t := by
        cases e with
        | feed => exact lines_cons_of_ne (by decide) t
        | returnFeed => rfl
      rw [write_cons_feed, hchars, ih hcs, lines_cons_of_ne (by decide)]
      rfl
    · rw [write_cons_of_ne hfeed, lines_cons_of_ne (Ne.symm hc), lines_cons_of_ne (Ne.symm hc),
        ih hcs]

end Text.LineEnd

/-- The texts of the endpoint that are documented do not contain the character. -/
def Endpoint.DocFree (c : Char) (e : Endpoint) : Prop :=
  (∀ s ∈ e.description, c ∉ s.toList) ∧ ∀ s ∈ e.returns, c ∉ s.toList

theorem Stub.docLines_writeString (e : LineEnd) {text : Option String}
    (h : ∀ s ∈ text, '\r' ∉ s.toList) : docLines (text.map e.writeString) = docLines text := by
  cases text with
  | none => rfl
  | some s =>
    have htrim : '\r' ∉ trim s.toList := fun hr => h s rfl (trim_subset _ hr)
    simp only [docLines, Option.map_some, Option.getD_some, LineEnd.toList_writeString,
      LineEnd.trim_write, LineEnd.lines_write htrim]

-- ---------------------------------------------------------------------------
-- Sections
-- ---------------------------------------------------------------------------

namespace Endpoint

section Fields

variable (g : String → String) (p : Endpoint)

@[simp] theorem mapTexts_returnType : (p.mapTexts g).returnType = p.returnType := rfl

@[simp] theorem mapTexts_name : (p.mapTexts g).name = p.name := rfl

@[simp] theorem mapTexts_url : (p.mapTexts g).url = p.url := rfl

@[simp] theorem mapTexts_ignore : (p.mapTexts g).ignore = p.ignore := rfl

@[simp] theorem mapTexts_params : (p.mapTexts g).params = p.params := rfl

end Fields

theorem hasAttribute_mapTexts (e : LineEnd) {name : String} (hname : WithinLine name.toList)
    (p : Endpoint) : (p.mapTexts e.writeString).hasAttribute name = p.hasAttribute name := by
  have hbeq (s : String) : (e.writeString s == name) = (s == name) := by
    rw [Bool.eq_iff_iff, beq_iff_eq, beq_iff_eq, LineEnd.writeString_eq_iff hname]
  simp only [hasAttribute, mapTexts, List.any_map, Function.comp_def, Prod.map, hbeq]

/-- The same endpoints are dropped, with the same reports, and the others have the same
    calls. -/
theorem resolve_mapTexts (settings : Settings) (nameSpace : String) (e : LineEnd) {p : Endpoint}
    (hp : p.DocFree '\r') :
    Option.map (Stub.Call.ofResolved settings) <$> (p.mapTexts e.writeString).resolve nameSpace =
      Option.map (Stub.Call.ofResolved settings) <$> p.resolve nameSpace := by
  have hcall (type : String) (required optional : List ResolvedParam) :
      Stub.Call.ofResolved settings
          ((p.mapTexts e.writeString).assemble nameSpace type required optional) =
        Stub.Call.ofResolved settings (p.assemble nameSpace type required optional) := by
    simp only [Stub.Call.ofResolved, assemble, mapTexts, Stub.documentation,
      Stub.docLines_writeString e hp.1, Stub.docLines_writeString e hp.2]
    rfl
  unfold resolve
  rw [hasAttribute_mapTexts e (by decide), mapTexts_ignore, mapTexts_name, mapTexts_returnType,
    mapTexts_params, mapTexts_url]
  by_cases hignore : p.ignore = true
  · rw [if_pos hignore, if_pos hignore]
  rw [if_neg hignore, if_neg hignore]
  by_cases hobsolete : p.hasAttribute "Obsolete" = true
  · rw [if_pos hobsolete, if_pos hobsolete]
  rw [if_neg hobsolete, if_neg hobsolete]
  cases Typing.returnType p.returnType p.name with
  | error type => rfl
  | ok type =>
    simp only [map_bind]
    congr 1
    funext buckets
    generalize withReserved (placeholder? p.url) buckets.allRequired buckets.allOptional = both
    cases resolveParams both.1 both.2 with
    | error type => rfl
    | ok resolved =>
      simp only [map_bind, map_pure, Option.map_some, hcall]
      rfl

end Endpoint

namespace Stub

theorem resolveCalls_mapTexts (settings : Settings) (nameSpace : String) (e : LineEnd)
    {ps : List Endpoint} (hps : ∀ p ∈ ps, p.DocFree '\r') :
    resolveCalls settings nameSpace (ps.map (·.mapTexts e.writeString)) =
      resolveCalls settings nameSpace ps := by
  have hcons (p : Endpoint) (ps : List Endpoint) : resolveCalls settings nameSpace (p :: ps) = do
      let call ← Option.map (Call.ofResolved settings) <$> p.resolve nameSpace
      let rest ← resolveCalls settings nameSpace ps
      return call.toList ++ rest := by
    rw [resolveCalls, bind_map_left]
  induction ps with
  | nil => rfl
  | cons p ps ih =>
    obtain ⟨hp, hps⟩ := List.forall_mem_cons.1 hps
    rw [List.map_cons, hcons, hcons, Endpoint.resolve_mapTexts settings nameSpace e hp, ih hps]

theorem Section.build_mapTexts (settings : Settings) (e : LineEnd) {t : Template}
    (ht : ∀ p ∈ t.endpoints, p.DocFree '\r') :
    Section.build settings (t.mapTexts e.writeString) = Section.build settings t := by
  have hcalls := resolveCalls_mapTexts settings t.nameSpace e ht
  unfold Section.build
  rw [Template.mapTexts, hcalls]

end Stub

-- ---------------------------------------------------------------------------
-- Characters of a template
-- ---------------------------------------------------------------------------

namespace Source

theorem spellsTextBlock_subset {name body : String} {c d : Cursor}
    (h : spellsTextBlock name body c d) : body.toList ⊆ c.rest := by
  obtain ⟨a, b, e, hname, -, hopen, hbody, -⟩ := h
  have hreaches := hname.spans.reaches.trans (a.skipNoise_reaches.trans hopen.reaches)
  have hbody : body.toList ⊆ b.rest := by
    rw [hbody.spans.rest_eq]
    exact List.subset_append_left _ _
  exact List.Subset.trans hbody hreaches.suffix.subset

/-- The texts of the blocks of a file are pieces of the file. -/
theorem subset_of_block {text : List Char} {es : List Element} (h : parse text = .ok es)
    {e : Element} (he : e ∈ es) {decl : EndpointDecl} (hdecl : e.value = .endpoint decl)
    {b : Located Block} (hb : b ∈ decl.blocks) {body : String}
    (hbody : b.value = .description body ∨ b.value = .returns body) : body.toList ⊆ text := by
  obtain ⟨a, a', ha, hblock⟩ := exists_block_place h he hdecl hb
  have hsubset : body.toList ⊆ a.rest := by
    rcases hbody with hbody | hbody
    · rw [hbody] at hblock
      exact spellsTextBlock_subset hblock
    · rw [hbody] at hblock
      exact spellsTextBlock_subset hblock
  exact List.Subset.trans hsubset ha.suffix.subset

end Source

/-- The endpoints of a template document nothing but pieces of its file. -/
theorem Template.docFree_of_parse {text : String} {t : Template} {c : Char}
    (h : Template.parse text = .ok t) (hc : c ∉ text.toList) : ∀ p ∈ t.endpoints, p.DocFree c := by
  intro p hp
  obtain ⟨elements, element, decl, hparse, helement, hvalue, rfl⟩ := exists_decl_of_parse h hp
  have hpiece {view : Block → Option String} {s : String} (hs : s ∈ decl.first? view)
      (hview : ∀ b, view b = some s → b = .description s ∨ b = .returns s) : c ∉ s.toList := by
    obtain ⟨b, hb, hsome⟩ := List.exists_of_findSome?_eq_some hs
    exact fun hmem => hc (subset_of_block hparse helement hvalue hb (hview _ hsome) hmem)
  refine ⟨fun s hs => hpiece hs ?_, fun s hs => hpiece hs ?_⟩
  · intro b hb
    cases b <;> cases hb
    exact .inl rfl
  · intro b hb
    cases b <;> cases hb
    exact .inr rfl

-- ---------------------------------------------------------------------------
-- Files with carriage returns
-- ---------------------------------------------------------------------------

/-- A file without carriage returns and its copy that has one before each line feed are
    read alike. Either both are refused, for the same cause at the same line and column,
    or both give a template, and the template of the copy differs only by the line ends in
    the descriptions, the returns texts and the attribute names of its endpoints. What is
    generated from the two templates, and reported on the way, is the same. -/
theorem Template.parse_carriageReturns (text : String) (h : '\r' ∉ text.toList) :
    let copy := LineEnd.returnFeed.writeString
    Template.parse (copy text) = (Template.parse text).map (Template.mapTexts copy) ∧
      ∀ t, Template.parse text = .ok t → ∀ settings : Settings,
        Stub.Section.build settings (t.mapTexts copy) = Stub.Section.build settings t := by
  intro copy
  refine ⟨parse_writeString .returnFeed text, fun t ht settings => ?_⟩
  exact Stub.Section.build_mapTexts settings .returnFeed (docFree_of_parse ht h)

/-- A file with line ends inside a description and an attribute name. -/
def shelfText : String :=
  "#namespace A // a\nendpoint void X:Impl\n\x7b" ++
    "with\x7b[a\nb]=c\n\x7d\ndescription\x7b d\n\te \n\x7d\x7d\n"

def shelf (lineEnd : String) : Template where
  nameSpace := "A // a"
  endpoints := [{
    name := "X"
    method := .impl
    attributes := [("a" ++ lineEnd ++ "b", "c")]
    description := some (" d" ++ lineEnd ++ "\te " ++ lineEnd) }]

theorem Template.parse_carriageReturns_shelf :
    Template.parse shelfText = .ok (shelf "\n") ∧
      Template.parse (LineEnd.returnFeed.writeString shelfText) = .ok (shelf "\r\n") ∧
      ∀ settings : Settings, Stub.Section.build settings (shelf "\r\n") =
        Stub.Section.build settings (shelf "\n") := by
  have hparse : Template.parse shelfText = .ok (shelf "\n") := eq_ok_of_toOption (by decide +kernel)
  have hmap : (shelf "\n").mapTexts LineEnd.returnFeed.writeString = shelf "\r\n" := by
    decide +kernel
  obtain ⟨hcopy, hbuild⟩ := parse_carriageReturns shelfText (by decide)
  refine ⟨hparse, ?_, fun settings => ?_⟩
  · calc Template.parse (LineEnd.returnFeed.writeString shelfText)
        = (Template.parse shelfText).map (mapTexts LineEnd.returnFeed.writeString) := hcopy
      _ = .ok ((shelf "\n").mapTexts LineEnd.returnFeed.writeString) :=
          congrArg (Except.map _) hparse
      _ = .ok (shelf "\r\n") := congrArg Except.ok hmap
  · calc Stub.Section.build settings (shelf "\r\n")
        = Stub.Section.build settings ((shelf "\n").mapTexts LineEnd.returnFeed.writeString) :=
          congrArg _ hmap.symm
      _ = Stub.Section.build settings (shelf "\n") := hbuild _ hparse settings

end ApiStubs
