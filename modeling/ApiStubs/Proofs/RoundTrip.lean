-- SUMMARY: A well-formed template is read back from its printed form.
import ApiStubs.Proofs.Printed.Endpoint

/-!
# Reading printed templates

A printed template is a list of parts, one after the other: its namespace, its
description and its endpoints. Reading the text gives an element for each part
and no other element, so the elements declare the template that was printed.
-/

namespace ApiStubs

open Source Text

-- ---------------------------------------------------------------------------
-- Directives
-- ---------------------------------------------------------------------------

theorem length_trimRight_le (s : List Char) : (trimRight s).length ≤ s.length := by
  unfold trimRight
  rw [List.length_reverse]
  exact Nat.le_trans (List.dropWhile_sublist _).length_le (Nat.le_of_eq List.length_reverse)

/-- A text that trimming leaves alone begins with no blank. -/
theorem startsOutside_of_trimmed {s : String} (hs : trimmed s = s) : StartsOutside isBlank s := by
  have htrim : trim s.toList = s.toList := by rw [← toList_trimmed, hs]
  intro x hx
  cases hcs : s.toList with
  | nil => rw [hcs] at hx; cases hx
  | cons y ys =>
    rw [hcs, List.head?_cons, Option.mem_some_iff] at hx
    subst hx
    cases hblank : isBlank y with
    | false => rfl
    | true =>
      have hdrop : trimLeft (y :: ys) = trimLeft ys := List.dropWhile_cons_of_pos hblank
      have hle : (trim (y :: ys)).length ≤ ys.length := by
        rw [trim, hdrop]
        exact Nat.le_trans (length_trimRight_le _) (List.dropWhile_sublist _).length_le
      rw [← hcs, htrim, hcs, List.length_cons] at hle
      exact absurd hle (Nat.not_succ_le_self _)

theorem isBlank_of_isInlineSpace {x : Char} (h : isInlineSpace x = true) : isBlank x = true := by
  simp only [isInlineSpace, Bool.or_eq_true, beq_iff_eq] at h
  rcases h with rfl | rfl <;> decide

theorem DirectiveValue.startsOutside {s : String} (hs : DirectiveValue s) :
    StartsOutside isInlineSpace s := by
  intro x hx
  have hblank := startsOutside_of_trimmed hs.2 x hx
  cases h : isInlineSpace x with
  | false => rfl
  | true => rw [isBlank_of_isInlineSpace h] at hblank; cases hblank

theorem directive_of_spans {tag value : String} (hvalue : DirectiveValue value) {c d : Cursor}
    (h : c.Spans (tag.toList ++ ([' '] ++ value.toList)) d) (hd : d.rest.head? = some '\n') :
    directive tag c = .ok (some (value, d)) := by
  obtain ⟨a, htag, h⟩ := Cursor.spans_append_iff.1 h
  obtain ⟨b, hspace, hline⟩ := Cursor.spans_append_iff.1 h
  have hskip : a.skipInlineSpace = b := skipInlineSpace_of_spans hvalue.startsOutside hspace hline hd
  have hoffset : b.offset ≠ a.offset := Nat.ne_of_gt (hspace.precedes (by simp)).offset_lt
  have hrun := run_line_of_spans hvalue.1 hline hd
  simp [directive, Cursor.eat?_eq_some_iff.2 htag, hskip, hoffset, hrun.line_eq, hrun.lineEnd_eq]

/-- A directive word after the `#` makes it no comment. -/
theorem startsNoise_directive {tag : String} (word : String) (htag : tag.toList = '#' :: word.toList)
    (hword : word ∈ directiveWords) (s : List Char) : startsNoise (tag.toList ++ s) = false := by
  have hany : directiveWords.any (fun w => w.toList.isPrefixOf (word.toList ++ s)) = true :=
    List.any_eq_true.2 ⟨word, hword, List.isPrefixOf_iff_prefix.2 (List.prefix_append _ _)⟩
  have hcomment : comment? ('#' :: (word.toList ++ s)) = none := by
    rw [comment?, if_pos hany]
  have hspace : isSpace '#' = false := rfl
  rw [htag, List.cons_append]
  simp only [startsNoise, unit?, hspace, Bool.false_eq_true, if_false, hcomment,
    Option.isSome_none]

theorem directive_eq_none {tag : String} {c : Cursor} (h : c.eat? tag = none) :
    directive tag c = .ok none := by
  simp [directive, h]

-- ---------------------------------------------------------------------------
-- Parts
-- ---------------------------------------------------------------------------

namespace Template

/-- A part of a printed template. -/
inductive Part where
  | nameSpace (name : String)
  | description (text : String)
  | endpoint (e : Endpoint)

namespace Part

/-- The text of the part, without the line feed after it. -/
def text : Part → List Char
  | .nameSpace name => "#namespace".toList ++ ([' '] ++ name.toList)
  | .description text => "#description".toList ++ ([' '] ++ text.toList)
  | .endpoint e => e.text

def Legible : Part → Prop
  | .nameSpace name => DirectiveValue name
  | .description text => DirectiveValue text
  | .endpoint e => e.WellFormed

def nameSpace? : Part → Option String
  | .nameSpace name => some name
  | _ => none

def description? : Part → Option String
  | .description text => some text
  | _ => none

def endpoint? : Part → Option Endpoint
  | .endpoint e => some e
  | _ => none

/-- The part that an item declares. -/
def ofItem? : Item → Option Part
  | .namespaceLine name => some (.nameSpace name)
  | .descriptionLine text => some (.description text)
  | .raw _ => none
  | .endpoint decl => some (.endpoint (.ofDecl decl))

/-- No noise begins where a part begins. -/
theorem startsNoise_text (p : Part) (s : List Char) : startsNoise (p.text ++ s) = false := by
  cases p with
  | nameSpace name =>
    unfold text
    rw [List.append_assoc]
    exact startsNoise_directive "namespace" rfl (by decide) _
  | description text =>
    unfold Part.text
    rw [List.append_assoc]
    exact startsNoise_directive "description" rfl (by decide) _
  | endpoint e =>
    exact Cursor.startsNoise_of_head (x := 'e') rfl rfl

theorem exists_head_text (p : Part) : ∃ x, p.text.head? = some x := by
  cases p with
  | nameSpace name => exact ⟨'#', rfl⟩
  | description text => exact ⟨'#', rfl⟩
  | endpoint e => exact ⟨'e', rfl⟩

/-- A printed part is read as an element that declares it. -/
theorem element_of_spans {p : Part} (hp : p.Legible) {c d : Cursor} (h : c.Spans p.text d)
    (hd : d.rest.head? = some '\n') :
    ∃ v, element c = .ok (some (v, d)) ∧ ofItem? v.value = some p := by
  unfold element Rule.located Rule.orElse namespaceLine descriptionLine Rule.map
  cases p with
  | nameSpace name =>
    refine ⟨⟨c.offset, .namespaceLine name⟩, ?_, rfl⟩
    simp only [directive_of_spans hp h hd]
  | description text =>
    refine ⟨⟨c.offset, .descriptionLine text⟩, ?_, rfl⟩
    -- The two tags differ after the first character.
    have hsecond : c.rest[1]? = some 'd' := by
      rw [h.rest_eq]
      rfl
    have hnone : c.eat? "#namespace" = none :=
      Cursor.eat?_eq_none_of_getElem? rfl hsecond (by decide)
    simp only [directive_eq_none hnone, directive_of_spans hp h hd]
  | endpoint e =>
    obtain ⟨bs, hread, hbs⟩ := Endpoint.endpoint_of_spans hp h
    have hhead : c.rest.head? = some 'e' := by
      rw [h.rest_eq]
      rfl
    refine ⟨⟨c.offset, .endpoint ⟨e.header, bs⟩⟩, ?_, ?_⟩
    · have hnameSpace : c.eat? "#namespace" = none :=
        Cursor.eat?_eq_none_of_head rfl hhead (by decide)
      have hdescription : c.eat? "#description" = none :=
        Cursor.eat?_eq_none_of_head rfl hhead (by decide)
      have hraw : c.eat? "#raw" = none := Cursor.eat?_eq_none_of_head rfl hhead (by decide)
      simp only [directive_eq_none hnameSpace, directive_eq_none hdescription, rawBlock, hraw,
        hread]
    · exact congrArg (some ∘ Part.endpoint) (Endpoint.ofDecl_eq hp rfl hbs)

theorem elements_cons {c d : Cursor} {x : Char} {v : Element} {es : List Element}
    (hhead : c.rest.head? = some x) (hread : element c = .ok (some (v, d)))
    (hrest : elements d.skipNoise = .ok es) : elements c = .ok (v :: es) := by
  unfold elements
  simp only [atEnd_of_head hhead, Bool.false_eq_true, if_false]
  split
  · next heq => rw [hread] at heq; cases heq
  · next heq => rw [hread] at heq; cases heq
  · next heq =>
    rw [hread] at heq
    cases heq
    rw [hrest]

/-- No noise begins where the next part or the end of the text comes. -/
theorem startsNoise_of_parts {ps : List Part} {c d : Cursor}
    (h : c.Spans (ps.flatMap fun p => p.text ++ ['\n']) d) (hd : d.rest = []) :
    startsNoise c.rest = false := by
  rw [h.rest_eq, hd, List.append_nil]
  cases ps with
  | nil => rfl
  | cons p ps =>
    rw [List.flatMap_cons, List.append_assoc]
    exact p.startsNoise_text _

/-- The whole of a printed text is read, part by part. -/
theorem elements_of_spans {ps : List Part} (hps : ∀ p ∈ ps, p.Legible) {c d : Cursor}
    (h : c.Spans (ps.flatMap fun p => p.text ++ ['\n']) d) (hd : d.rest = []) :
    ∃ es, elements c = .ok es ∧ es.map (fun e => ofItem? e.value) = ps.map some := by
  induction ps generalizing c with
  | nil =>
    rw [List.flatMap_nil, Cursor.spans_nil_iff] at h
    subst h
    refine ⟨[], ?_, rfl⟩
    unfold elements
    simp [Cursor.atEnd, hd]
  | cons p ps ih =>
    rw [List.flatMap_cons] at h
    obtain ⟨b, h, hrest⟩ := Cursor.spans_append_iff.1 h
    obtain ⟨a, hpart, hfeed⟩ := Cursor.spans_append_iff.1 h
    obtain ⟨v, hread, hv⟩ := element_of_spans (hps p (List.mem_cons_self ..)) hpart
      (hfeed.head?_eq rfl)
    obtain ⟨es, hes, hparts⟩ := ih (fun q hq => hps q (List.mem_cons_of_mem _ hq)) hrest
    have hskip : a.skipNoise = b :=
      Cursor.skipNoise_of_space hfeed rfl (startsNoise_of_parts hrest hd)
    obtain ⟨x, hx⟩ := p.exists_head_text
    refine ⟨v :: es, elements_cons (hpart.head?_eq hx) hread (hskip ▸ hes), ?_⟩
    rw [List.map_cons, List.map_cons, hv, hparts]

end Part

-- ---------------------------------------------------------------------------
-- Templates
-- ---------------------------------------------------------------------------

/-- The parts that are printed. -/
def parts (t : Template) : List Part :=
  .nameSpace t.nameSpace :: (t.description.toList.map .description ++ t.endpoints.map .endpoint)

theorem toList_print (t : Template) :
    t.print.toList = t.parts.flatMap fun p => p.text ++ ['\n'] := by
  have hnameSpace : s!"#namespace {t.nameSpace}\n".toList =
      (Part.nameSpace t.nameSpace).text ++ ['\n'] := by
    simp only [toString, String.toList_append, List.append_assoc]
    rfl
  have hdescription : (printDescription t.description).toList =
      t.description.toList.flatMap fun text => (Part.description text).text ++ ['\n'] := by
    cases t.description with
    | none => rfl
    | some text =>
      unfold printDescription
      simp only [toString, String.toList_append, Option.toList_some, List.flatMap_cons,
        List.flatMap_nil, List.append_assoc, List.append_nil]
      rfl
  have hendpoints : (String.join (t.endpoints.map Endpoint.print)).toList =
      t.endpoints.flatMap fun e => (Part.endpoint e).text ++ ['\n'] := by
    rw [String.toList_join, List.flatMap_map]
    simp only [Endpoint.toList_print]
    rfl
  unfold print parts
  simp only [String.toList_append, hnameSpace, hdescription, hendpoints,
    List.flatMap_cons, List.flatMap_append, List.flatMap_map, List.append_assoc]

theorem WellFormed.parts_legible {t : Template} (ht : t.WellFormed) : ∀ p ∈ t.parts, p.Legible := by
  intro p hp
  simp only [parts, List.mem_cons, List.mem_append, List.mem_map, Option.mem_toList] at hp
  rcases hp with rfl | ⟨text, htext, rfl⟩ | ⟨e, he, rfl⟩
  · exact ht.nameSpace
  · exact ht.description text htext
  · exact ht.endpoints e he

section Elements

variable {es : List Element} {ps : List Part}

/-- What is seen of the elements is what is seen of the parts they declare. -/
theorem filterMap_value {α : Type} {view : Item → Option α} {view' : Part → Option α}
    (hview : ∀ i p, Part.ofItem? i = some p → view i = view' p)
    (hes : es.map (fun e => Part.ofItem? e.value) = ps.map some) :
    es.filterMap (fun e => view e.value) = ps.filterMap view' := by
  induction es generalizing ps with
  | nil =>
    cases ps with
    | nil => rfl
    | cons p ps => cases hes
  | cons e es ih =>
    cases ps with
    | nil => cases hes
    | cons p ps =>
      rw [List.map_cons, List.map_cons, List.cons.injEq] at hes
      rw [List.filterMap_cons, List.filterMap_cons, hview _ _ hes.1, ih hes.2]

theorem namespaces_eq {t : Template}
    (hes : es.map (fun e => Part.ofItem? e.value) = t.parts.map some) :
    ∃ offset, namespaces es = [⟨offset, t.nameSpace⟩] := by
  have hview : ∀ i p, Part.ofItem? i = some p → i.namespace? = p.nameSpace? := by
    intro i p h
    cases i <;> cases h <;> rfl
  have hvalues : (namespaces es).map Located.value = [t.nameSpace] := by
    calc (namespaces es).map Located.value
        = es.filterMap (fun e => e.value.namespace?) := by
          rw [namespaces, List.map_filterMap]
          simp only [Option.map_map, Function.comp_def, Option.map_id']
      _ = t.parts.filterMap Part.nameSpace? := filterMap_value hview hes
      _ = [t.nameSpace] := by
          simp [parts, Part.nameSpace?, List.filterMap_map, Function.comp_def]
  obtain ⟨⟨offset, name⟩, hone, hname⟩ := List.map_eq_singleton_iff.1 hvalues
  exact ⟨offset, by rw [hone, ← hname]⟩

theorem findSome?_description {t : Template}
    (hes : es.map (fun e => Part.ofItem? e.value) = t.parts.map some) :
    es.findSome? (fun e => e.value.description?) = t.description := by
  have hview : ∀ i p, Part.ofItem? i = some p → i.description? = p.description? := by
    intro i p h
    cases i <;> cases h <;> rfl
  have hendpoints : (t.endpoints.map Part.endpoint).filterMap Part.description? = [] := by
    simp [Part.description?]
  rw [← List.head?_filterMap, filterMap_value hview hes, parts, List.filterMap_cons_none rfl,
    List.filterMap_append, hendpoints, List.append_nil]
  cases t.description <;> rfl

theorem map_ofDecl {t : Template}
    (hes : es.map (fun e => Part.ofItem? e.value) = t.parts.map some) :
    (es.filterMap (fun e => e.value.endpoint?)).map Endpoint.ofDecl = t.endpoints := by
  have hview : ∀ i p, Part.ofItem? i = some p → i.endpoint?.map Endpoint.ofDecl = p.endpoint? := by
    intro i p h
    cases i <;> cases h <;> rfl
  have hdescription : (t.description.toList.map Part.description).filterMap Part.endpoint? = [] := by
    simp [Part.endpoint?]
  rw [List.map_filterMap, filterMap_value hview hes, parts, List.filterMap_cons_none rfl,
    List.filterMap_append, hdescription, List.nil_append, List.filterMap_map]
  exact List.filterMap_some

end Elements

/-- A well-formed template is read back from its printed form. -/
theorem parse_print {t : Template} (ht : t.WellFormed) : parse t.print = .ok t := by
  have hspans : (Cursor.start t.print.toList).Spans (t.parts.flatMap fun p => p.text ++ ['\n'])
      ((Cursor.start t.print.toList).drop t.print.toList.length) := by
    rw [← t.toList_print]
    exact ⟨by simp [Cursor.start], rfl⟩
  have hend : ((Cursor.start t.print.toList).drop t.print.toList.length).rest = [] := by
    simp [Cursor.start]
  obtain ⟨es, hes, hparts⟩ := Part.elements_of_spans ht.parts_legible hspans hend
  have hnoise := Part.startsNoise_of_parts hspans hend
  have hread : Source.read t.print = .ok es := by
    rw [Source.read, Source.parse, Cursor.skipNoise_eq_self hnoise, hes]
    rfl
  obtain ⟨offset, hnameSpace⟩ := namespaces_eq hparts
  have hdescription : t.description.map trimmed = t.description := by
    cases h : t.description with
    | none => rfl
    | some text => rw [Option.map_some, (ht.description text h).2]
  simp only [parse, hread, ofElements, hnameSpace, ht.nameSpace.2, findSome?_description hparts,
    hdescription, map_ofDecl hparts]

/-- A template with a bare `either` before another line, a guard, empty blocks, a
    URL with a scheme and texts that look like comments. -/
def orders : Template where
  nameSpace := "Shop.Orders"
  description := some "Orders // of a shop"
  endpoints := [
    { returnType := "List<Order>", name := "Find", url := some "https://shop/\x7bid\x7d?next=http://a"
      jsonPath := some " $.orders // all", attributes := [("Cache", "60 # s"), ("", "")]
      ignore := true, description := some "Finds\n/* orders", returns := some ""
      params := [
        { kind := .either },
        { kind := .required, pairs := [⟨"int", "either"⟩] },
        { kind := .optional, pairs := [⟨"string", "from"⟩, ⟨"date", ""⟩]
          guard := some "id > 0 // when" },
        { kind := .either, pairs := [⟨"Key[]", "key"⟩], group := 120 }] },
    { name := "Reset", method := .impl },
    { returnType := "Order", name := "Put_2", method := .post, url := some "/orders*/" }]

theorem parse_print_orders : orders.WellFormed ∧ parse orders.print = .ok orders := by
  have hwell : orders.WellFormed := by decide +kernel
  exact ⟨hwell, parse_print hwell⟩

end Template

end ApiStubs
