-- SUMMARY: Where the documentation of a call ends, and what it says.
import ApiStubs.Proofs.Docstrings
import Mathlib.Data.List.Induction

/-!
# Documentation of calls

The documentation of a call is one docstring of several lines. Each line is escaped on its
own and then trimmed, so blanks at its end may have kept a quote from being escaped. What
saves the docstring is that every line is followed by a line feed: quotes that are left over at
the end of a line, at most two, stand before something that is not a quote.

`read_written` is about one line, `read_each` about all of them, and `documentation_closes`
about the text of a method.
-/

namespace ApiStubs.Text

/-- The lines of a text contain no line ends of any kind. -/
theorem isLineBreak_of_mem_lines {s line : List Char} (hline : line ∈ lines s) :
    ∀ c ∈ line, isLineBreak c = false := by
  fun_induction lines s generalizing line with
  | case1 => cases hline
  | case2 cs ih =>
    rcases List.mem_cons.1 hline with rfl | hline
    · simp
    · exact ih hline
  | case3 c cs _ _ ih =>
    rcases List.mem_cons.1 hline with rfl | hline
    · simp
    · exact ih hline
  | case4 c cs _ hbreak => simp_all
  | case5 c cs _ hbreak first others hlines ih =>
    rcases List.mem_cons.1 hline with rfl | hline
    · have hfirst := ih (hlines ▸ List.mem_cons_self)
      simpa [hbreak] using hfirst
    · exact ih (hlines ▸ List.mem_cons_of_mem _ hline)

namespace Docstring

-- ---------------------------------------------------------------------------
-- Where a docstring ends
-- ---------------------------------------------------------------------------

/-- What follows the first run of three quotes, where a backslash takes the meaning of
    whatever comes after it. -/
def afterQuotes : List Char → Option (List Char)
  | '\\' :: _ :: cs => afterQuotes cs
  | '"' :: '"' :: '"' :: rest => some rest
  | _ :: cs => afterQuotes cs
  | [] => none

/-- A backslash stands for itself before anything but a backslash or quote. -/
theorem read_lone_backslash {c : Char} (hbackslash : c ≠ '\\') (hquote : c ≠ '"')
    (cs : List Char) : read ('\\' :: c :: cs) = (read cs).map (before ['\\', c]) := by
  rw [read]
  · change (read (c :: cs)).map (before ['\\']) = _
    rw [read_plain hbackslash (by simp [quotes, Ne.symm hquote]), map_before]
    rfl
  · simp
  · exact fun _ _ hcons => hbackslash (List.cons.inj hcons).1
  · exact fun _ _ hcons => hquote (List.cons.inj hcons).1

theorem map_snd_before (text : List Char) (found : Option (List Char × List Char)) :
    (found.map (before text)).map (·.2) = found.map (·.2) := by
  cases found <;> rfl

/-- Reading stops where the docstring ends. -/
theorem afterQuotes_eq (s : List Char) : afterQuotes s = (read s).map (·.2) := by
  fun_induction afterQuotes s with
  | case1 c cs ih =>
    by_cases hbackslash : c = '\\'
    · rw [hbackslash, read_backslash, map_snd_before, ih]
    by_cases hquote : c = '"'
    · rw [hquote, read_escaped, map_snd_before, ih]
    · rw [read_lone_backslash hbackslash hquote, map_snd_before, ih]
  | case2 rest => rfl
  | case3 c cs hescape hquotes ih =>
    by_cases hbackslash : c = '\\'
    · cases cs with
      | nil => rw [hbackslash]; rfl
      | cons d cs => exact (hescape d cs hbackslash rfl).elim
    · have hopen : ¬ quotes <+: c :: cs := by
        rintro ⟨rest, hrest⟩
        cases hrest
        exact hquotes rest rfl rfl
      rw [read_plain hbackslash hopen, map_snd_before, ih]
  | case4 => rfl

-- ---------------------------------------------------------------------------
-- Ends of lines
-- ---------------------------------------------------------------------------

/-- The number of backslashes at the end of a text. -/
def endBackslashes (s : List Char) : Nat := (s.reverse.takeWhile (· = '\\')).length

theorem endBackslashes_concat (s : List Char) (c : Char) :
    endBackslashes (s ++ [c]) = if c = '\\' then endBackslashes s + 1 else 0 := by
  unfold endBackslashes
  rw [List.reverse_concat, List.takeWhile_cons]
  split <;> simp_all

theorem not_prefix_append {c : Char} (hc : c ≠ '"') {s : List Char} (hs : ¬ ['"', '"'] <+: s)
    (t : List Char) : ¬ ['"', '"'] <+: s ++ c :: t := by
  match s with
  | [] => simp [Ne.symm hc]
  | [d] => simp [Ne.symm hc]
  | d :: e :: s => simpa using hs

/-- Quotes are only escaped together with quotes. -/
theorem escapeInner_append_plain {c : Char} (hc : c ≠ '"') (s t : List Char) :
    escapeInner (s ++ c :: t) = escapeInner s ++ escapeInner (c :: t) := by
  induction s using escapeTriples.induct with
  | case1 s ih => exact congrArg (['\\', '"', '\\', '"', '\\', '"'] ++ ·) ih
  | case2 d s hthree ih =>
    by_cases hd : d = '"'
    · subst hd
      have hs : ¬ ['"', '"'] <+: s := by
        rintro ⟨rest, rfl⟩
        exact hthree rest rfl rfl
      rw [List.cons_append, escapeInner_quote (not_prefix_append hc hs t), ih,
        escapeInner_quote hs, List.cons_append]
    · rw [List.cons_append, escapeInner_plain hd, ih, escapeInner_plain hd, List.append_assoc]
  | case3 => rfl

theorem escapeInner_concat {c : Char} (hc : c ≠ '"') (s : List Char) :
    escapeInner (s ++ [c]) = escapeInner s ++ doubled c := by
  rw [escapeInner_append_plain hc, escapeInner_plain hc]
  exact congrArg _ (List.append_nil _)

theorem exists_escapeInner_concat (s : List Char) (c : Char) :
    ∃ t, escapeInner (s ++ [c]) = t ++ [c] :=
  List.getLast?_eq_some_iff.1 (by rw [getLast?_escapeInner, List.getLast?_concat])

/-- The backslashes at the end of a text are all doubled. -/
theorem even_endBackslashes_escapeInner (s : List Char) :
    endBackslashes (escapeInner s) % 2 = 0 := by
  induction s using List.reverseRecOn with
  | nil => rfl
  | append_singleton s c ih =>
    by_cases hc : c = '\\'
    · subst hc
      have hdouble : escapeInner (s ++ ['\\']) = escapeInner s ++ ['\\'] ++ ['\\'] := by
        rw [escapeInner_concat (by decide), List.append_assoc]
        rfl
      rw [hdouble, endBackslashes_concat, endBackslashes_concat, if_pos rfl, if_pos rfl]
      omega
    · obtain ⟨t, ht⟩ := exists_escapeInner_concat s c
      rw [ht, endBackslashes_concat, if_neg hc]

/-- Blanks at the end of a text stay blanks at its end. -/
theorem trimRight_escapeInner (s : List Char) :
    trimRight (escapeInner s) = escapeInner (trimRight s) := by
  induction s using List.reverseRecOn with
  | nil => rfl
  | append_singleton s c ih =>
    rw [trimRight_concat]
    split
    · next hblank =>
      have hquote : c ≠ '"' := by rintro rfl; revert hblank; decide
      have hbackslash : c ≠ '\\' := by rintro rfl; revert hblank; decide
      rw [escapeInner_concat hquote, doubled, if_neg hbackslash, trimRight_concat, if_pos hblank,
        ih]
    · next hblank =>
      obtain ⟨t, ht⟩ := exists_escapeInner_concat s c
      rw [ht, trimRight_concat, if_neg hblank]

-- ---------------------------------------------------------------------------
-- One line
-- ---------------------------------------------------------------------------

/-- A line of documentation as it is written. -/
def written (line : List Char) : List Char := trimRight (escape line)

/-- A line of documentation as it is read back. It loses the blanks at its end. A number of
    quotes that three divides gets a backslash before the last of them. -/
def denoted (line : List Char) : List Char :=
  if endQuotes line ≠ 0 ∧ endQuotes line % 3 = 0 then line.dropLast ++ ['\\', '"']
  else trimRight line

theorem written_of_plain {s : List Char} (h : s.getLast? ≠ some '"') :
    written s = escapeInner (trimRight s) := by
  rw [written, escape_of_getLast? h, trimRight_escapeInner]

/-- There is nothing to trim after a quote. -/
theorem written_of_quote {s : List Char} (h : s.getLast? = some '"') :
    ∃ t, written s = t ++ ['"'] ∧ escape s = t ++ ['"'] := by
  obtain ⟨s, rfl⟩ := List.getLast?_eq_some_iff.1 h
  obtain ⟨t, ht⟩ := exists_escapeInner_concat s '"'
  have hescape : escape (s ++ ['"']) = t ++ ['\\'] ++ ['"'] := by
    change escapeLast (escapeInner (s ++ ['"'])) = _
    rw [ht, escapeLast_append _ (by simp), List.append_assoc]
    rfl
  refine ⟨t ++ ['\\'], ?_, hescape⟩
  rw [written, hescape, trimRight_concat, if_neg (by decide)]

theorem even_endBackslashes_written (s : List Char) : endBackslashes (written s) % 2 = 0 := by
  by_cases h : s.getLast? = some '"'
  · obtain ⟨t, ht, -⟩ := written_of_quote h
    rw [ht, endBackslashes_concat, if_neg (by decide)]
  · rw [written_of_plain h]
    exact even_endBackslashes_escapeInner _

theorem read_feed (t : List Char) : read ('\n' :: t) = (read t).map (before ['\n']) :=
  read_plain (by decide) (by simp [quotes])

/-- What is left of the quotes at the end of a line. If there are three, the last one has been
    escaped twice. -/
def leftQuotes (n : Nat) : List Char :=
  if n = 2 then ['"', '"', '\\', '"'] else List.replicate (n + 1) '"'

theorem read_leftQuotes {n : Nat} (hn : n < 3) (t : List Char) :
    read (escapeLast (escapeInner (List.replicate (n + 1) '"')) ++ '\n' :: t) =
      (read t).map (before (leftQuotes n ++ ['\n'])) := by
  have hplain (c : Char) (hc : c ≠ '"') (cs : List Char) :
      read ('"' :: c :: cs) = (read (c :: cs)).map (before ['"']) :=
    read_plain (by decide) (by simp [quotes, Ne.symm hc])
  obtain rfl | rfl | rfl : n = 0 ∨ n = 1 ∨ n = 2 := by omega
  · change read ('\\' :: '"' :: '\n' :: t) = _
    rw [read_escaped, read_feed, map_before]
    rfl
  · change read ('"' :: '\\' :: '"' :: '\n' :: t) = _
    rw [hplain _ (by decide), read_escaped, read_feed, map_before, map_before]
    rfl
  · change read ('\\' :: '"' :: '\\' :: '"' :: '\\' :: '\\' :: '"' :: '\n' :: t) = _
    rw [read_escaped, read_escaped, read_backslash, hplain _ (by decide), read_feed, map_before,
      map_before, map_before, map_before]
    rfl

theorem denoted_of_quotes {s body : List Char} {n : Nat} (hn : n < 3) (hnone : endQuotes s ≠ 0)
    (hmod : endQuotes s % 3 = (n + 1) % 3) (hs : s = body ++ List.replicate (n + 1) '"') :
    denoted s = body ++ leftQuotes n := by
  unfold denoted leftQuotes
  by_cases hthree : n = 2
  · subst hthree
    rw [if_pos ⟨hnone, hmod⟩, if_pos rfl, hs, List.dropLast_append_of_ne_nil (by simp),
      List.append_assoc]
    rfl
  · rw [if_neg (by omega), if_neg hthree, hs, List.replicate_succ', ← List.append_assoc,
      trimRight_concat, if_neg (by decide)]

/-- A line is read back in front of its line feed, whatever follows. -/
theorem read_written (s t : List Char) :
    read (written s ++ '\n' :: t) = (read t).map (before (denoted s ++ ['\n'])) := by
  by_cases hnone : endQuotes s = 0
  · -- The line feed may as well have been escaped with the line, and then it is settled.
    have hescape : written s ++ '\n' :: t = escapeInner (trimRight s ++ ['\n']) ++ t := by
      rw [written_of_plain (getLast?_of_endQuotes hnone), escapeInner_concat (by decide),
        List.append_assoc]
      rfl
    have hsettled : Settled (trimRight s ++ ['\n']) := .of_getLast? (by simp)
    rw [hescape, hsettled.read_escapeInner, denoted, if_neg fun h => h.1 hnone]
  · obtain ⟨body, n, hbody, hn, hmod, hs⟩ := exists_settled hnone
    have hinner : escapeInner (List.replicate (n + 1) '"') ≠ [] := by
      obtain ⟨u, hu⟩ := exists_escapeInner_concat (List.replicate n '"') '"'
      rw [List.replicate_succ', hu]
      simp
    have hlast : s.getLast? = some '"' := by
      rw [hs, List.replicate_succ', ← List.append_assoc, List.getLast?_concat]
    obtain ⟨u, hwritten, hescape⟩ := written_of_quote hlast
    rw [denoted_of_quotes hn hnone hmod hs, hwritten, ← hescape, hs, hbody.read_escape hinner,
      read_leftQuotes hn, map_before, List.append_assoc]

/-- Nothing is written exactly if nothing is read. -/
theorem written_eq_nil_iff (s : List Char) : written s = [] ↔ denoted s = [] := by
  constructor
  · intro h
    have hread := read_written s quotes
    rw [h] at hread
    simpa [read, quotes, before] using hread
  · intro h
    unfold denoted at h
    split at h
    · simp at h
    · by_cases hlast : s.getLast? = some '"'
      · obtain ⟨t, rfl⟩ := List.getLast?_eq_some_iff.1 hlast
        rw [trimRight_concat, if_neg (by decide)] at h
        simp at h
      · rw [written_of_plain hlast, h]
        rfl

/-- Escaping a line adds no characters but backslashes. -/
theorem mem_of_mem_escape {s : List Char} {c : Char} (h : c ∈ escape s) : c ∈ s ∨ c = '\\' := by
  have hdouble : c ∈ doubleBackslashes s → c ∈ s ∨ c = '\\' := by
    intro hc
    obtain ⟨d, hd, hc⟩ := List.mem_flatMap.1 hc
    split at hc
    · exact .inr (by simpa using hc)
    · exact .inl (by rwa [List.mem_singleton.1 hc])
  have htriples (t : List Char) : c ∈ escapeTriples t → c ∈ t ∨ c = '\\' := by
    fun_induction escapeTriples t <;> grind
  have hlast (t : List Char) : c ∈ escapeLast t → c ∈ t ∨ c = '\\' := by
    fun_induction escapeLast t <;> grind
  rcases hlast _ h with h | h
  · rcases htriples _ h with h | h
    · exact hdouble h
    · exact .inr h
  · exact .inr h

end Docstring

end ApiStubs.Text

-- ---------------------------------------------------------------------------
-- All lines
-- ---------------------------------------------------------------------------

namespace ApiStubs.Stub

open Text Docstring

/-- The lines that a call is documented with, before they are escaped. -/
def sourceLines (description returns : Option String) : List (List Char) :=
  match lines (trim (description.getD "").toList), lines (trim (returns.getD "").toList) with
  | [], rest => rest
  | first, [] => first
  | first, rest => first ++ [] :: rest

theorem documentation_eq (description returns : Option String) :
    documentation description returns =
      (sourceLines description returns).map (.ofList ∘ written) := by
  unfold documentation docLines sourceLines
  cases lines (trim (description.getD "").toList) with
  | nil => rfl
  | cons line first =>
    cases lines (trim (returns.getD "").toList) with
    | nil => rfl
    | cons line rest =>
      rw [List.map_cons, List.map_append]
      rfl

theorem isLineBreak_of_mem_sourceLines {description returns : Option String} {line : List Char}
    (h : line ∈ sourceLines description returns) : ∀ c ∈ line, isLineBreak c = false := by
  unfold sourceLines at h
  split at h
  · exact isLineBreak_of_mem_lines h
  · exact isLineBreak_of_mem_lines h
  · rcases List.mem_append.1 h with h | h
    · exact isLineBreak_of_mem_lines h
    · rcases List.mem_cons.1 h with rfl | h
      · simp
      · exact isLineBreak_of_mem_lines h

/-- The blanks before a line of documentation. -/
def indent : List Char := List.replicate 8 ' '

/-- A line of documentation as it is written, indented or blank. -/
def indented (line : List Char) : List Char :=
  if line = [] then ['\n'] else indent ++ line ++ ['\n']

/-- What documentation consists of, up to its closing quotes. -/
def docValue (doc : List (List Char)) : List Char := '\n' :: doc.flatMap indented ++ indent

theorem toList_docLine (line : List Char) : (docLine (.ofList line)).toList = indented line := by
  unfold docLine indented
  by_cases h : line = []
  · rw [if_pos (by simpa using h), if_pos h]
    rfl
  · have hindent : "        ".toList = indent := by decide
    have hwrite : unlines ["        " ++ String.ofList line] =
        "        " ++ String.ofList line ++ "\n" := by
      rw [unlines, List.map_singleton, Script.join_string, String.join_cons, String.join_nil,
        String.append_empty, Script.text_string]
    rw [if_neg (by simpa using h), if_neg h, ← hindent]
    exact (congrArg String.toList hwrite).trans (by simp)

theorem toList_docBody (doc : List (List Char)) :
    (docBody (doc.map .ofList)).toList = docValue doc ++ quotes := by
  have hlines : (each (doc.map .ofList) docLine).toList = doc.flatMap indented := by
    induction doc with
    | nil => rfl
    | cons line doc ih =>
      rw [List.flatMap_cons, ← ih, ← toList_docLine, each, List.map_cons, List.map_cons,
        Script.join_string, String.join_cons, String.toList_append]
      rfl
  have hclose : "        \"\"\"".toList = indent ++ quotes := by decide
  rw [docBody, String.toList_append, String.toList_append, hlines, hclose, docValue,
    ← List.append_assoc]
  rfl

theorem read_indent (t : List Char) :
    Docstring.read (indent ++ t) = (Docstring.read t).map (before indent) := by
  have hsettled : Settled indent := .of_getLast? (by decide)
  exact hsettled.read_escapeInner t

/-- A line is read back as it is meant, whatever follows. -/
theorem read_indented (line t : List Char) :
    Docstring.read (indented (written line) ++ t) =
      (Docstring.read t).map (before (indented (denoted line))) := by
  unfold indented
  by_cases h : written line = []
  · rw [if_pos h, if_pos ((written_eq_nil_iff line).1 h)]
    exact read_feed t
  · rw [if_neg h, if_neg (mt (written_eq_nil_iff line).2 h), List.append_assoc, List.append_assoc,
      List.singleton_append, read_indent, read_written, map_before, List.append_assoc]

/-- Documentation is read line by line. -/
theorem read_docValue (source : List (List Char)) (rest : List Char) :
    Docstring.read (docValue (source.map written) ++ quotes ++ rest) =
      some (docValue (source.map denoted), rest) := by
  have hlines (t : List Char) :
      Docstring.read ((source.map written).flatMap indented ++ t) =
        (Docstring.read t).map (before ((source.map denoted).flatMap indented)) := by
    induction source with
    | nil => exact Option.map_id'.symm
    | cons line source ih =>
      rw [List.map_cons, List.map_cons, List.flatMap_cons, List.flatMap_cons, List.append_assoc,
        read_indented, ih, map_before]
  unfold docValue
  rw [List.append_assoc, List.append_assoc, List.cons_append, read_feed, hlines, read_indent,
    map_before, map_before]
  simp [Docstring.read, quotes, before]

/-- The line that begins the method of a call. -/
def Call.line (c : Call) : String :=
  s!"    def {c.methodName}(self{formals c.signature}) -> {c.builderClass}[A]:"

/-- The docstring of a call, if it has one, ends at the quotes that are written to end it, and
    its value is made of the lines of the description and of what is returned. No line of it
    is divided by a line end of another kind, and no line feed is escaped. -/
theorem documentation_closes (settings : Settings) (r : ResolvedEndpoint)
    (h : (Call.ofResolved settings r).doc ≠ []) :
    let c := Call.ofResolved settings r
    (∃ after, c.renderMethod =
      unlines ["", c.line] ++ "        \"\"\"" ++ docBody c.doc ++ "\n" ++ after) ∧
    (docBody c.doc).toList = docValue (c.doc.map (·.toList)) ++ quotes ∧
    (∀ rest,
      afterQuotes ((docBody c.doc).toList ++ rest) = some rest ∧
      Docstring.read ((docBody c.doc).toList ++ rest) =
        some (docValue ((sourceLines r.description r.returns).map denoted), rest)) ∧
    ∀ line ∈ c.doc,
      (∀ x ∈ line.toList, isLineBreak x = false) ∧ endBackslashes line.toList % 2 = 0 := by
  intro c
  have hdoc : c.doc = (sourceLines r.description r.returns).map (.ofList ∘ written) :=
    documentation_eq r.description r.returns
  have hbody : (docBody c.doc).toList =
      docValue ((sourceLines r.description r.returns).map written) ++ quotes := by
    rw [hdoc, ← List.map_map, toList_docBody]
  refine ⟨?_, ?_, fun rest => ?_, fun line hline => ?_⟩
  · have htext : docText c.doc = "        \"\"\"" ++ docBody c.doc ++ "\n" :=
      if_neg (by simpa using h)
    refine ⟨unlines [s!"        return {c.builderClass}(self._client{actuals c.signature})"], ?_⟩
    rw [Call.renderMethod, htext, ← String.append_assoc, ← String.append_assoc]
    rfl
  · have hlines : c.doc.map (·.toList) = (sourceLines r.description r.returns).map written := by
      rw [hdoc, List.map_map]
      exact List.map_congr_left fun line _ => String.toList_ofList
    rw [hbody, hlines]
  · rw [hbody, afterQuotes_eq, read_docValue]
    exact ⟨rfl, rfl⟩
  · rw [hdoc] at hline
    obtain ⟨source, hsource, rfl⟩ := List.mem_map.1 hline
    rw [Function.comp_apply, String.toList_ofList]
    refine ⟨fun x hx => ?_, even_endBackslashes_written source⟩
    rcases mem_of_mem_escape (trimRight_subset _ hx) with hx | rfl
    · exact isLineBreak_of_mem_sourceLines hsource x hx
    · decide

/-- An endpoint whose documentation has quotes and a backslash at the ends of its lines. -/
def quoting : ResolvedEndpoint where
  nameSpace := "Texts"
  name := "Quote"
  methodName := "quote"
  builderClass := "TextsQuote"
  method := .get
  url := some "texts/quote"
  returnType := "Text"
  description := some "before \"\"\" \nbehind \"\"\"\nC:\\"
  returns := some "a \"text\""
  reserved := none
  required := []
  optional := []
  implFunction := none

theorem documentation_closes_quoting :
    let doc := (Call.ofResolved ({} : Settings) quoting).doc
    doc ≠ [] ∧
      afterQuotes ((docBody doc).toList ++ ['\n']) = some ['\n'] ∧
      ∀ line ∈ doc, endBackslashes line.toList % 2 = 0 := by
  intro doc
  have hdoc : doc ≠ [] := by decide
  obtain ⟨-, -, hread, hlines⟩ := documentation_closes {} quoting hdoc
  exact ⟨hdoc, (hread ['\n']).1, fun line hline => (hlines line hline).2⟩

end ApiStubs.Stub
