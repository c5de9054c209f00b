-- SUMMARY: What a docstring denotes, and for which texts that is the text it was written from.
import ApiStubs.Stub.Render

/-!
# Docstrings

A text is escaped in three steps. Backslashes are doubled, then every three quotes get a
backslash each, from left to right, and then a quote at the very end gets one. The last step
takes any quote for a bare one. If the text ends in quotes of which the second step leaves
none over, the last quote has its backslash already, and the two backslashes make one.

`Settled` describes the texts of which the second step leaves no quote over at the end. They
are read back whatever follows them. `read_escape` says what any text is read as, in front of
the closing quotes.
-/

namespace ApiStubs.Text.Docstring

/-- The quotes that open and close a docstring. -/
def quotes : List Char := ['"', '"', '"']

/-- The number of quotes at the end of a text. -/
def endQuotes (s : List Char) : Nat := (s.reverse.takeWhile (· = '"')).length

/-- What is read with more text before the value. -/
def before (text : List Char) (found : List Char × List Char) : List Char × List Char :=
  (text ++ found.1, found.2)

-- ---------------------------------------------------------------------------
-- Reading
-- ---------------------------------------------------------------------------

theorem read_backslash (cs : List Char) :
    read ('\\' :: '\\' :: cs) = (read cs).map (before ['\\']) := by
  rw [read]
  rfl

theorem read_escaped (cs : List Char) :
    read ('\\' :: '"' :: cs) = (read cs).map (before ['"']) := by
  rw [read]
  rfl

theorem read_plain {c : Char} {cs : List Char} (hbackslash : c ≠ '\\')
    (hquotes : ¬ quotes <+: c :: cs) : read (c :: cs) = (read cs).map (before [c]) := by
  rw [read]
  · rfl
  · rintro rest rfl rfl
    exact hquotes ⟨rest, rfl⟩
  · rintro rest rfl -
    exact hbackslash rfl
  · rintro rest rfl -
    exact hbackslash rfl

theorem map_before (a b : List Char) (found : Option (List Char × List Char)) :
    (found.map (before b)).map (before a) = found.map (before (a ++ b)) := by
  cases found with
  | none => rfl
  | some p => simp [before]

-- ---------------------------------------------------------------------------
-- Escaping before the last character
-- ---------------------------------------------------------------------------

/-- The first two steps of escaping. -/
def escapeInner (s : List Char) : List Char := escapeTriples (doubleBackslashes s)

/-- A character that is not a quote, after the first step. -/
def doubled (c : Char) : List Char := if c = '\\' then ['\\', '\\'] else [c]

theorem doubleBackslashes_cons (c : Char) (cs : List Char) :
    doubleBackslashes (c :: cs) = doubled c ++ doubleBackslashes cs :=
  List.flatMap_cons

theorem exists_of_doubleBackslashes {cs rest : List Char}
    (h : doubleBackslashes cs = '"' :: rest) :
    ∃ cs', cs = '"' :: cs' ∧ doubleBackslashes cs' = rest := by
  cases cs with
  | nil => cases h
  | cons c cs =>
    rw [doubleBackslashes_cons, doubled] at h
    split at h
    · cases h
    · cases h
      exact ⟨cs, rfl, rfl⟩

theorem escapeInner_triple (cs : List Char) :
    escapeInner ('"' :: '"' :: '"' :: cs) =
      '\\' :: '"' :: '\\' :: '"' :: '\\' :: '"' :: escapeInner cs :=
  rfl

/-- Up to two quotes stay as they are. -/
theorem escapeInner_quote {cs : List Char} (h : ¬ ['"', '"'] <+: cs) :
    escapeInner ('"' :: cs) = '"' :: escapeInner cs := by
  refine escapeTriples.eq_2 '"' (doubleBackslashes cs) fun rest _ hrest => h ?_
  obtain ⟨tail, rfl, htail⟩ := exists_of_doubleBackslashes hrest
  obtain ⟨tail, rfl, -⟩ := exists_of_doubleBackslashes htail
  exact ⟨tail, rfl⟩

theorem escapeInner_plain {c : Char} (hc : c ≠ '"') (cs : List Char) :
    escapeInner (c :: cs) = doubled c ++ escapeInner cs := by
  unfold escapeInner
  rw [doubleBackslashes_cons, doubled]
  split
  · rfl
  · exact escapeTriples.eq_2 c _ fun _ hquote _ => hc hquote

/-- A character that is not a quote still comes first. -/
theorem exists_escapeInner_plain {c : Char} (hc : c ≠ '"') (cs : List Char) :
    ∃ rest, escapeInner (c :: cs) = c :: rest := by
  rw [escapeInner_plain hc, doubled]
  split
  · next hbackslash => exact ⟨'\\' :: escapeInner cs, by rw [hbackslash]; rfl⟩
  · exact ⟨escapeInner cs, rfl⟩

/-- No step changes the last character. -/
theorem getLast?_escapeInner (s : List Char) : (escapeInner s).getLast? = s.getLast? := by
  have htriples (s : List Char) : (escapeTriples s).getLast? = s.getLast? := by
    induction s using escapeTriples.induct with
    | case1 cs ih => simp [escapeTriples, List.getLast?_cons, ih]
    | case2 c cs h ih => rw [escapeTriples.eq_2 c cs h, List.getLast?_cons, List.getLast?_cons, ih]
    | case3 => rfl
  have hdoubles : (doubleBackslashes s).getLast? = s.getLast? := by
    induction s with
    | nil => rfl
    | cons c cs ih =>
      rw [doubleBackslashes_cons, List.getLast?_append, List.getLast?_cons, ih, doubled]
      split
      · next hc => cases cs.getLast? <;> simp [hc]
      · cases cs.getLast? <;> simp
  exact (htriples _).trans hdoubles

-- ---------------------------------------------------------------------------
-- Settled texts
-- ---------------------------------------------------------------------------

/-- The second step of escaping leaves no quote over at the end of the text: of each run of
    quotes the groups of three are taken first, and what is left over has something behind
    it. -/
inductive Settled : List Char → Prop where
  | nil : Settled []
  | plain {c : Char} {cs : List Char} (hc : c ≠ '"') (rest : Settled cs) : Settled (c :: cs)
  | single {c : Char} {cs : List Char} (hc : c ≠ '"') (rest : Settled (c :: cs)) :
      Settled ('"' :: c :: cs)
  | double {c : Char} {cs : List Char} (hc : c ≠ '"') (rest : Settled (c :: cs)) :
      Settled ('"' :: '"' :: c :: cs)
  | triple {cs : List Char} (rest : Settled cs) : Settled ('"' :: '"' :: '"' :: cs)

namespace Settled

theorem append {s t : List Char} (hs : Settled s) (ht : Settled t) : Settled (s ++ t) := by
  induction hs with
  | nil => exact ht
  | plain hc _ ih => exact .plain hc ih
  | single hc _ ih => exact .single hc ih
  | double hc _ ih => exact .double hc ih
  | triple _ ih => exact .triple ih

theorem replicate (n : Nat) : Settled (List.replicate (3 * n) '"') := by
  induction n with
  | zero => exact .nil
  | succ n ih => exact .triple ih

/-- A text that does not end in a quote is settled. -/
theorem of_getLast? {s : List Char} (h : s.getLast? ≠ some '"') : Settled s := by
  induction s using escapeTriples.induct with
  | case1 cs ih => exact .triple (ih fun hlast => h (by simp [List.getLast?_cons, hlast]))
  | case2 c cs hthree ih =>
    have hrest := ih fun hlast => h (by simp [List.getLast?_cons, hlast])
    by_cases hc : c = '"'
    · subst hc
      -- Something that is not a quote comes after one more quote at most.
      match cs with
      | [] => exact absurd rfl h
      | d :: ds =>
        by_cases hd : d = '"'
        · subst hd
          match ds with
          | [] => exact absurd rfl h
          | e :: es =>
            have he : e ≠ '"' := fun he => hthree es rfl (by rw [he])
            cases hrest with
            | plain hquote => exact absurd rfl hquote
            | single _ hes => exact .double he hes
            | double => exact absurd rfl he
            | triple => exact absurd rfl he
        · exact .single hd hrest
    · exact .plain hc hrest
  | case3 => exact .nil

variable {s : List Char}

theorem escapeInner_append (h : Settled s) (t : List Char) :
    escapeInner (s ++ t) = escapeInner s ++ escapeInner t := by
  induction h with
  | nil => rfl
  | plain hc _ ih =>
    rw [List.cons_append, escapeInner_plain hc, escapeInner_plain hc, ih, List.append_assoc]
  | @single c cs hc _ ih =>
    have hnext (rest : List Char) : ¬ ['"', '"'] <+: c :: rest := by simp [Ne.symm hc]
    rw [List.cons_append, List.cons_append, escapeInner_quote (hnext _),
      escapeInner_quote (hnext _), ← List.cons_append, ih, List.cons_append]
  | @double c cs hc _ ih =>
    have hnext (rest : List Char) : ¬ ['"', '"'] <+: '"' :: c :: rest := by simp [Ne.symm hc]
    have hnext' (rest : List Char) : ¬ ['"', '"'] <+: c :: rest := by simp [Ne.symm hc]
    rw [List.cons_append, List.cons_append, List.cons_append, escapeInner_quote (hnext _),
      escapeInner_quote (hnext' _), escapeInner_quote (hnext _), escapeInner_quote (hnext' _),
      ← List.cons_append, ih]
    rfl
  | triple _ ih => exact congrArg (['\\', '"', '\\', '"', '\\', '"'] ++ ·) ih

/-- A settled text is read back whatever follows it. -/
theorem read_escapeInner (h : Settled s) (t : List Char) :
    read (escapeInner s ++ t) = (read t).map (before s) := by
  induction h with
  | nil => exact Option.map_id'.symm
  | @plain c cs hc _ ih =>
    rw [escapeInner_plain hc, doubled, List.append_assoc]
    split
    · next hbackslash =>
      subst hbackslash
      rw [List.cons_append, List.singleton_append, read_backslash, ih, map_before]
      rfl
    · next hbackslash =>
      rw [List.singleton_append, read_plain hbackslash (by simp [quotes, Ne.symm hc]), ih,
        map_before]
      rfl
  | @single c cs hc _ ih =>
    obtain ⟨rest, hrest⟩ := exists_escapeInner_plain hc cs
    rw [escapeInner_quote (by simp [Ne.symm hc]), List.cons_append,
      read_plain (by decide) (by simp [quotes, hrest, Ne.symm hc]), ih, map_before]
    rfl
  | @double c cs hc _ ih =>
    obtain ⟨rest, hrest⟩ := exists_escapeInner_plain hc cs
    rw [escapeInner_quote (by simp [Ne.symm hc]), escapeInner_quote (by simp [Ne.symm hc]),
      List.cons_append, List.cons_append,
      read_plain (by decide) (by simp [quotes, hrest, Ne.symm hc]),
      read_plain (by decide) (by simp [quotes, hrest, Ne.symm hc]), ih, map_before, map_before]
    rfl
  | triple _ ih =>
    simp only [escapeInner_triple, List.cons_append, read_escaped, ih, map_before, List.nil_append]

end Settled

/-- A text and its quotes at the end. -/
theorem exists_body (s : List Char) :
    ∃ body, s = body ++ List.replicate (endQuotes s) '"' ∧ body.getLast? ≠ some '"' := by
  refine ⟨(s.reverse.dropWhile (· = '"')).reverse, ?_, ?_⟩
  · have hquotes : (s.reverse.takeWhile (· = '"')).reverse = List.replicate (endQuotes s) '"' := by
      refine List.eq_replicate_iff.2 ⟨List.length_reverse, fun c hc => ?_⟩
      have hall := List.all_takeWhile (p := (· = '"')) (l := s.reverse)
      exact of_decide_eq_true (List.all_eq_true.1 hall c (List.mem_reverse.1 hc))
    rw [← hquotes, ← List.reverse_append, List.takeWhile_append_dropWhile, List.reverse_reverse]
  · intro hlast
    have hhead := List.head?_dropWhile_not (· = '"') s.reverse
    rw [List.getLast?_reverse] at hlast
    rw [hlast] at hhead
    cases hhead

theorem getLast?_of_endQuotes {s : List Char} (h : endQuotes s = 0) : s.getLast? ≠ some '"' := by
  obtain ⟨body, hs, hlast⟩ := exists_body s
  rw [h, List.replicate_zero, List.append_nil] at hs
  exact hs ▸ hlast

/-- A text that ends in a quote is a settled one with one, two or three quotes behind it. -/
theorem exists_settled {s : List Char} (h : endQuotes s ≠ 0) :
    ∃ body n, Settled body ∧ n < 3 ∧ endQuotes s % 3 = (n + 1) % 3 ∧
      s = body ++ List.replicate (n + 1) '"' := by
  obtain ⟨body, hs, hlast⟩ := exists_body s
  have hcount : endQuotes s = 3 * ((endQuotes s - 1) / 3) + ((endQuotes s - 1) % 3 + 1) := by
    omega
  refine ⟨body ++ List.replicate (3 * ((endQuotes s - 1) / 3)) '"', (endQuotes s - 1) % 3,
    (Settled.of_getLast? hlast).append (.replicate _), Nat.mod_lt _ (by decide), by omega, ?_⟩
  rw [List.append_assoc, List.replicate_append_replicate, ← hcount]
  exact hs

-- ---------------------------------------------------------------------------
-- The last character
-- ---------------------------------------------------------------------------

theorem escapeLast_append (s : List Char) {t : List Char} (ht : t ≠ []) :
    escapeLast (s ++ t) = s ++ escapeLast t := by
  induction s with
  | nil => rfl
  | cons c cs ih =>
    obtain ⟨d, ds, hcons⟩ := List.exists_cons_of_ne_nil (List.append_ne_nil_of_right_ne_nil cs ht)
    rw [List.cons_append, hcons, escapeLast, ← hcons, ih, List.cons_append]

theorem escapeLast_of_getLast? {s : List Char} (h : s.getLast? ≠ some '"') : escapeLast s = s := by
  induction s using escapeLast.induct with
  | case1 => rfl
  | case2 => exact absurd rfl h
  | case3 c hc => rw [escapeLast, if_neg hc]
  | case4 c d cs ih =>
    rw [escapeLast, ih (by simpa [List.getLast?_cons] using h)]

theorem escape_of_getLast? {s : List Char} (h : s.getLast? ≠ some '"') :
    escape s = escapeInner s :=
  escapeLast_of_getLast? (by rwa [← getLast?_escapeInner] at h)

/-- What is read behind a settled text is settled by what the text goes on with. -/
theorem Settled.read_escape {body t : List Char} (h : Settled body) (ht : escapeInner t ≠ [])
    (rest : List Char) :
    read (escape (body ++ t) ++ rest) =
      (read (escapeLast (escapeInner t) ++ rest)).map (before body) := by
  have hescape : escape (body ++ t) = escapeInner body ++ escapeLast (escapeInner t) := by
    change escapeLast (escapeInner (body ++ t)) = _
    rw [h.escapeInner_append, escapeLast_append _ ht]
  rw [hescape, List.append_assoc, h.read_escapeInner]

/-- The docstring of a text denotes that text and ends at its closing quotes, unless the text
    ends in a number of quotes that three divides. Then the last quote becomes a backslash, and
    the docstring ends one quote too early. -/
theorem read_escape (s rest : List Char) :
    read (escape s ++ (quotes ++ rest)) =
      if endQuotes s ≠ 0 ∧ endQuotes s % 3 = 0 then some (s.dropLast ++ ['\\'], '"' :: rest)
      else some (s, rest) := by
  by_cases hnone : endQuotes s = 0
  · have hlast := getLast?_of_endQuotes hnone
    rw [if_neg fun h => h.1 hnone, escape_of_getLast? hlast,
      (Settled.of_getLast? hlast).read_escapeInner]
    exact congrArg some (by simp [before])
  · obtain ⟨body, n, hbody, hn, hmod, hs⟩ := exists_settled hnone
    rw [hmod]
    obtain rfl | rfl | rfl : n = 0 ∨ n = 1 ∨ n = 2 := by omega
    · rw [if_neg (by simp), hs]
      exact hbody.read_escape (by decide) _
    · rw [if_neg (by simp), hs]
      exact hbody.read_escape (by decide) _
    · rw [if_pos ⟨hnone, rfl⟩, hs, List.dropLast_append_of_ne_nil (by simp), List.append_assoc]
      exact hbody.read_escape (by decide) _

theorem ofString_ne_empty {d : String} (hd : d ≠ "") : ofString d ≠ "" := by
  intro hempty
  have hescape : escape d.toList = [] := String.ofList_eq_empty_iff.1 hempty
  have hread := read_escape d.toList []
  rw [hescape] at hread
  change some ([], []) = _ at hread
  split at hread
  · simp at hread
  · exact hd (by simpa using hread)

end ApiStubs.Text.Docstring

-- ---------------------------------------------------------------------------
-- Descriptions in the text of a client
-- ---------------------------------------------------------------------------

namespace ApiStubs.Stub

open Text

/-- The docstring of `d` stands in the text, right after `opening`. -/
def DocumentedAfter (opening d text : String) : Prop :=
  ∃ before after,
    text = before ++ opening ++ "\"\"\"" ++ Docstring.ofString d ++ "\"\"\"" ++ after

theorem DocumentedAfter.within {opening d text : String} (h : DocumentedAfter opening d text)
    (before after : String) : DocumentedAfter opening d (before ++ text ++ after) := by
  obtain ⟨before', after', rfl⟩ := h
  exact ⟨before ++ before', after' ++ after, by simp only [String.append_assoc]⟩

theorem ifPresent_shortDoc {d : String} (hd : d ≠ "") (write : String → String) :
    ifPresent (shortDoc (some d)) write = write (Docstring.ofString d) := by
  have hshort : shortDoc (some d) = some (Docstring.ofString d) := by
    rw [shortDoc, Option.filter_some, if_pos (decide_eq_true hd), Option.map_some]
  rw [hshort, ifPresent, if_neg (Docstring.ofString_ne_empty hd)]

/-- A line that holds nothing but a docstring, after other lines. -/
theorem documentedAfter_lines (before : List String) (line d : String) {quoted : String}
    (indent : String) (hquoted : quoted = indent ++ "\"\"\"") (more : List String) (after : String) :
    DocumentedAfter (unlines [line] ++ indent) d
      (unlines (before ++ [line]) ++
        (unlines ((quoted ++ Docstring.ofString d ++ "\"\"\"") :: more) ++ after)) := by
  refine ⟨unlines before, "\n" ++ unlines more ++ after, ?_⟩
  simp only [unlines, Script.text_string, Script.join_string, hquoted, List.map_append,
    List.map_cons, List.map_nil, String.join_append, String.join_cons, String.join_nil,
    String.append_empty, String.append_assoc]

/-- The line that begins the client of a namespace. -/
def Section.line (s : Section) : String := s!"class {s.clientClass}(Generic[A]):"

/-- The line that begins the accessor of a namespace. -/
def Accessor.line (a : Accessor) : String :=
  s!"    def {a.accessor}(self) -> {a.clientClass}[A]:"

theorem Section.documented {s : Section} {d : String} (hs : s.description = shortDoc (some d))
    (hd : d ≠ "") : DocumentedAfter (unlines [s.line] ++ "    ") d s.render := by
  have hquoted : "    \"\"\"" = "    " ++ "\"\"\"" := by decide
  unfold Section.render
  rw [hs, ifPresent_shortDoc hd, String.append_assoc, String.append_assoc, String.append_assoc]
  exact documentedAfter_lines ["", ""] s.line d "    " hquoted [""] _

theorem Accessor.documented {a : Accessor} {d : String} (ha : a.description = shortDoc (some d))
    (hd : d ≠ "") : DocumentedAfter (unlines [a.line] ++ "        ") d a.render := by
  have hquoted : "        \"\"\"" = "        " ++ "\"\"\"" := by decide
  unfold Accessor.render
  rw [ha, ifPresent_shortDoc hd, String.append_assoc]
  exact documentedAfter_lines [""] a.line d "        " hquoted [] _

/-- The aggregate client has the docstrings of its accessors. -/
theorem Preamble.documented {p : Preamble} {a : Accessor} (ha : a ∈ p.accessors)
    {opening d : String} (h : DocumentedAfter opening d a.render) :
    DocumentedAfter opening d p.render := by
  obtain ⟨before, after, hsplit⟩ := List.append_of_mem ha
  have heach : each p.accessors Accessor.render =
      each before Accessor.render ++ (a.render ++ each after Accessor.render) := by
    rw [each, hsplit, List.map_append, List.map_cons, Script.join_string, String.join_append,
      String.join_cons]
    rfl
  unfold Preamble.render
  rw [heach, Script.text_string (_ ++ _), ← String.append_assoc, ← String.append_assoc]
  exact h.within _ _

/-- The docstring of a description denotes the description and ends at its closing quotes,
    unless the description ends in a number of quotes that three divides. This is how a
    description that is not empty is written: at the beginning of the client of its namespace,
    and of the accessor of that client. -/
theorem read_description (d : String) :
    (∀ rest, Docstring.read ((Docstring.ofString d).toList ++ (Docstring.quotes ++ rest)) =
      if Docstring.endQuotes d.toList ≠ 0 ∧ Docstring.endQuotes d.toList % 3 = 0 then
        some (d.toList.dropLast ++ ['\\'], '"' :: rest)
      else some (d.toList, rest)) ∧
    (d ≠ "" → ∀ (settings : Settings) (t : Template), t.description = some d →
      let s := (Section.build settings t).value
      let a := Accessor.ofTemplate t
      DocumentedAfter (unlines [s.line] ++ "    ") d s.render ∧
      ∀ ts, t ∈ ts →
        DocumentedAfter (unlines [a.line] ++ "        ") d (Preamble.build settings ts).render) := by
  refine ⟨fun rest => ?_, fun hd settings t ht => ?_⟩
  · rw [Docstring.ofString, String.toList_ofList]
    exact Docstring.read_escape d.toList rest
  · have hsection : (Section.build settings t).value.description = shortDoc t.description := rfl
    have haccessor : (Accessor.ofTemplate t).description = shortDoc t.description := rfl
    rw [ht] at hsection haccessor
    refine ⟨Section.documented hsection hd, fun ts hts => ?_⟩
    exact Preamble.documented (List.mem_map_of_mem hts) (Accessor.documented haccessor hd)

/-- A description that ends in a single quote. -/
def homeDrive : Template where
  nameSpace := "Home"
  description := some "C:\\ is \"home\""

theorem read_description_homeDrive :
    Docstring.read
        ((Docstring.ofString "C:\\ is \"home\"").toList ++ (Docstring.quotes ++ ['\n'])) =
      some ("C:\\ is \"home\"".toList, ['\n']) ∧
    DocumentedAfter (unlines [(Section.build {} homeDrive).value.line] ++ "    ") "C:\\ is \"home\""
      (Section.build {} homeDrive).value.render := by
  obtain ⟨hread, hwritten⟩ := read_description "C:\\ is \"home\""
  exact ⟨(hread ['\n']).trans (if_neg (by decide)), (hwritten (by decide) {} homeDrive rfl).1⟩

/-- The last of three quotes is escaped twice. -/
theorem not_forall_read_description :
    ¬ ∀ (d : String) (rest : List Char), '\n' ∉ d.toList → '\r' ∉ d.toList →
      Docstring.read ((Docstring.ofString d).toList ++ (Docstring.quotes ++ rest)) =
        some (d.toList, rest) := by
  intro hall
  have hread := hall "a \"\"\"" [] (by decide) (by decide)
  exact absurd hread (by decide)

end ApiStubs.Stub
