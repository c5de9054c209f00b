-- SUMMARY: String literals denote the texts they are written for, also in the text of a client.
import ApiStubs.Proofs.ArgumentNames
import ApiStubs.Proofs.Docstrings
import ApiStubs.Proofs.Identifiers

/-!
# Literals

A text is written as a literal character by character. What stands for a character is an
escape, a code in hexadecimal digits or the character itself, and it is read as that character
whatever follows it (`decodeBody_encodeChar`). So a literal is read as the text it was written
for, up to its closing quote and no further.

`literals` reads a piece of code and gives the values of the literals in it. `Holds` says which
literals a piece of the text of a client has, whatever text follows it.
-/

namespace ApiStubs.Text.Literal

/-- What is read with one more character before the value. -/
def prepend (c : Char) (found : List Char × List Char) : List Char × List Char :=
  (c :: found.1, found.2)

-- ---------------------------------------------------------------------------
-- Writing a character
-- ---------------------------------------------------------------------------

/-- What stands in a literal for the character `c`. -/
inductive Encodes (c : Char) : List Char → Prop where
  | escape {e : Char} (h : escape? e = some c) : Encodes c ['\\', e]
  | code (h : c.toNat < 0x20) : Encodes c ('\\' :: 'u' :: hex 4 c.toNat)
  | self (hcontrol : 0x20 ≤ c.toNat) (hquote : c ≠ '"') (hbackslash : c ≠ '\\') : Encodes c [c]

theorem encodes_encodeChar (c : Char) : Encodes c (encodeChar c) := by
  unfold encodeChar
  iterate 7
    split
    · next h => subst h; exact .escape rfl
  split
  · next hcontrol => exact .code hcontrol
  · next hquote hbackslash _ _ _ _ _ hcontrol =>
    exact .self (Nat.le_of_not_lt hcontrol) hquote hbackslash

theorem le_toNat_of_escape? {e c : Char} (h : escape? e = some c) : 0x20 ≤ e.toNat := by
  unfold escape? at h
  split at h
  all_goals first | decide | cases h

theorem le_toNat_of_mem_hex {width n : Nat} {c : Char} (h : c ∈ hex width n) :
    0x20 ≤ c.toNat := by
  have hdigits : ∀ d < 16, 0x20 ≤ (Nat.digitChar d).toNat := by decide
  induction width generalizing n with
  | zero => cases h
  | succ width ih =>
    rcases List.mem_append.1 h with h | h
    · exact ih h
    · rw [List.mem_singleton.1 h]
      exact hdigits _ (Nat.mod_lt _ (by decide))

theorem Encodes.le_toNat {c x : Char} {text : List Char} (h : Encodes c text) (hx : x ∈ text) :
    0x20 ≤ x.toNat := by
  cases h with
  | escape he =>
    rcases List.mem_pair.1 hx with rfl | rfl
    · decide
    · exact le_toNat_of_escape? he
  | code =>
    rcases List.mem_cons.1 hx with rfl | hx
    · decide
    rcases List.mem_cons.1 hx with rfl | hx
    · decide
    · exact le_toNat_of_mem_hex hx
  | self hcontrol =>
    rw [List.mem_singleton.1 hx]
    exact hcontrol

-- ---------------------------------------------------------------------------
-- Reading a character
-- ---------------------------------------------------------------------------

theorem hexDigit?_digitChar {d : Nat} (h : d < 16) : hexDigit? (Nat.digitChar d) = some d := by
  have hall : ∀ d < 16, hexDigit? (Nat.digitChar d) = some d := by decide
  exact hall d h

theorem exists_hex_of_toNat_lt {c : Char} (h : c.toNat < 0x10000) :
    ∃ i j k l, hex 4 c.toNat = [i, j, k, l] ∧ escapeCode? i j k l = some c := by
  refine ⟨_, _, _, _, rfl, ?_⟩
  have hcode : ((c.toNat / 16 / 16 / 16 % 16 * 16 + c.toNat / 16 / 16 % 16) * 16 +
      c.toNat / 16 % 16) * 16 + c.toNat % 16 = c.toNat := by omega
  have hmod (n : Nat) : hexDigit? (Nat.digitChar (n % 16)) = some (n % 16) :=
    hexDigit?_digitChar (Nat.mod_lt _ (by decide))
  simp only [escapeCode?, hmod, Option.bind_eq_bind, Option.bind_some, hcode, Char.ofNat_toNat]
  exact if_pos c.valid

theorem decodeBody_quote (rest : List Char) : decodeBody ('"' :: rest) = some ([], rest) := by
  unfold decodeBody
  rfl

theorem decodeBody_code {i j k l x : Char} (h : escapeCode? i j k l = some x) (rest : List Char) :
    decodeBody ('\\' :: 'u' :: i :: j :: k :: l :: rest) = (decodeBody rest).map (prepend x) := by
  rw [decodeBody, h]
  cases decodeBody rest <;> rfl

theorem decodeBody_escape {e x : Char} (h : escape? e = some x) (rest : List Char) :
    decodeBody ('\\' :: e :: rest) = (decodeBody rest).map (prepend x) := by
  rw [decodeBody, h]
  · cases decodeBody rest <;> rfl
  · rintro i j k l rest' rfl -
    cases h

theorem decodeBody_self {c : Char} (hcontrol : 0x20 ≤ c.toNat) (hquote : c ≠ '"')
    (hbackslash : c ≠ '\\') (rest : List Char) :
    decodeBody (c :: rest) = (decodeBody rest).map (prepend c) := by
  have hfeed : c ≠ '\n' := by rintro rfl; exact absurd hcontrol (by decide)
  have hreturn : c ≠ '\r' := by rintro rfl; exact absurd hcontrol (by decide)
  rw [decodeBody]
  · rw [if_neg (by simp [hbackslash, hfeed, hreturn])]
    cases decodeBody rest <;> rfl
  · exact hquote
  · rintro i j k l rest' rfl -
    exact hbackslash rfl
  · rintro e rest' rfl -
    exact hbackslash rfl

/-- What stands for a character is read as that character. -/
theorem decodeBody_encodeChar (c : Char) (rest : List Char) :
    decodeBody (encodeChar c ++ rest) = (decodeBody rest).map (prepend c) := by
  have h := encodes_encodeChar c
  generalize encodeChar c = text at h
  cases h with
  | escape he => exact decodeBody_escape he rest
  | code hc =>
    obtain ⟨i, j, k, l, hhex, hcode⟩ := exists_hex_of_toNat_lt (c := c) (by omega)
    rw [hhex]
    exact decodeBody_code hcode rest
  | self hcontrol hquote hbackslash => exact decodeBody_self hcontrol hquote hbackslash rest

-- ---------------------------------------------------------------------------
-- Literals
-- ---------------------------------------------------------------------------

theorem decodeBody_flatMap (s rest : List Char) :
    decodeBody (s.flatMap encodeChar ++ '"' :: rest) = some (s, rest) := by
  induction s with
  | nil => exact decodeBody_quote rest
  | cons c s ih =>
    rw [List.flatMap_cons, List.append_assoc, decodeBody_encodeChar, ih]
    rfl

theorem decode_encode (s rest : List Char) : decode (encode s ++ rest) = some (s, rest) := by
  have hencode : encode s ++ rest = '"' :: (s.flatMap encodeChar ++ '"' :: rest) := by
    simp [encode]
  rw [hencode]
  exact decodeBody_flatMap s rest

theorem le_toNat_of_mem_encode {s : List Char} {c : Char} (h : c ∈ encode s) : 0x20 ≤ c.toNat := by
  unfold encode at h
  rcases List.mem_cons.1 h with rfl | h
  · decide
  rcases List.mem_append.1 h with h | h
  · obtain ⟨x, -, hc⟩ := List.mem_flatMap.1 h
    exact (encodes_encodeChar x).le_toNat hc
  · rw [List.mem_singleton.1 h]
    decide

-- ---------------------------------------------------------------------------
-- Literals in code
-- ---------------------------------------------------------------------------

theorem length_lt_of_decodeBody {s value rest : List Char} (h : decodeBody s = some (value, rest)) :
    rest.length < s.length := by
  fun_induction decodeBody s generalizing value with
  | case1 => cases h
  | case2 tail => cases h; simp
  | case3 i j k l tail ih =>
    obtain ⟨x, -, h⟩ := Option.bind_eq_some_iff.1 h
    obtain ⟨found, hfound, h⟩ := Option.bind_eq_some_iff.1 h
    cases h
    have := ih hfound
    simp only [List.length_cons]
    omega
  | case4 e tail _ ih =>
    obtain ⟨x, -, h⟩ := Option.bind_eq_some_iff.1 h
    obtain ⟨found, hfound, h⟩ := Option.bind_eq_some_iff.1 h
    cases h
    have := ih hfound
    simp only [List.length_cons]
    omega
  | case5 => cases h
  | case6 c tail _ _ _ _ ih =>
    obtain ⟨found, hfound, h⟩ := Option.bind_eq_some_iff.1 h
    cases h
    have := ih hfound
    simp only [List.length_cons]
    omega

theorem length_lt_of_decode {s value rest : List Char} (h : decode s = some (value, rest)) :
    rest.length < s.length := by
  unfold decode at h
  split at h
  · exact Nat.lt_succ_of_lt (length_lt_of_decodeBody h)
  · cases h

/-- Whether a character is a piece of code by itself. A quote begins a literal, `#` begins a
    comment, and a backslash joins two lines. -/
def isCode (c : Char) : Bool := !(['"', '\'', '#', '\\'].contains c)

/-- The values of the literals in a piece of code, if there is nothing else in it than literals
    between double quotes and what is code by itself. Three quotes are not the beginning of such
    a literal. -/
def literals (code : List Char) : Option (List String) :=
  match code with
  | [] => some []
  | c :: cs =>
    if isCode c then literals cs
    else if Docstring.quotes.isPrefixOf (c :: cs) then none
    else match _h : decode (c :: cs) with
      | none => none
      | some (value, rest) => (literals rest).map (.ofList value :: ·)
termination_by code.length
decreasing_by
  · simp
  · exact length_lt_of_decode _h

/-- The literals of a piece of code are those of `values`, whatever follows it. -/
def Holds (code : String) (values : List String) : Prop :=
  ∀ rest, literals (code.toList ++ rest) = (literals rest).map (values ++ ·)

theorem holds_of_isCode {code : String} (h : AllChars isCode code := by decide) :
    Holds code [] := by
  intro rest
  have hcode (s : List Char) (hs : ∀ c ∈ s, isCode c = true) :
      literals (s ++ rest) = literals rest := by
    induction s with
    | nil => rfl
    | cons c s ih =>
      rw [List.cons_append, literals, if_pos (hs c (by simp)), ih fun d hd => hs d (by simp [hd])]
  rw [hcode code.toList h]
  exact Option.map_id'.symm

theorem Encodes.head?_ne_quote {c : Char} {text : List Char} (h : Encodes c text)
    (rest : List Char) : (text ++ rest).head? ≠ some '"' := by
  cases h with
  | escape => simp
  | code => simp
  | self _ hquote => simpa using hquote

/-- A literal and what follows it do not begin with three quotes. -/
theorem not_quotes_prefix_encode (s : List Char) {c : Char} (hc : c ≠ '"') (rest : List Char) :
    ¬ Docstring.quotes <+: encode s ++ c :: rest := by
  intro hquotes
  cases s with
  | nil =>
    have hthird : ['"'] <+: c :: rest := by
      simpa [encode, Docstring.quotes] using hquotes
    exact hc (List.cons_prefix_cons.1 hthird).1.symm
  | cons x s =>
    have hencode : encode (x :: s) ++ c :: rest =
        '"' :: (encodeChar x ++ (s.flatMap encodeChar ++ '"' :: c :: rest)) := by
      simp [encode]
    rw [hencode] at hquotes
    obtain ⟨tail, htail⟩ := (List.cons_prefix_cons.1 hquotes).2
    refine (encodes_encodeChar x).head?_ne_quote (s.flatMap encodeChar ++ '"' :: c :: rest) ?_
    rw [← htail]
    rfl

theorem literals_encode (s : List Char) {c : Char} (hc : c ≠ '"') (rest : List Char) :
    literals (encode s ++ c :: rest) = (literals (c :: rest)).map (.ofList s :: ·) := by
  have hquotes := not_quotes_prefix_encode s hc rest
  have hdecode := decode_encode s (c :: rest)
  have hcons : encode s ++ c :: rest = '"' :: (s.flatMap encodeChar ++ ['"'] ++ c :: rest) := rfl
  rw [hcons] at hquotes hdecode ⊢
  rw [literals, if_neg (by decide), if_neg (mt List.isPrefixOf_iff_prefix.1 hquotes)]
  split
  · next hnone => rw [hdecode] at hnone; cases hnone
  · next value rest' hsome =>
    rw [hdecode] at hsome
    cases hsome
    rfl

/-- A literal with some code behind it. -/
theorem holds_literal (value : String) {code : String} (hne : code ≠ "")
    (h : AllChars isCode code) : Holds (ofString value ++ code) [value] := by
  intro rest
  have hcode := holds_of_isCode h rest
  have htext : (ofString value ++ code).toList ++ rest =
      encode value.toList ++ (code.toList ++ rest) := by
    rw [String.toList_append, ofString, String.toList_ofList, List.append_assoc]
  obtain ⟨c, cs, hcs⟩ := List.exists_cons_of_ne_nil (mt String.toList_eq_nil_iff.1 hne)
  have hc : c ≠ '"' := by
    rintro rfl
    exact absurd (h '"' (by simp [hcs])) (by decide)
  rw [htext]
  rw [hcs, List.cons_append] at hcode ⊢
  rw [literals_encode _ hc, hcode, String.ofList_toList]
  cases literals rest <;> rfl

theorem Holds.literals_eq {code : String} {values : List String} (h : Holds code values) :
    literals code.toList = some values := by
  have hcode := h []
  rw [List.append_nil, literals] at hcode
  simpa using hcode

theorem Holds.append {a b : String} {values values' : List String} (ha : Holds a values)
    (hb : Holds b values') : Holds (a ++ b) (values ++ values') := by
  intro rest
  rw [String.toList_append, List.append_assoc, ha, hb]
  cases literals rest with
  | none => rfl
  | some found => simp

theorem Holds.plain {code next : String} {values : List String} (h : Holds code values)
    (hnext : Holds next []) : Holds (code ++ next) values := by
  simpa using h.append hnext

theorem Holds.code {code next : String} {values : List String} (h : Holds code values)
    (hnext : AllChars isCode next := by decide) : Holds (code ++ next) values :=
  h.plain (holds_of_isCode hnext)

/-- A literal between two pieces of code. -/
theorem Holds.literal {code next : String} {values : List String} (h : Holds code values)
    (value : String) (hne : next ≠ "" := by decide) (hnext : AllChars isCode next := by decide) :
    Holds (code ++ ofString value ++ next) (values ++ [value]) := by
  rw [String.append_assoc]
  exact h.append (holds_literal value hne hnext)

end ApiStubs.Text.Literal

-- ---------------------------------------------------------------------------
-- Literals in the text of a client
-- ---------------------------------------------------------------------------

namespace ApiStubs.Stub

open Text Literal

theorem holds_each {α : Type} {items : List α} {write value : α → String}
    (h : ∀ x ∈ items, Holds (write x) [value x]) : Holds (each items write) (items.map value) := by
  induction items with
  | nil =>
    have hnil : each [] write = "" := rfl
    rw [hnil]
    exact holds_of_isCode
  | cons x items ih =>
    have hcons : each (x :: items) write = write x ++ each items write := by simp [each]
    rw [hcons, List.map_cons]
    exact (h x (by simp)).append (ih fun y hy => h y (by simp [hy]))

theorem unlines_singleton (line : String) : unlines [line] = line ++ "\n" := by
  simp [unlines]

theorem unlines_pair (line line' : String) :
    unlines [line, line'] = line ++ "\n" ++ (line' ++ "\n") := by
  simp [unlines]

/-- An argument whose identifier and value are code without literals. -/
structure Argument.Plain (a : Argument) : Prop where
  attr : Holds a.attr []
  value : Holds a.value []

theorem isCode_of_isIdentifierChar {c : Char} (h : Naming.isIdentifierChar c = true) :
    isCode c = true := by
  have hall : ['"', '\'', '#', '\\'].all (!Naming.isIdentifierChar ·) = true := rfl
  unfold isCode
  rw [Bool.not_eq_true', ← Bool.not_eq_true, List.contains_iff_mem]
  intro hmem
  have hc := List.all_eq_true.1 hall c hmem
  simp [h] at hc

theorem Argument.plain_ofParam {p : ResolvedParam} (h : p.attr = Naming.identifier p.name) :
    (Argument.ofParam p).Plain := by
  have hattr : Holds p.attr [] := by
    refine holds_of_isCode fun c hc => ?_
    rw [h] at hc
    exact isCode_of_isIdentifierChar ((Naming.isIdentifier_identifier p.name).chars c hc)
  have hself : Holds ("self._" ++ p.attr) [] := (holds_of_isCode).append hattr
  have hserialized (serializer : String) (hname : AllChars isCode serializer) :
      Holds (serializer ++ "(self._" ++ p.attr ++ ")") [] :=
    ((holds_of_isCode hname).code.plain hattr).code
  refine ⟨hattr, ?_⟩
  unfold Argument.ofParam ParamType.serializer?
  cases p.type.shape with
  | stringList => exact hserialized "str_collection_parameter" (by decide)
  | list => exact hserialized "collection_parameter" (by decide)
  | normal => exact hself
  | string => exact hself
  | upload => exact hself

theorem holds_sent {a : Argument} (h : a.Plain) {code next : String} {values : List String}
    (hcode : Holds code values) (hnext : AllChars isCode next := by decide) :
    Holds (code ++ sent a ++ next) (values ++ [a.name]) := by
  have htext : sent a = "(" ++ ofString a.name ++ ", " ++ a.value ++ ")" := rfl
  have hsent : Holds (sent a) [a.name] := by
    rw [htext]
    exact (((holds_of_isCode).literal a.name).plain h.value).code
  exact (hcode.append hsent).code hnext

theorem holds_requiredParams {args : List Argument} (h : ∀ a ∈ args, a.Plain) :
    Holds (requiredParams args) (args.map (·.name)) := by
  unfold requiredParams
  split
  · next hempty =>
    rw [List.isEmpty_iff.1 hempty]
    exact holds_of_isCode
  · refine ((holds_of_isCode).append (holds_each fun a ha => ?_)).code
    have htext : unlines [s!"            {sent a},"] = "            " ++ sent a ++ "," ++ "\n" :=
      unlines_singleton _
    rw [htext]
    exact (holds_sent (h a ha) holds_of_isCode).code

theorem holds_optionalParam {a : Argument} (h : a.Plain) : Holds (optionalParam a) [a.name] := by
  have htext : optionalParam a =
      "        if self._" ++ a.attr ++ " is not None:" ++ "\n" ++
        ("            params.append(" ++ sent a ++ ")" ++ "\n") :=
    unlines_pair _ _
  have hline : Holds ("        if self._" ++ a.attr ++ " is not None:" ++ "\n") [] :=
    ((holds_of_isCode).plain h.attr).code.code
  rw [htext]
  exact hline.append (holds_sent h holds_of_isCode).code

/-- The texts that a request writes as literals: its URL, the placeholder in it and the method. -/
def Call.requestTexts (c : Call) : List String :=
  c.url.getD "None" :: (c.reserved.toList.map (·.placeholder) ++ [c.httpMethod.getD "None"])

theorem holds_urlLine {c : Call} (h : ∀ a ∈ c.reserved, a.Plain) :
    Holds ("        url = " ++ urlExpression c ++ "\n")
      (c.url.getD "None" :: c.reserved.toList.map (·.placeholder)) := by
  have hindent : Holds "        url = " [] := holds_of_isCode
  unfold urlExpression
  cases hreserved : c.reserved with
  | none => exact hindent.literal (c.url.getD "None")
  | some a =>
    have htext : "        url = " ++ (literalOrNone c.url ++ ".replace(" ++
          ofString a.placeholder ++ ", str(self._" ++ a.attr ++ "))") ++ "\n" =
        "        url = " ++ ofString (c.url.getD "None") ++ ".replace(" ++ ofString a.placeholder ++
          ", str(self._" ++ a.attr ++ "))" ++ "\n" := by
      simp only [String.append_assoc]
      rfl
    simp only [Script.text_string]
    rw [htext]
    exact (((hindent.literal _).literal _).plain (h a hreserved).attr).code.code

theorem holds_execution {c : Call} (h : ∀ a ∈ c.reserved, a.Plain)
    (hrequest : c.implFunction = none) : Holds (execution c) c.requestTexts := by
  have htext : execution c = "        url = " ++ urlExpression c ++ "\n" ++
      ("        return execute_core(self._client, " ++ ofString (c.httpMethod.getD "None") ++
        ", url, params)" ++ "\n") := by
    unfold execution
    rw [hrequest]
    exact unlines_pair _ _
  rw [htext]
  exact (holds_urlLine h).append ((holds_of_isCode).literal _).code

/-- The part of a request builder that puts the parameters together. -/
def Call.paramsText (c : Call) : String :=
  requiredParams c.serializedRequired ++ each c.optional optionalParam

/-- The line that begins the method of a request builder that makes the call. -/
def Call.executeLine (c : Call) : String :=
  s!"    def execute(self) -> TwitterResult[{c.returnType}]:"

theorem plain_of_resolve {nameSpace : String} {e : Endpoint} {r : ResolvedEndpoint}
    (h : (e.resolve nameSpace).value = some r) {p : ResolvedParam}
    (hp : p ∈ r.signature ++ r.optional) : (Argument.ofParam p).Plain := by
  refine Argument.plain_ofParam (attr_of_mem_resolve h ?_)
  rcases List.mem_append.1 hp with hp | hp
  · exact List.mem_append_left _ (mem_required_of_mem_signature h hp)
  · exact List.mem_append_right _ hp

/-- The arguments of a call have no literals in them but those that are written for them. -/
theorem plain_call {nameSpace : String} {e : Endpoint} {r : ResolvedEndpoint}
    (h : (e.resolve nameSpace).value = some r) (settings : Settings) :
    (∀ a ∈ (Call.ofResolved settings r).serializedRequired, a.Plain) ∧
      (∀ a ∈ (Call.ofResolved settings r).optional, a.Plain) ∧
      ∀ a ∈ (Call.ofResolved settings r).reserved, a.Plain := by
  obtain ⟨hreserved, -, hrequired, hoptional⟩ := arguments_of_resolve h settings
  rw [hreserved, hrequired, hoptional]
  refine ⟨fun a ha => ?_, fun a ha => ?_, fun a ha => ?_⟩
  · obtain ⟨p, hp, rfl⟩ := List.mem_map.1 ha
    exact plain_of_resolve h (List.mem_append_left _ (List.mem_append_right _ hp))
  · obtain ⟨p, hp, rfl⟩ := List.mem_map.1 ha
    exact plain_of_resolve h (List.mem_append_right _ hp)
  · obtain ⟨p, hp, rfl⟩ := Option.map_eq_some_iff.1 ha
    have hmem : p ∈ r.reserved.toList := Option.mem_toList.2 hp
    exact plain_of_resolve h (List.mem_append_left _ (List.mem_append_left _ hmem))

/-- A literal denotes the text it was written for and ends at its closing quote, whatever
    follows it, and there is no control character in it. So the method of a request builder
    that makes the call has exactly the literals that it is meant to have: the names of the
    parameters that are sent, and for a request its URL, the placeholder in it and the method. -/
theorem literals_denote :
    (∀ (value : String) (rest : List Char),
      decode ((ofString value).toList ++ rest) = some (value.toList, rest) ∧
      ∀ c ∈ (ofString value).toList, 0x20 ≤ c.toNat) ∧
    ∀ (settings : Settings) (t : Template), ∀ c ∈ (Section.build settings t).value.calls,
      (∃ head, c.renderBuilder settings.clientName =
        head ++ unlines ["", c.executeLine] ++ c.paramsText ++ execution c) ∧
      Holds c.paramsText ((c.serializedRequired ++ c.optional).map (·.name)) ∧
      (c.implFunction = none → Holds (execution c) c.requestTexts) := by
  refine ⟨fun value rest => ?_, fun settings t c hc => ?_⟩
  · rw [ofString, String.toList_ofList]
    exact ⟨decode_encode _ rest, fun c => le_toNat_of_mem_encode⟩
  · obtain ⟨e, -, r, hr, rfl⟩ := mem_calls_build.1 hc
    obtain ⟨hrequired, hoptional, hreserved⟩ := plain_call hr settings
    refine ⟨?_, ?_, holds_execution hreserved⟩
    · exact ⟨_, by rw [Call.paramsText, ← String.append_assoc]; rfl⟩
    · rw [List.map_append]
      exact (holds_requiredParams hrequired).append
        (holds_each fun a ha => holds_optionalParam (hoptional a ha))

/-- Names with quotes and a backslash, in requests and in a URL. -/
def archive : Template where
  nameSpace := "Archive"
  endpoints := [{
    name := "Find"
    url := some "find/\x7b\"id\"\x7d\n"
    params := [
      { kind := .required, pairs := [⟨"string", "a\\\""⟩] },
      { kind := .optional, pairs := [⟨"string", "\"), (\""⟩] }] }]

theorem literals_denote_archive :
    decode ((ofString "\x01\"").toList ++ ['"']) = some (['\x01', '"'], ['"']) ∧
    '\\' ∈ (ofString "\x01\"").toList ∧ 0x20 ≤ '\\'.toNat ∧
    ∃ c ∈ (Section.build {} archive).value.calls,
      literals c.paramsText.toList = some ["a\\\"", "\"), (\""] ∧
      c.requestTexts =
        ["https://api.twitter.com/1.1/find/\x7b\"id\"\x7d\n.json", "\x7b\"id\"\x7d", "GET"] ∧
      literals (execution c).toList = some c.requestTexts := by
  obtain ⟨hread, hcontrol⟩ := literals_denote.1 "\x01\"" ['"']
  have hmem : '\\' ∈ (ofString "\x01\"").toList := by decide +kernel
  refine ⟨hread, hmem, hcontrol _ hmem, ?_⟩
  obtain ⟨c, hc, hnames, hfunction, htexts⟩ :
      ∃ c ∈ (Section.build {} archive).value.calls,
        (c.serializedRequired ++ c.optional).map (·.name) = ["a\\\"", "\"), (\""] ∧
        c.implFunction = none ∧ c.requestTexts =
          ["https://api.twitter.com/1.1/find/\x7b\"id\"\x7d\n.json", "\x7b\"id\"\x7d", "GET"] := by
    decide +kernel
  obtain ⟨-, hparams, hrequest⟩ := literals_denote.2 {} archive c hc
  exact ⟨c, hc, hnames ▸ hparams.literals_eq, htexts, (hrequest hfunction).literals_eq⟩

end ApiStubs.Stub
