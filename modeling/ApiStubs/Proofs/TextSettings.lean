-- SUMMARY: Settings that are text give the client that is generated from them as text.
import ApiStubs.Generate
import ApiStubs.Proofs.Encoding

/-!
# Settings that are text

What is generated from raw settings is a raw text. `generate_raw` says that raw settings which
are text give the same client as these settings do as text. So all that is known of clients
from text settings holds for the clients of raw settings that are text.
-/

namespace ApiStubs

open Text

-- ---------------------------------------------------------------------------
-- Texts as raw texts
-- ---------------------------------------------------------------------------

namespace Text.RawText

theorem text_eq (s : String) : (Script.text s : RawText) = ofString s := rfl

theorem ofString_append (a b : String) : ofString (a ++ b) = ofString a ++ ofString b := by
  simp [ofString, ofChars]

theorem ofString_join (pieces : List String) :
    ofString (String.join pieces) = Script.join (pieces.map ofString) := by
  induction pieces with
  | nil => rfl
  | cons s pieces ih =>
    rw [String.join_cons, ofString_append, ih]
    rfl

theorem isEmpty_ofString (s : String) : Script.isEmpty (ofString s) = Script.isEmpty s := by
  change (s.toList.map Symbol.char).isEmpty = decide (s = "")
  rw [Bool.eq_iff_iff]
  simp

theorem literal_ofString (s : String) :
    Script.literal (ofString s) = ofString (Script.literal s) := by
  change Symbol.char '"' :: (s.toList.map Symbol.char).flatMap Literal.encodeSymbol ++ [.char '"'] =
    ofString (Literal.ofString s)
  simp [Literal.ofString, Literal.encode, ofString, ofChars, List.flatMap_map, List.map_flatMap,
    Literal.encodeSymbol]

theorem isSuffixOf_ofString (suffix s : String) :
    Script.isSuffixOf (ofString suffix) s = Script.isSuffixOf suffix s := by
  change (suffix.toList.map Symbol.char).isSuffixOf (s.toList.map Symbol.char) =
    suffix.toList.isSuffixOf s.toList
  rw [Bool.eq_iff_iff, List.isSuffixOf_iff_suffix, List.isSuffixOf_iff_suffix]
  constructor
  · rintro ⟨front, hfront⟩
    obtain ⟨first, last, hs, -, hlast⟩ := List.map_eq_append_iff.1 hfront.symm
    rw [hs, (List.map_inj_right fun _ _ => Symbol.char.inj).1 hlast]
    exact List.suffix_append first _
  · intro h
    exact h.map Symbol.char

theorem dropSlashes_ofString (s : String) :
    Script.dropSlashes (ofString s) = ofString (Script.dropSlashes s) := by
  change (s.toList.map Symbol.char).dropWhile (· = .char '/') =
    ofString (.ofList (s.toList.dropWhile (· = '/')))
  simp [ofString, ofChars, List.dropWhile_map, Function.comp_def]

theorem pieces_ofString (separator : Char) (s : String) :
    Script.pieces separator (ofString s) = Script.pieces separator s := by
  change (splitAt (Symbol.char separator) (s.toList.map Symbol.char)).filterMap chars? =
    splitAt separator s.toList
  have hsplit (cs : List Char) : splitAt (Symbol.char separator) (cs.map Symbol.char) =
      (splitAt separator cs).map ofChars := by
    induction cs with
    | nil => rfl
    | cons c cs ih =>
      obtain ⟨piece, pieces, hcs⟩ := exists_splitAt separator cs
      by_cases hc : c = separator
      · rw [hc, splitAt_cons_self, List.map_cons, splitAt_cons_self, ih]
        rfl
      · rw [hcs] at ih
        rw [splitAt_cons_of_ne hc hcs, List.map_cons,
          splitAt_cons_of_ne (fun h => hc (Symbol.char.inj h)) ih]
        rfl
  have hchars : chars? ∘ ofChars = some := funext chars?_ofChars
  rw [hsplit, List.filterMap_map, hchars, List.filterMap_some]

end Text.RawText

-- ---------------------------------------------------------------------------
-- Settings
-- ---------------------------------------------------------------------------

open RawText

/-- The settings as raw texts. -/
def Settings.raw (s : Settings) : Settings RawText where
  runtime := ofString s.runtime
  clientName := ofString s.clientName
  baseUrl := ofString s.baseUrl
  urlSuffix := ofString s.urlSuffix
  denyList := s.denyList

/-- The variables that change settings hold the texts in UTF-8. -/
def Environment.Spells (env : Environment (List UInt8)) (texts : Environment) : Prop :=
  ∀ key ∈ Settings.environmentKeys,
    (env.lookup key).map Utf8.decode = (texts.lookup key).map fun s => .ok s.toList

/-- The environment with raw texts. -/
def Environment.raw (env : Environment) : Environment RawText :=
  env.map fun (key, value) => (key, ofString value)

theorem lookup_map {α β : Type} (f : α → β) (values : List (String × α)) (key : String) :
    (values.map fun (name, value) => (name, f value)).lookup key =
      (values.lookup key).map f := by
  induction values with
  | nil => rfl
  | cons first values ih =>
    obtain ⟨name, value⟩ := first
    rw [List.map_cons, List.lookup_cons, List.lookup_cons, ih]
    split <;> rfl

theorem Environment.lookup_raw (env : Environment) (key : String) :
    env.raw.lookup key = (env.lookup key).map ofString :=
  lookup_map ofString env key

theorem Environment.nonempty?_raw (env : Environment) (key : String) :
    env.raw.nonempty? key = (env.nonempty? key).map ofString := by
  unfold nonempty?
  rw [lookup_raw]
  cases env.lookup key with
  | none => rfl
  | some value =>
    rw [Option.map_some, Option.filter_some, Option.filter_some, isEmpty_ofString]
    split <;> rfl

namespace Settings

theorem ofEnvironment_raw (env : Environment) :
    Settings.ofEnvironment env.raw = (Settings.ofEnvironment env).raw := by
  have hnames : namesOf ∘ ofString = namesOf := by
    funext list
    unfold namesOf
    rw [Function.comp_apply, pieces_ofString]
  unfold ofEnvironment raw
  simp only [Environment.nonempty?_raw, Environment.lookup_raw, Option.map_map, hnames, text_eq,
    Script.text_string, Option.getD_map]

/-- The variables that change settings decide them. -/
theorem ofEnvironment_congr {τ : Type} [Append τ] [Script τ] {env env' : Environment τ}
    (h : ∀ key ∈ environmentKeys, env.lookup key = env'.lookup key) :
    Settings.ofEnvironment env = Settings.ofEnvironment env' := by
  unfold ofEnvironment Environment.nonempty?
  rw [h "CLIENTGEN_RUNTIME" (by decide), h "CLIENTGEN_CLIENT_NAME" (by decide),
    h "CLIENTGEN_BASE_URL" (by decide), h "CLIENTGEN_URL_SUFFIX" (by decide),
    h "CLIENTGEN_DENY_LIST" (by decide)]

/-- Variables that are text set what they set as text. -/
theorem ofEnvironment_decode {env : Environment (List UInt8)} {texts : Environment}
    (h : env.Spells texts) :
    Settings.ofEnvironment env.decode = (Settings.ofEnvironment texts).raw := by
  rw [← ofEnvironment_raw]
  refine ofEnvironment_congr fun key hkey => ?_
  have hread := h key hkey
  rw [Environment.lookup_raw, Environment.decode, lookup_map]
  cases htext : texts.lookup key with
  | none =>
    rw [htext] at hread
    rw [Option.map_eq_none_iff.1 hread]
    rfl
  | some s =>
    rw [htext] at hread
    obtain ⟨octets, hoctets, hdecode⟩ := Option.map_eq_some_iff.1 hread
    rw [hoctets, Option.map_some, Option.map_some, Utf8.decodeRaw_of_decode hdecode]
    rfl

theorem withSuffix_raw (s : Settings) (url : String) :
    s.raw.withSuffix url = ofString (s.withSuffix url) := by
  unfold withSuffix
  rw [show s.raw.urlSuffix = ofString s.urlSuffix from rfl, isSuffixOf_ofString]
  split
  · rfl
  · exact (ofString_append url s.urlSuffix).symm

theorem resolveUrl_raw (s : Settings) (url : String) :
    s.raw.resolveUrl url = ofString (s.resolveUrl url) := by
  unfold resolveUrl
  split
  · rfl
  · rw [withSuffix_raw, dropSlashes_ofString]
    exact (ofString_append s.baseUrl _).symm

end Settings

-- ---------------------------------------------------------------------------
-- Stubs
-- ---------------------------------------------------------------------------

namespace Stub

def Call.raw (c : Call) : Call RawText where
  name := c.name
  methodName := c.methodName
  builderClass := c.builderClass
  returnType := c.returnType
  doc := c.doc
  httpMethod := c.httpMethod
  implFunction := c.implFunction
  url := c.url.map ofString
  reserved := c.reserved
  signature := c.signature
  serializedRequired := c.serializedRequired
  optional := c.optional

def Section.raw (s : Section) : Section RawText where
  nameSpace := s.nameSpace
  clientClass := s.clientClass
  clientName := ofString s.clientName
  description := s.description
  calls := s.calls.map Call.raw

theorem ofResolved_raw (settings : Settings) (r : ResolvedEndpoint) :
    Call.ofResolved settings.raw r = (Call.ofResolved settings r).raw := by
  have hurl : r.url.map settings.raw.resolveUrl =
      (r.url.map settings.resolveUrl).map ofString := by
    rw [Option.map_map]
    exact congrArg (r.url.map ·) (funext settings.resolveUrl_raw)
  unfold Call.ofResolved Call.raw
  rw [hurl]

theorem resolveCalls_raw (settings : Settings) (nameSpace : String) (es : List Endpoint) :
    resolveCalls settings.raw nameSpace es =
      List.map Call.raw <$> resolveCalls settings nameSpace es := by
  induction es with
  | nil => rfl
  | cons e es ih =>
    unfold resolveCalls
    rw [ih]
    have hcall (resolved : Option ResolvedEndpoint) :
        (resolved.map (Call.ofResolved settings.raw)).toList =
          (resolved.map (Call.ofResolved settings)).toList.map Call.raw := by
      cases resolved with
      | none => rfl
      | some r => exact congrArg ([·]) (ofResolved_raw settings r)
    simp only [map_bind, map_pure, bind_map_left, hcall, List.map_append]

theorem build_raw (settings : Settings) (t : Template) :
    Section.build settings.raw t = Section.raw <$> Section.build settings t := by
  unfold Section.build
  rw [resolveCalls_raw]
  simp only [map_bind, map_pure, bind_map_left]
  rfl

theorem unlines_raw (ls : List String) : unlines (ls.map ofString) = ofString (unlines ls) := by
  unfold unlines
  rw [Script.join_string, ofString_join, List.map_map, List.map_map]
  refine congrArg Script.join (List.map_congr_left fun l _ => ?_)
  exact (ofString_append l "\n").symm

theorem each_raw {α β : Type} {f : α → β} (items : List α) {write : α → String}
    {writeRaw : β → RawText} (h : ∀ a, writeRaw (f a) = ofString (write a)) :
    each (items.map f) writeRaw = ofString (each items write) := by
  unfold each
  rw [Script.join_string, ofString_join, List.map_map, List.map_map]
  exact congrArg Script.join (List.map_congr_left fun a _ => h a)

theorem Preamble.render_raw (settings : Settings) (templates : List Template) :
    (Preamble.build settings.raw templates).render =
      ofString (Preamble.build settings templates).render := by
  unfold Preamble.render
  simp only [ofString_append, ← unlines_raw, List.map_cons, List.map_nil, text_eq,
    Script.text_string]
  rfl

theorem urlExpression_raw (c : Call) : urlExpression c.raw = ofString (urlExpression c) := by
  have hurl : literalOrNone c.raw.url = ofString (literalOrNone c.url) := by
    unfold literalOrNone
    rw [← literal_ofString, text_eq]
    exact congrArg Script.literal (Option.getD_map ofString "None" c.url)
  unfold urlExpression
  rw [show c.raw.reserved = c.reserved from rfl]
  cases c.reserved with
  | none => exact hurl
  | some a =>
    simp only [hurl, ofString_append, text_eq, Script.text_string]

theorem execution_raw (c : Call) : execution c.raw = ofString (execution c) := by
  unfold execution
  rw [show c.raw.implFunction = c.implFunction from rfl,
    show c.raw.httpMethod = c.httpMethod from rfl, urlExpression_raw]
  have hrequest (method : String) :
      unlines [Script.text "        url = " ++ ofString (urlExpression c), Script.text method] =
        ofString
          (unlines [Script.text "        url = " ++ urlExpression c, Script.text method]) := by
    simp only [← unlines_raw, List.map_cons, List.map_nil, ofString_append, text_eq,
      Script.text_string]
  cases c.implFunction with
  | none => exact hrequest _
  | some function =>
    dsimp only
    split
    · exact hrequest _
    · rfl

theorem renderBuilder_raw (clientName : String) (c : Call) :
    c.raw.renderBuilder (ofString clientName) = ofString (c.renderBuilder clientName) := by
  unfold Call.renderBuilder
  rw [execution_raw]
  simp only [ofString_append, ← unlines_raw, List.map_cons, List.map_nil, text_eq,
    Script.text_string]
  rfl

theorem Section.render_raw (s : Section) : s.raw.render = ofString s.render := by
  have hbuilders : each s.raw.calls (Call.renderBuilder s.raw.clientName) =
      ofString (each s.calls (Call.renderBuilder s.clientName)) :=
    each_raw s.calls (renderBuilder_raw s.clientName)
  have hmethods : each s.raw.calls Call.renderMethod = each s.calls Call.renderMethod := by
    unfold each
    rw [show s.raw.calls = s.calls.map Call.raw from rfl, List.map_map]
    rfl
  unfold Section.render
  rw [hbuilders, hmethods]
  simp only [ofString_append, ← unlines_raw, List.map_cons, List.map_nil, text_eq,
    Script.text_string]
  rfl

end Stub

-- ---------------------------------------------------------------------------
-- Generation
-- ---------------------------------------------------------------------------

def Generated.raw (g : Generated) : Generated RawText where
  text := ofString g.text
  count := g.count

theorem writeClient_raw (settings : Settings) (templates : List Template) :
    writeClient settings.raw templates = Generated.raw <$> writeClient settings templates := by
  have hsections : templates.mapM (Stub.Section.build settings.raw) =
      List.map Stub.Section.raw <$> templates.mapM (Stub.Section.build settings) := by
    induction templates with
    | nil => rfl
    | cons t templates ih =>
      rw [List.mapM_cons, List.mapM_cons, ih, Stub.build_raw]
      simp only [map_bind, map_pure, bind_map_left, List.map_cons]
  have hcount (sections : List Stub.Section) :
      ((sections.map Stub.Section.raw).flatMap (·.calls)).length =
        (sections.flatMap (·.calls)).length := by
    simp [List.length_flatMap, Function.comp_def, Stub.Section.raw]
  have htext (sections : List Stub.Section) :
      (Stub.Preamble.build settings.raw templates).render ++
          Stub.each (sections.map Stub.Section.raw) Stub.Section.render =
        ofString ((Stub.Preamble.build settings templates).render ++
          Stub.each sections Stub.Section.render) := by
    rw [ofString_append, Stub.Preamble.render_raw, Stub.each_raw sections Stub.Section.render_raw]
  unfold writeClient
  rw [hsections]
  simp only [map_bind, map_pure, bind_map_left, hcount, htext]
  rfl

/-- Raw settings that are text give the same client as the text settings. -/
theorem generate_raw (w : Files.Workspace) (directory : String) (overrides : Option String)
    (settings : Settings) :
    generate w directory overrides settings.raw =
      Generated.raw <$> generate w directory overrides settings := by
  unfold generate
  simp only [map_bind, writeClient_raw, liftM_map]
  rfl

end ApiStubs
