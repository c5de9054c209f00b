-- SUMMARY: What generating a client yields, and which files it depends on.
import ApiStubs.Generate
import ApiStubs.Proofs.Loading
import ApiStubs.Proofs.Resolution

/-!
# Generation

`generate` loads all templates before it writes anything. What it tries to load is a list
of attempts, those of the template directory and then those of the overrides. The first
error among them is the answer. If there is none the answer is the `client` of the merged
templates, and nothing can fail any more.

Since the attempts are all that the files have a part in, two workspaces that agree on the
template files of both directories generate the same.
-/

namespace ApiStubs

open Files Stub

-- ---------------------------------------------------------------------------
-- Overrides
-- ---------------------------------------------------------------------------

/-- What loading the overrides tries, in order. A directory that is not there has nothing
    to try, but one whose path cannot be followed is an error. -/
def overrideAttempts (w : Workspace) (overrides : Option String) (denyList : List String) :
    List (Except LoadError Template) :=
  match overrides with
  | none => []
  | some name =>
    match w.isDirectory (.parse name) with
    | .error failure => [.error (.unreachable failure)]
    | .ok true => attempts w (.parse name) denyList
    | .ok false => []

theorem value_loadOverrides (w : Workspace) (overrides : Option String) (denyList : List String) :
    Loading.value (loadOverrides w overrides denyList) =
      settle (overrideAttempts w overrides denyList) := by
  cases overrides with
  | none => rfl
  | some name =>
    unfold loadOverrides overrideAttempts
    dsimp only
    cases w.isDirectory (.parse name) with
    | error failure => rfl
    | ok found =>
      cases found with
      | true => exact value_loadTemplates w (.parse name) denyList
      | false => rfl

theorem firstError?_append {ε α : Type} (as bs : List (Except ε α)) :
    firstError? (as ++ bs) = (firstError? as).or (firstError? bs) :=
  List.findSome?_append

-- ---------------------------------------------------------------------------
-- The text of a client
-- ---------------------------------------------------------------------------

/-- Whether an endpoint gets a call. -/
def Endpoint.isKept (nameSpace : String) (e : Endpoint) : Bool :=
  (e.resolve nameSpace).value.isSome

/-- The client of some templates: the preamble, then a section for each template. Its count
    is the sum of the numbers of endpoints that are not dropped. -/
def client (settings : Settings) (templates : List Template) : Generated where
  text := (Preamble.build settings templates).render ++
    each templates fun t => (Section.build settings t).value.render
  count := (templates.map fun t => t.endpoints.countP (·.isKept t.nameSpace)).foldr (· + ·) 0

theorem Logged.value_mapM {α β : Type} (f : α → Logged β) (as : List α) :
    (as.mapM f).value = as.map fun a => (f a).value := by
  induction as with
  | nil => rfl
  | cons a as ih =>
    rw [List.mapM_cons, Logged.value_bind, Logged.value_bind, ih]
    rfl

theorem length_calls_build (settings : Settings) (t : Template) :
    (Section.build settings t).value.calls.length = t.endpoints.countP (·.isKept t.nameSpace) := by
  change (resolveCalls settings t.nameSpace t.endpoints).value.length = _
  rw [value_resolveCalls, List.length_filterMap_eq_countP]
  exact List.countP_congr fun e _ => by rw [Option.isSome_map]; rfl

theorem value_writeClient (settings : Settings) (templates : List Template) :
    (writeClient settings templates).value = client settings templates := by
  unfold writeClient client each
  simp only [Logged.value_bind, Logged.value_pure, Logged.value_mapM, List.map_map,
    List.length_flatMap, List.sum_eq_foldr, Generated.mk.injEq]
  refine ⟨rfl, ?_⟩
  exact congrArg (List.foldr (· + ·) 0)
    (List.map_congr_left fun t _ => length_calls_build settings t)

/-- An endpoint that is dropped leaves no trace in the client. -/
theorem client_without (settings : Settings) {t : Template} {before after : List Template}
    {kept rest : List Endpoint} {e : Endpoint} (hsplit : t.endpoints = kept ++ e :: rest)
    (hdrop : e.isKept t.nameSpace = false) :
    client settings (before ++ { t with endpoints := kept ++ rest } :: after) =
      client settings (before ++ t :: after) := by
  have hnone : (e.resolve t.nameSpace).value = none := by
    simpa [Endpoint.isKept] using hdrop
  have hcalls : (resolveCalls settings t.nameSpace (kept ++ rest)).value =
      (resolveCalls settings t.nameSpace t.endpoints).value := by
    simp [value_resolveCalls, hsplit, hnone]
  have hsection : (Section.build settings { t with endpoints := kept ++ rest }).value =
      (Section.build settings t).value := by
    change Section.mk _ _ _ _ (resolveCalls settings t.nameSpace (kept ++ rest)).value = _
    rw [hcalls]
    rfl
  have hpreamble :
      Preamble.build settings (before ++ { t with endpoints := kept ++ rest } :: after) =
        Preamble.build settings (before ++ t :: after) := by
    simp only [Preamble.build, List.map_append, List.map_cons]
    rfl
  have hcount : (kept ++ rest).countP (·.isKept t.nameSpace) =
      t.endpoints.countP (·.isKept t.nameSpace) := by
    simp [hsplit, List.countP_append, hdrop]
  unfold client each
  simp only [List.map_append, List.map_cons, hsection, hpreamble, hcount]

-- ---------------------------------------------------------------------------
-- All or nothing
-- ---------------------------------------------------------------------------

theorem value_generate (w : Workspace) (directory : String) (overrides : Option String)
    (settings : Settings) :
    let base := attempts w (.parse directory) settings.denyList
    let changes := overrideAttempts w overrides settings.denyList
    Loading.value (generate w directory overrides settings) =
      match firstError? (base ++ changes) with
      | some e => .error e
      | none =>
        .ok (client settings (Template.merge (successes base) (successes changes)).value) := by
  intro base changes
  unfold generate
  rw [Loading.value_bind, value_loadTemplates, firstError?_append]
  change settle base >>= _ = _
  unfold settle
  -- After an error among the templates the overrides are not looked at.
  cases firstError? base with
  | some e => rfl
  | none =>
    change Loading.value (loadOverrides w overrides settings.denyList >>= _) = _
    rw [Loading.value_bind, value_loadOverrides]
    change settle changes >>= _ = _
    unfold settle
    cases firstError? changes with
    | some e => rfl
    | none => exact congrArg Except.ok (value_writeClient settings _)

/-- Generating a client yields the first error in the order of loading, without any text, or
    the client of the merged templates. What is loaded from a directory are its regular files
    that are not denied, in the order of their names. An endpoint that is dropped leaves no
    trace in the client, and every other one finds the parameter that its URL names. -/
theorem generate_eq_client_or_first_error (w : Workspace) (directory : String)
    (overrides : Option String) (settings : Settings) :
    (let base := attempts w (.parse directory) settings.denyList
     let changes := overrideAttempts w overrides settings.denyList
     Loading.value (generate w directory overrides settings) =
      match firstError? (base ++ changes) with
      | some e => .error e
      | none => .ok (client settings (Template.merge (successes base) (successes changes)).value)) ∧
    (∀ p files, listing w p settings.denyList = .ok files →
      files.Pairwise (·.1 < ·.1) ∧
        ∀ name octets, (name, octets) ∈ files ↔ name ∉ settings.denyList ∧ w.Holds p name octets) ∧
    (∀ before t after kept e rest, t.endpoints = kept ++ e :: rest →
      e.isKept t.nameSpace = false →
        client settings (before ++ { t with endpoints := kept ++ rest } :: after) =
          client settings (before ++ t :: after)) ∧
    ∀ nameSpace (e : Endpoint) r, (e.resolve nameSpace).value = some r →
      r.reserved.map (·.name) = placeholder? e.url :=
  ⟨value_generate w directory overrides settings,
    fun _ _ h => ⟨pairwise_listing h, mem_listing h⟩,
    fun _ _ _ _ _ _ hsplit hdrop => client_without settings hsplit hdrop,
    fun _ _ _ h => Endpoint.reserved_of_resolve h⟩

-- ---------------------------------------------------------------------------
-- Dependence on files
-- ---------------------------------------------------------------------------

theorem overrideAttempts_congr {w w' : Workspace} {overrides : Option String}
    {denyList : List String}
    (h : ∀ name ∈ overrides, SameTemplates w w' (.parse name) denyList) :
    overrideAttempts w overrides denyList = overrideAttempts w' overrides denyList := by
  cases overrides with
  | none => rfl
  | some name =>
    unfold overrideAttempts
    dsimp only
    rw [isDirectory_congr (h name rfl), attempts_congr (h name rfl)]

theorem value_generate_of_hides {w : Workspace} {directory name : String} (settings : Settings)
    (overrides : Option String) (h : w.Hides (.parse directory) name) :
    ∃ path, Loading.value (generate w directory overrides settings) =
      .error (.unreachable ⟨.tooLong, path⟩) := by
  obtain ⟨path, hlisting⟩ := listing_of_hides settings.denyList h
  have hattempts : attempts w (.parse directory) settings.denyList =
      [.error (.unreachable ⟨.tooLong, path⟩)] := by
    unfold attempts
    rw [hlisting]
  refine ⟨path, ?_⟩
  rw [value_generate, hattempts]
  rfl

/-- Two workspaces that agree on the template files of both directories generate the same
    client, or fail with the same error. An entry whose path is too long is an error even if
    it is denied. -/
theorem generate_congr {w w' : Workspace} {directory : String} {overrides : Option String}
    {settings : Settings} (hbase : SameTemplates w w' (.parse directory) settings.denyList)
    (hchanges : ∀ name ∈ overrides, SameTemplates w w' (.parse name) settings.denyList) :
    Loading.value (generate w directory overrides settings) =
        Loading.value (generate w' directory overrides settings) ∧
      ∀ name, w.Hides (.parse directory) name → ∃ path,
        Loading.value (generate w directory overrides settings) =
          .error (.unreachable ⟨.tooLong, path⟩) := by
  refine ⟨?_, fun name h => value_generate_of_hides settings overrides h⟩
  rw [value_generate, value_generate, attempts_congr hbase, overrideAttempts_congr hchanges]

/-- An override that adds an endpoint. -/
def overrideOctets : List UInt8 :=
  "#namespace A\nendpoint void X:Impl\x7b\x7d".toUTF8.toList

/-- Two templates and an override, beside a denied file that is not text and a subdirectory. -/
def cluttered : Workspace where
  root := .directory [
    ("over", .directory [("a.api", .file overrideOctets)]),
    ("api", .directory [
      ("b.api", .file "#namespace B".toUTF8.toList),
      ("test.api", .file [0xFF]),
      ("old", .directory [("c.api", .file "#".toUTF8.toList)]),
      ("a.api", .file "#namespace A".toUTF8.toList)])]

/-- The same templates and override in another order, with nothing beside them. -/
def tidy : Workspace where
  root := .directory [
    ("api", .directory [
      ("a.api", .file "#namespace A".toUTF8.toList),
      ("b.api", .file "#namespace B".toUTF8.toList)]),
    ("over", .directory [("a.api", .file overrideOctets)])]

theorem generate_congr_cluttered :
    SameTemplates cluttered tidy (.parse "api") ({} : Settings).denyList ∧
      SameTemplates cluttered tidy (.parse "over") ({} : Settings).denyList ∧
      Loading.value (generate cluttered "api" (some "over") ({} : Settings)) =
        Loading.value (generate tidy "api" (some "over") ({} : Settings)) := by
  have hapi : SameTemplates cluttered tidy (.parse "api") ({} : Settings).denyList := by
    have hlisted : cluttered.listed? (.parse "api") =
        some ["b.api", "test.api", "old", "a.api"] := by
      decide +kernel
    have hlisted' : tidy.listed? (.parse "api") = some ["a.api", "b.api"] := by decide +kernel
    have hcluttered : cluttered.names (.parse "api") = .ok ["a.api", "b.api", "old", "test.api"] :=
      names_eq_ok hlisted (by decide) (by decide +kernel)
    have htidy : tidy.names (.parse "api") = .ok ["a.api", "b.api"] :=
      names_eq_ok hlisted' (by decide) (by decide +kernel)
    refine .of_listing (listing_of_names hcluttered (by decide +kernel)) ?_
    rw [listing_of_names htidy (by decide +kernel)]
    decide +kernel
  have hover : SameTemplates cluttered tidy (.parse "over") ({} : Settings).denyList := by
    have hcluttered : cluttered.names (.parse "over") = .ok ["a.api"] := by decide +kernel
    have htidy : tidy.names (.parse "over") = .ok ["a.api"] := by decide +kernel
    refine .of_listing (listing_of_names hcluttered (by decide +kernel)) ?_
    rw [listing_of_names htidy (by decide +kernel)]
    decide +kernel
  refine ⟨hapi, hover, (generate_congr hapi ?_).1⟩
  rintro name ⟨⟩
  exact hover

end ApiStubs
