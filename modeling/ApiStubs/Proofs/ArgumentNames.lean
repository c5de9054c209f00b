-- SUMMARY: When the arguments of a generated call have distinct names.
import ApiStubs.Proofs.Buckets
import ApiStubs.Proofs.Resolution

/-!
# Names of arguments

Sorting parameters keeps one of each identifier, so their names in generated code differ.
The parameter that a URL names is looked up afterwards, by its own name. If it is among the
kept ones it only moves. If it is not, it is added, and nothing asks whether the first
parameter of its identifier has another name. `nodup_attrs_iff` says that this is the only
way for two arguments to get one name.
-/

namespace ApiStubs

-- ---------------------------------------------------------------------------
-- The reserved parameter
-- ---------------------------------------------------------------------------

section Pairs

variable {ps : List TypedName} (hdistinct : (ps.map (·.name)).Nodup)
include hdistinct

theorem find?_name_of_mem {p : TypedName} (hp : p ∈ ps) : ps.find? (·.name = p.name) = some p := by
  cases hfind : ps.find? (·.name = p.name) with
  | none =>
    have hne := List.find?_eq_none.1 hfind p hp
    simp at hne
  | some q =>
    have hname : q.name = p.name := by simpa using List.find?_some hfind
    rw [List.inj_on_of_nodup_map hdistinct (List.mem_of_find?_eq_some hfind) hp hname]

/-- Only one parameter has a given name. -/
theorem filter_name_ne {before after : List TypedName} {p : TypedName}
    (hps : ps = before ++ p :: after) : ps.filter (·.name ≠ p.name) = before ++ after := by
  rw [hps, List.map_append, List.map_cons, List.nodup_middle, ← List.map_append,
    List.nodup_cons] at hdistinct
  have hothers : ∀ q ∈ before ++ after, q.name ≠ p.name := fun q hq heq =>
    hdistinct.1 (List.mem_map.2 ⟨q, hq, heq⟩)
  rw [hps, List.filter_append, List.filter_cons_of_neg (by simp), ← List.filter_append]
  exact List.filter_eq_self.2 fun q hq => by simpa using hothers q hq

end Pairs

section Reserved

variable {name : String} {required optional : List TypedName}

/-- A reserved parameter that is declared only moves. -/
theorem perm_withReserved (hdistinct : ((required ++ optional).map (·.name)).Nodup)
    (h : ∃ p ∈ required ++ optional, p.name = name) :
    ((withReserved (some name) required optional).1 ++
      (withReserved (some name) required optional).2).Perm (required ++ optional) := by
  obtain ⟨p, hp, rfl⟩ := h
  unfold withReserved
  dsimp only
  split
  · exact .refl _
  · next hrequired =>
    have hoptional : p ∈ optional := by
      refine (List.mem_append.1 hp).resolve_left fun hmem => hrequired ?_
      exact List.any_eq_true.2 ⟨p, hmem, decide_eq_true rfl⟩
    have hnames := (List.sublist_append_right required _).map (·.name) |>.nodup hdistinct
    have hfind := find?_name_of_mem hnames hoptional
    obtain ⟨before, after, rfl⟩ := List.append_of_mem hoptional
    have hmiddle : (required ++ before ++ p :: after).Perm (p :: (required ++ before ++ after)) :=
      List.perm_middle
    rw [hfind, filter_name_ne hnames rfl, Option.getD_some, List.cons_append, ← List.append_assoc]
    rw [List.append_assoc] at hmiddle
    exact hmiddle.symm

/-- A reserved parameter that is not declared is added as a string. -/
theorem withReserved_of_undeclared (h : ∀ p ∈ required ++ optional, p.name ≠ name) :
    withReserved (some name) required optional = (⟨"string", name⟩ :: required, optional) := by
  have hrequired : required.any (·.name = name) = false := by
    simpa using fun p hp => h p (List.mem_append_left _ hp)
  have hoptional : ∀ p ∈ optional, p.name ≠ name := fun p hp => h p (List.mem_append_right _ hp)
  unfold withReserved
  dsimp only
  rw [hrequired, List.find?_eq_none.2 (by simpa using hoptional),
    List.filter_eq_self.2 (by simpa using hoptional)]
  rfl

end Reserved

namespace Endpoint

/-- The parameters of an endpoint, sorted. -/
def buckets (nameSpace : String) (e : Endpoint) : Buckets :=
  (Buckets.ofParams (endpointLabel nameSpace e.name) e.params).value

/-- The parameter that is kept under the identifier of a name: the first one that the
    unguarded lines declare. -/
def holder? (e : Endpoint) (name : String) : Option TypedName :=
  (Param.declaredBy e.params).find? (·.identifier = Naming.identifier name)

theorem sorts_buckets (nameSpace : String) (e : Endpoint) :
    (e.buckets nameSpace).Sorts (Param.declaredBy e.params) :=
  Buckets.sorts_ofParams _ e.params

theorem perm_buckets (nameSpace : String) (e : Endpoint) :
    ((e.buckets nameSpace).allRequired ++ (e.buckets nameSpace).allOptional).Perm
      (e.buckets nameSpace).kept :=
  (Buckets.perm_members _).trans (e.sorts_buckets nameSpace).members

/-- Sorted parameters of one name have one identifier, so their names are distinct. -/
theorem nodup_names_buckets (nameSpace : String) (e : Endpoint) :
    (((e.buckets nameSpace).allRequired ++ (e.buckets nameSpace).allOptional).map
      (·.name)).Nodup := by
  have hkept : ((e.buckets nameSpace).kept.map (·.name)).Nodup := by
    refine List.Nodup.of_map Naming.identifier ?_
    rw [List.map_map]
    exact (e.sorts_buckets nameSpace).distinct
  exact ((e.perm_buckets nameSpace).map _).nodup_iff.2 hkept

theorem parameters_eq (nameSpace : String) (e : Endpoint) :
    e.parameters nameSpace = withReserved (placeholder? e.url) (e.buckets nameSpace).allRequired
      (e.buckets nameSpace).allOptional :=
  rfl

/-- The parameters of an endpoint are the kept ones, or those and the one that its URL
    names. -/
theorem parameters_cases (nameSpace : String) (e : Endpoint) :
    (((e.parameters nameSpace).1 ++ (e.parameters nameSpace).2).Perm (e.buckets nameSpace).kept ∧
        ∀ name ∈ placeholder? e.url, ∃ p ∈ (e.buckets nameSpace).kept, p.name = name) ∨
      ∃ name, placeholder? e.url = some name ∧
        (∀ p ∈ (e.buckets nameSpace).kept, p.name ≠ name) ∧
        e.parameters nameSpace =
          (⟨"string", name⟩ :: (e.buckets nameSpace).allRequired,
            (e.buckets nameSpace).allOptional) := by
  have hperm := e.perm_buckets nameSpace
  rw [parameters_eq]
  cases hplace : placeholder? e.url with
  | none => exact .inl ⟨hperm, by simp⟩
  | some name =>
    by_cases hdeclared : ∃ p ∈ (e.buckets nameSpace).kept, p.name = name
    · refine .inl ⟨?_, by rintro _ ⟨⟩; exact hdeclared⟩
      refine (perm_withReserved (e.nodup_names_buckets nameSpace) ?_).trans hperm
      obtain ⟨p, hp, hname⟩ := hdeclared
      exact ⟨p, hperm.mem_iff.2 hp, hname⟩
    · have hne : ∀ p ∈ (e.buckets nameSpace).kept, p.name ≠ name := fun p hp hname =>
        hdeclared ⟨p, hp, hname⟩
      refine .inr ⟨name, rfl, hne, ?_⟩
      exact withReserved_of_undeclared fun p hp => hne p (hperm.mem_iff.1 hp)

theorem mem_of_holder? {nameSpace : String} {e : Endpoint} {name : String} {p : TypedName}
    (h : e.holder? name = some p) :
    p ∈ (e.buckets nameSpace).kept ∧ p.identifier = Naming.identifier name := by
  unfold holder? at h
  rw [← (e.sorts_buckets nameSpace).first] at h
  exact ⟨List.mem_of_find?_eq_some h, by simpa using List.find?_some h⟩

theorem holder?_eq_none_iff {nameSpace : String} {e : Endpoint} {name : String} :
    e.holder? name = none ↔
      Naming.identifier name ∉ (e.buckets nameSpace).kept.map (·.identifier) := by
  unfold holder?
  rw [← (e.sorts_buckets nameSpace).first, List.find?_eq_none]
  simp

/-- The parameters of an endpoint have distinct identifiers, unless its URL names one that
    is not declared and whose identifier is in use. -/
theorem nodup_identifiers_iff (nameSpace : String) (e : Endpoint) :
    (((e.parameters nameSpace).1 ++ (e.parameters nameSpace).2).map (·.identifier)).Nodup ↔
      ∀ name ∈ placeholder? e.url, ∀ p ∈ e.holder? name, p.name = name := by
  have hdistinct := (e.sorts_buckets nameSpace).distinct
  rcases e.parameters_cases nameSpace with ⟨hperm, hdeclared⟩ | ⟨name, hplace, hne, heq⟩
  · refine iff_of_true ((hperm.map _).nodup_iff.2 hdistinct) fun name hname p hp => ?_
    obtain ⟨q, hq, rfl⟩ := hdeclared name hname
    obtain ⟨hkept, hidentifier⟩ := mem_of_holder? hp
    rw [List.inj_on_of_nodup_map hdistinct hkept hq hidentifier]
  · have hperm := ((e.perm_buckets nameSpace).map (·.identifier))
    have hiff : e.holder? name = none ↔ ∀ p, e.holder? name = some p → p.name = name := by
      refine ⟨fun h p hp => absurd (h.symm.trans hp) nofun, fun h => ?_⟩
      refine Option.eq_none_iff_forall_ne_some.2 fun p hp => ?_
      exact hne p (mem_of_holder? hp).1 (h p hp)
    rw [heq, List.cons_append, List.map_cons, List.nodup_cons, hperm.nodup_iff, hperm.mem_iff,
      hplace]
    simp only [Option.mem_def, Option.some.injEq, forall_eq']
    rw [← hiff, holder?_eq_none_iff]
    exact and_iff_left hdistinct

end Endpoint

-- ---------------------------------------------------------------------------
-- Resolved parameters
-- ---------------------------------------------------------------------------

theorem attrs_mapM_ofPair {ps : List TypedName} {qs : List ResolvedParam}
    (h : ps.mapM ResolvedParam.ofPair = .ok qs) : qs.map (·.attr) = ps.map (·.identifier) :=
  map_of_mapM (fun _ _ hpair => (ofPair_eq_ok hpair).2) h

section Resolved

variable {nameSpace : String} {e : Endpoint} {r : ResolvedEndpoint}
  (h : (e.resolve nameSpace).value = some r)
include h

theorem attrs_of_resolve :
    (r.required ++ r.optional).map (·.attr) =
      ((e.parameters nameSpace).1 ++ (e.parameters nameSpace).2).map (·.identifier) := by
  obtain ⟨-, -, returnType, params, -, hparams, rfl⟩ := Endpoint.resolve_eq_some_iff.1 h
  obtain ⟨hrequired, hoptional⟩ := resolveParams_eq_ok hparams
  rw [List.map_append, List.map_append, ← attrs_mapM_ofPair hrequired,
    ← attrs_mapM_ofPair hoptional]
  rfl

/-- A resolved parameter is named by the identifier of its name in requests. -/
theorem attr_of_mem_resolve {p : ResolvedParam} (hp : p ∈ r.required ++ r.optional) :
    p.attr = Naming.identifier p.name := by
  obtain ⟨-, -, returnType, params, -, hparams, rfl⟩ := Endpoint.resolve_eq_some_iff.1 h
  obtain ⟨hrequired, hoptional⟩ := resolveParams_eq_ok hparams
  obtain ⟨q, hq⟩ : ∃ q, ResolvedParam.ofPair q = .ok p := by
    rcases List.mem_append.1 hp with hp | hp
    · exact (exists_of_mem_mapM hrequired hp).imp fun _ => And.right
    · exact (exists_of_mem_mapM hoptional hp).imp fun _ => And.right
  rw [(ofPair_eq_ok hq).1, (ofPair_eq_ok hq).2]

/-- The parameters that are sent have distinct names in any case. -/
theorem nodup_attrs_sent : ((r.serializedRequired ++ r.optional).map (·.attr)).Nodup := by
  have hdistinct := (e.sorts_buckets nameSpace).distinct
  rcases e.parameters_cases nameSpace with ⟨hperm, -⟩ | ⟨name, hplace, -, heq⟩
  · have hall : ((r.required ++ r.optional).map (·.attr)).Nodup := by
      rw [attrs_of_resolve h]
      exact (hperm.map _).nodup_iff.2 hdistinct
    have hsub : r.serializedRequired.Sublist r.required := by
      unfold ResolvedEndpoint.serializedRequired
      split
      · exact .refl _
      · exact List.filter_sublist
    exact ((hsub.append_right r.optional).map _).nodup hall
  · obtain ⟨-, -, returnType, params, -, hparams, rfl⟩ := Endpoint.resolve_eq_some_iff.1 h
    obtain ⟨hrequired, hoptional⟩ := resolveParams_eq_ok hparams
    rw [heq] at hrequired hoptional
    -- The added parameter comes first, and it is the one that is not sent.
    obtain ⟨q, qs, hq, hqs, hcons⟩ := mapM_eq_ok_cons hrequired
    have hname : q.name = name := (ofPair_eq_ok hq).1
    have hreserved : (e.assemble nameSpace returnType params.1 params.2).reserved = some q := by
      unfold Endpoint.assemble
      rw [hplace, hcons]
      simp [hname]
    have hsub : (e.assemble nameSpace returnType params.1 params.2).serializedRequired.Sublist
        qs := by
      unfold ResolvedEndpoint.serializedRequired
      rw [hreserved]
      change (params.1.filter _).Sublist qs
      rw [hcons, List.filter_cons_of_neg (by simp)]
      exact List.filter_sublist
    have hrest : ((qs ++ params.2).map (·.attr)).Nodup := by
      rw [List.map_append, attrs_mapM_ofPair hqs, attrs_mapM_ofPair hoptional, ← List.map_append]
      exact ((e.perm_buckets nameSpace).map _).nodup_iff.2 hdistinct
    exact ((hsub.append_right params.2).map _).nodup hrest

/-- The arguments of a resolved endpoint have distinct names exactly if the first parameter
    that is declared with the identifier of the reserved one, if there is any, is the reserved
    one itself. The parameters that are sent have distinct names in any case. -/
theorem nodup_attrs_iff :
    ((r.serializedRequired ++ r.optional).map (·.attr)).Nodup ∧
      (((r.required ++ r.optional).map (·.attr)).Nodup ↔
        ∀ name ∈ placeholder? e.url, ∀ p ∈ e.holder? name, p.name = name) := by
  refine ⟨nodup_attrs_sent h, ?_⟩
  rw [attrs_of_resolve h]
  exact e.nodup_identifiers_iff nameSpace

end Resolved

/-- An endpoint whose URL names a parameter. Two of the declared ones become the same
    identifier, and one is declared only under a condition. -/
def profile (placeholder : String) : Endpoint where
  name := "Profile"
  url := some ("users/\x7b" ++ placeholder ++ "\x7d")
  params := [
    { kind := .required, pairs := [⟨"string", "screen_name"⟩, ⟨"long", "from"⟩] },
    { kind := .optional, pairs := [⟨"int", "from_"⟩, ⟨"string", "lang"⟩] },
    { kind := .optional, pairs := [⟨"long", "id"⟩], guard := some "ANY" }]

theorem nodup_attrs_iff_profile :
    ∃ r, ((profile "id").resolve "Users").value = some r ∧
      r.required.map (·.attr) = ["id", "screen_name", "from_"] ∧
      ((r.serializedRequired ++ r.optional).map (·.attr)).Nodup ∧
      (((r.required ++ r.optional).map (·.attr)).Nodup ↔
        ∀ name ∈ placeholder? (profile "id").url, ∀ p ∈ (profile "id").holder? name,
          p.name = name) := by
  obtain ⟨r, hr, hattrs⟩ : ∃ r, ((profile "id").resolve "Users").value = some r ∧
      r.required.map (·.attr) = ["id", "screen_name", "from_"] := by
    rw [← Option.map_eq_some_iff (f := fun r : ResolvedEndpoint => r.required.map (·.attr))]
    decide +kernel
  exact ⟨r, hr, hattrs, nodup_attrs_iff hr⟩

/-- The parameter that the URL names becomes the same identifier as one that is declared. -/
theorem not_forall_nodup_attrs :
    ¬ ∀ nameSpace (e : Endpoint) r, (e.resolve nameSpace).value = some r →
      ((r.required ++ r.optional).map (·.attr)).Nodup := by
  intro hall
  obtain ⟨r, hr, hattrs⟩ : ∃ r, ((profile "screen-name").resolve "Users").value = some r ∧
      (r.required ++ r.optional).map (·.attr) =
        ["screen_name", "screen_name", "from_", "lang"] := by
    rw [← Option.map_eq_some_iff
      (f := fun r : ResolvedEndpoint => (r.required ++ r.optional).map (·.attr))]
    decide +kernel
  have hnodup := hall _ _ _ hr
  rw [hattrs] at hnodup
  exact absurd hnodup (by decide)

end ApiStubs
