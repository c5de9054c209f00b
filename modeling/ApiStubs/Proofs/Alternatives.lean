-- SUMMARY: When a parameter of an `either` group has to be given.
import ApiStubs.Proofs.ArgumentNames
import ApiStubs.Proofs.Sorting

/-!
# Alternatives

The parameters of one group are alternatives, so none of them should have to be given. What
decides is how many of them are kept in the group. A parameter that was declared before,
whether in another group or in none, is kept where it was declared first. It is no
alternative any more, and the last parameter that is left in the group has to be given.
`required_alternative_iff` says when this happens.
-/

namespace ApiStubs

namespace Param

open Declaration

variable {params : List Param} {d : Declaration}

theorem nodup_kept (params : List Param) : ((kept params).map (·.identifier)).Nodup :=
  nodup_keepFirst _ _

/-- Kept declarations of one identifier are the same. -/
theorem eq_of_mem_kept {d' : Declaration} (hd : d ∈ kept params) (hd' : d' ∈ kept params)
    (h : d.identifier = d'.identifier) : d = d' :=
  List.inj_on_of_nodup_map (nodup_kept params) hd hd' h

theorem exists_kept {attr : String} (h : ∃ d ∈ declarations params, d.identifier = attr) :
    ∃ d ∈ kept params, d.identifier = attr :=
  List.mem_map.1 ((mem_keys_keepFirst _ _ attr).2 (List.mem_map.2 h))

theorem mem_ofKind {kind : ParamKind} {ds : List Declaration} {p : TypedName} :
    p ∈ ofKind kind ds ↔ ∃ d ∈ ds, d.kind = kind ∧ d.param = p := by
  simp [ofKind, and_assoc]

theorem mem_ofGroup {group : Nat} {ds : List Declaration} {p : TypedName} :
    p ∈ ofGroup group ds ↔ ∃ d ∈ ds, d.isUnder group ∧ d.param = p := by
  simp [ofGroup, and_assoc]

/-- The parameters of the groups that pass a test, by their declarations. -/
theorem mem_groups_filter {test : Nat → Bool} {p : TypedName} :
    p ∈ ((groups params).filter test).flatMap (fun group => ofGroup group (kept params)) ↔
      ∃ d ∈ kept params, d.kind = .either ∧ test d.group ∧ d.param = p := by
  simp only [List.mem_flatMap, List.mem_filter, mem_ofGroup, isUnder_iff]
  constructor
  · rintro ⟨group, ⟨-, htest⟩, d, hd, ⟨hkind, rfl⟩, hp⟩
    exact ⟨d, hd, hkind, htest, hp⟩
  · rintro ⟨d, hd, hkind, htest, hp⟩
    have hgroup : d.group ∈ groups params :=
      mem_groups_of_isUnder (mem_declarations_of_mem_kept hd) (isUnder_iff.2 ⟨hkind, rfl⟩)
    exact ⟨d.group, ⟨hgroup, htest⟩, d, hd, ⟨hkind, rfl⟩, hp⟩

theorem mem_required_iff {p : TypedName} :
    p ∈ required params ↔ ∃ d ∈ kept params,
      (d.kind = .required ∨ d.kind = .either ∧ isForced params d.group) ∧ d.param = p := by
  rw [required, List.mem_append, mem_ofKind, mem_groups_filter]
  grind

theorem mem_optional_iff {p : TypedName} :
    p ∈ optional params ↔ ∃ d ∈ kept params,
      (d.kind = .optional ∨ d.kind = .either ∧ isForced params d.group = false) ∧ d.param = p := by
  rw [optional, List.mem_append, mem_ofKind, mem_groups_filter]
  grind

/-- A group of which one parameter is known leaves no choice if no other one is kept in it. -/
theorem isForced_iff {group : Nat} (hd : d ∈ kept params) (hunder : d.isUnder group) :
    isForced params group ↔
      isOpen params group = false ∧
        ∀ d' ∈ kept params, d'.isUnder group → d'.identifier = d.identifier := by
  have hnodup : ((kept params).filter (·.isUnder group)).Nodup :=
    ((nodup_kept params).of_map _).filter _
  have hmem : d ∈ (kept params).filter (·.isUnder group) := List.mem_filter.2 ⟨hd, hunder⟩
  have hlength : (ofGroup group (kept params)).length = 1 ↔
      ∀ d' ∈ kept params, d'.isUnder group → d'.identifier = d.identifier := by
    rw [ofGroup, List.length_map]
    constructor
    · intro hone d' hd' hunder'
      obtain ⟨a, ha⟩ := List.length_eq_one_iff.1 hone
      have hmem' : d' ∈ (kept params).filter (·.isUnder group) := List.mem_filter.2 ⟨hd', hunder'⟩
      rw [ha, List.mem_singleton] at hmem hmem'
      rw [hmem, hmem']
    · intro hall
      have hperm : ((kept params).filter (·.isUnder group)).Perm [d] := by
        refine (List.perm_ext_iff_of_nodup hnodup (List.nodup_singleton d)).2 fun d' => ?_
        rw [List.mem_singleton]
        refine ⟨fun h => ?_, fun h => h ▸ hmem⟩
        obtain ⟨hd', hunder'⟩ := List.mem_filter.1 h
        exact eq_of_mem_kept hd' hd (hall d' hd' hunder')
      exact hperm.length_eq
  rw [isForced, Bool.and_eq_true, decide_eq_true_eq, hlength, Bool.not_eq_true', and_comm]

/-- Where a parameter is sorted is decided by its kept declaration. -/
theorem mem_identifiers {sorted : List TypedName} {sorts : Declaration → Prop}
    (hsorted : ∀ p, p ∈ sorted ↔ ∃ d ∈ kept params, sorts d ∧ d.param = p) (hd : d ∈ kept params) :
    d.identifier ∈ sorted.map (·.identifier) ↔ sorts d := by
  rw [List.mem_map]
  constructor
  · rintro ⟨p, hp, heq⟩
    obtain ⟨d', hd', hsorts, rfl⟩ := (hsorted p).1 hp
    exact eq_of_mem_kept hd' hd heq ▸ hsorts
  · intro hsorts
    exact ⟨d.param, (hsorted _).2 ⟨d, hd, hsorts, rfl⟩, rfl⟩

end Param

namespace Endpoint

variable {nameSpace : String} {e : Endpoint} {r : ResolvedEndpoint}

/-- The arguments of a resolved endpoint, where the URL names no parameter. -/
theorem attrs_of_no_placeholder (h : (e.resolve nameSpace).value = some r)
    (hurl : placeholder? e.url = none) :
    r.required.map (·.attr) = (Param.required e.params).map (·.identifier) ∧
      r.optional.map (·.attr) = (Param.optional e.params).map (·.identifier) := by
  obtain ⟨-, -, returnType, params, -, hparams, rfl⟩ := resolve_eq_some_iff.1 h
  obtain ⟨hrequired, hoptional⟩ := resolveParams_eq_ok hparams
  rw [parameters_eq, hurl] at hrequired hoptional
  dsimp only [assemble]
  rw [attrs_mapM_ofPair hrequired, attrs_mapM_ofPair hoptional, withReserved, buckets,
    Buckets.allRequired_ofParams, Buckets.allOptional_ofParams]
  exact ⟨rfl, rfl⟩

/-- A parameter that is declared in one group only has to be given exactly if the group is not
    open and all its other parameters are kept elsewhere, where they are declared before.
    Otherwise it may be given. -/
theorem required_alternative_iff (h : (e.resolve nameSpace).value = some r)
    (hurl : placeholder? e.url = none) {group : Nat} {attr : String}
    (hdeclared : ∃ d ∈ Param.declarations e.params, d.identifier = attr)
    (honly : ∀ d ∈ Param.declarations e.params, d.identifier = attr → d.isUnder group) :
    (attr ∈ r.required.map (·.attr) ↔
      Param.isOpen e.params group = false ∧
        ∀ d ∈ Param.kept e.params, d.isUnder group → d.identifier = attr) ∧
    (attr ∈ r.optional.map (·.attr) ↔ attr ∉ r.required.map (·.attr)) := by
  obtain ⟨d, hd, rfl⟩ := Param.exists_kept hdeclared
  have hunder := honly d (Param.mem_declarations_of_mem_kept hd) rfl
  obtain ⟨hkind, hgroup⟩ := Declaration.isUnder_iff.1 hunder
  obtain ⟨hrequired, hoptional⟩ := attrs_of_no_placeholder h hurl
  have hforced : d.identifier ∈ r.required.map (·.attr) ↔ Param.isForced e.params group := by
    rw [hrequired, Param.mem_identifiers (fun _ => Param.mem_required_iff) hd, hkind, hgroup]
    simp
  have hfree : d.identifier ∈ r.optional.map (·.attr) ↔ Param.isForced e.params group = false := by
    rw [hoptional, Param.mem_identifiers (fun _ => Param.mem_optional_iff) hd, hkind, hgroup]
    simp
  refine ⟨hforced.trans (Param.isForced_iff hd hunder), ?_⟩
  rw [hfree, hforced, Bool.not_eq_true]

/-- An endpoint with two alternatives, of which one is an optional parameter as well. -/
def lookup : Endpoint where
  name := "Lookup"
  url := some "users/lookup"
  params := [
    { kind := .optional, pairs := [⟨"long", "user_id"⟩] },
    { kind := .either, pairs := [⟨"long", "user_id"⟩] },
    { kind := .either, pairs := [⟨"string", "screen_name"⟩] }]

theorem resolve_lookup :
    ∃ r, (lookup.resolve "Users").value = some r ∧
      r.required.map (·.attr) = ["screen_name"] := by
  rw [← Option.map_eq_some_iff (f := fun r : ResolvedEndpoint => r.required.map (·.attr))]
  decide +kernel

theorem required_alternative_iff_lookup :
    ∃ r, (lookup.resolve "Users").value = some r ∧
      r.required.map (·.attr) = ["screen_name"] ∧
      ("screen_name" ∈ r.required.map (·.attr) ↔
        Param.isOpen lookup.params 0 = false ∧
          ∀ d ∈ Param.kept lookup.params, d.isUnder 0 → d.identifier = "screen_name") ∧
      ("screen_name" ∈ r.optional.map (·.attr) ↔ "screen_name" ∉ r.required.map (·.attr)) := by
  obtain ⟨r, hr, hattrs⟩ := resolve_lookup
  refine ⟨r, hr, hattrs, required_alternative_iff hr (by decide +kernel) ?_ ?_⟩
  · decide +kernel
  · decide +kernel

/-- Of two alternatives one has to be given, because the other one is declared before. -/
theorem not_forall_alternative_optional :
    ¬ ∀ nameSpace (e : Endpoint) r group, (e.resolve nameSpace).value = some r →
      placeholder? e.url = none →
      (∃ d ∈ Param.declarations e.params, ∃ d' ∈ Param.declarations e.params,
        d.isUnder group ∧ d'.isUnder group ∧ d.identifier ≠ d'.identifier) →
      ∀ p ∈ r.required,
        ¬ ∀ d ∈ Param.declarations e.params, d.identifier = p.attr → d.isUnder group := by
  intro hall
  obtain ⟨r, hr, hattrs⟩ := resolve_lookup
  have hmem : "screen_name" ∈ r.required.map (·.attr) := by
    rw [hattrs]
    decide
  obtain ⟨p, hp, hattr⟩ := List.mem_map.1 hmem
  refine hall "Users" lookup r 0 hr (by decide +kernel) (by decide +kernel) p hp ?_
  rw [hattr]
  decide +kernel

end Endpoint

end ApiStubs
