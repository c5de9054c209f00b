-- SUMMARY: When an endpoint is resolved, and what it is resolved to.
import ApiStubs.Stub.Basic

/-!
# Resolution

`resolve_eq_some_iff` says when an endpoint is resolved and to what, without the log. The
parameter that the URL names is always found among the required ones, and an argument is
found for every parameter (`arguments_of_resolve`).
-/

namespace ApiStubs

theorem mapM_eq_ok_cons {ε α β : Type} {f : α → Except ε β} {a : α} {as : List α} {bs : List β}
    (h : (a :: as).mapM f = .ok bs) :
    ∃ b bs', f a = .ok b ∧ as.mapM f = .ok bs' ∧ bs = b :: bs' := by
  rw [List.mapM_cons] at h
  cases ha : f a with
  | error e => rw [ha] at h; cases h
  | ok b =>
    rw [ha] at h
    cases has : as.mapM f with
    | error e => rw [has] at h; cases h
    | ok bs' =>
      rw [has] at h
      cases h
      exact ⟨b, bs', rfl, rfl, rfl⟩

/-- What holds of each answer and its argument carries over to all of them. -/
theorem map_of_mapM {ε α β γ : Type} {f : α → Except ε β} {g : β → γ} {g' : α → γ}
    (hf : ∀ a b, f a = .ok b → g b = g' a) {as : List α} {bs : List β}
    (h : as.mapM f = .ok bs) : bs.map g = as.map g' := by
  induction as generalizing bs with
  | nil => cases h; rfl
  | cons a as ih =>
    obtain ⟨b, bs', hb, hbs, rfl⟩ := mapM_eq_ok_cons h
    rw [List.map_cons, List.map_cons, hf a b hb, ih hbs]

theorem exists_of_mem_mapM {ε α β : Type} {f : α → Except ε β} {as : List α} {bs : List β}
    (h : as.mapM f = .ok bs) {b : β} (hb : b ∈ bs) : ∃ a ∈ as, f a = .ok b := by
  induction as generalizing bs with
  | nil => cases h; cases hb
  | cons a as ih =>
    obtain ⟨c, cs, hc, hcs, rfl⟩ := mapM_eq_ok_cons h
    rcases List.mem_cons.1 hb with rfl | hb
    · exact ⟨a, List.mem_cons_self, hc⟩
    · obtain ⟨a', ha', hfa'⟩ := ih hcs hb
      exact ⟨a', List.mem_cons_of_mem _ ha', hfa'⟩

theorem ofPair_eq_ok {p : TypedName} {q : ResolvedParam} (h : ResolvedParam.ofPair p = .ok q) :
    q.name = p.name ∧ q.attr = Naming.identifier p.name := by
  unfold ResolvedParam.ofPair at h
  cases htype : Typing.paramType p.type with
  | error e => rw [htype] at h; cases h
  | ok type => rw [htype] at h; cases h; exact ⟨rfl, rfl⟩

theorem names_mapM_ofPair {ps : List TypedName} {qs : List ResolvedParam}
    (h : ps.mapM ResolvedParam.ofPair = .ok qs) : qs.map (·.name) = ps.map (·.name) :=
  map_of_mapM (fun _ _ hpair => (ofPair_eq_ok hpair).1) h

theorem resolveParams_eq_ok {required optional : List TypedName}
    {resolved : List ResolvedParam × List ResolvedParam}
    (h : resolveParams required optional = .ok resolved) :
    required.mapM ResolvedParam.ofPair = .ok resolved.1 ∧
      optional.mapM ResolvedParam.ofPair = .ok resolved.2 := by
  unfold resolveParams at h
  cases hrequired : required.mapM ResolvedParam.ofPair with
  | error e => rw [hrequired] at h; cases h
  | ok qs =>
    rw [hrequired] at h
    cases hoptional : optional.mapM ResolvedParam.ofPair with
    | error e => rw [hoptional] at h; cases h
    | ok qs' =>
      rw [hoptional] at h
      cases h
      exact ⟨rfl, rfl⟩

/-- A reserved parameter is one of the required ones. -/
theorem mem_names_withReserved {name : String} (required optional : List TypedName) :
    name ∈ (withReserved (some name) required optional).1.map (·.name) := by
  unfold withReserved
  dsimp only
  split
  · next hany =>
    obtain ⟨p, hp, hname⟩ := List.any_eq_true.1 hany
    exact List.mem_map.2 ⟨p, hp, of_decide_eq_true hname⟩
  · cases hfind : optional.find? (·.name = name) with
    | none => exact List.mem_cons_self
    | some p =>
      have hname : p.name = name := by simpa using List.find?_some hfind
      rw [List.map_cons, Option.getD_some, hname]
      exact List.mem_cons_self

namespace Endpoint

/-- The required and the optional parameters of an endpoint, before their types are
    resolved. -/
def parameters (nameSpace : String) (e : Endpoint) : List TypedName × List TypedName :=
  let buckets := (Buckets.ofParams (endpointLabel nameSpace e.name) e.params).value
  withReserved (placeholder? e.url) buckets.allRequired buckets.allOptional

/-- An endpoint is resolved if it is neither ignored nor obsolete and if its types can be
    expressed. -/
theorem resolve_eq_some_iff {nameSpace : String} {e : Endpoint} {r : ResolvedEndpoint} :
    (e.resolve nameSpace).value = some r ↔
      e.ignore = false ∧ e.hasAttribute "Obsolete" = false ∧
        ∃ returnType params, Typing.returnType e.returnType e.name = .ok returnType ∧
          resolveParams (e.parameters nameSpace).1 (e.parameters nameSpace).2 = .ok params ∧
          r = e.assemble nameSpace returnType params.1 params.2 := by
  unfold resolve
  cases hignore : e.ignore with
  | true => simp [-bind_pure_comp]
  | false =>
    cases hobsolete : e.hasAttribute "Obsolete" with
    | true => simp [-bind_pure_comp]
    | false =>
      simp only [Bool.false_eq_true, if_false, true_and]
      cases htype : Typing.returnType e.returnType e.name with
      | error type => simp [-bind_pure_comp]
      | ok returnType =>
        simp only [parameters, Logged.value_bind]
        cases resolveParams _ _ with
        | error type => simp [-bind_pure_comp]
        | ok params => simp [-bind_pure_comp, eq_comm]

/-- What a resolved endpoint and its code are called. -/
theorem names_of_resolve {nameSpace : String} {e : Endpoint} {r : ResolvedEndpoint}
    (h : (e.resolve nameSpace).value = some r) :
    r.name = e.name ∧ r.methodName = Naming.methodName e.name ∧
      r.builderClass = Naming.builderClass nameSpace e.name := by
  obtain ⟨-, -, returnType, params, -, -, rfl⟩ := resolve_eq_some_iff.1 h
  dsimp only [assemble]
  exact ⟨rfl, rfl, rfl⟩

/-- The reserved parameter of a resolved endpoint is the one that its URL names. -/
theorem reserved_of_resolve {nameSpace : String} {e : Endpoint} {r : ResolvedEndpoint}
    (h : (e.resolve nameSpace).value = some r) :
    r.reserved.map (·.name) = placeholder? e.url := by
  obtain ⟨-, -, returnType, params, -, hparams, rfl⟩ := resolve_eq_some_iff.1 h
  have hnames := names_mapM_ofPair (resolveParams_eq_ok hparams).1
  unfold assemble
  dsimp only
  cases hplace : placeholder? e.url with
  | none => rfl
  | some name =>
    have hmem : name ∈ params.1.map (·.name) := by
      rw [hnames, parameters, hplace]
      exact mem_names_withReserved _ _
    obtain ⟨q, hq, hname⟩ := List.mem_map.1 hmem
    cases hfind : params.1.find? (·.name = name) with
    | none => exact absurd hname (by simpa using List.find?_eq_none.1 hfind q hq)
    | some q' =>
      have hname' : q'.name = name := by simpa using List.find?_some hfind
      rw [Option.bind_some, hfind, Option.map_some, hname']

end Endpoint

namespace Stub

/-- The calls of some endpoints are those of the endpoints that are not dropped. -/
theorem value_resolveCalls (settings : Settings) (nameSpace : String) (es : List Endpoint) :
    (resolveCalls settings nameSpace es).value =
      es.filterMap fun e => (e.resolve nameSpace).value.map (Call.ofResolved settings) := by
  induction es with
  | nil => rfl
  | cons e es ih =>
    rw [resolveCalls, Logged.value_bind, Logged.value_bind, ih, List.filterMap_cons]
    cases (e.resolve nameSpace).value with
    | none => rfl
    | some r => rfl

theorem argument?_of_mem {r : ResolvedEndpoint} {p : ResolvedParam}
    (hp : p ∈ r.required ++ r.optional) : argument? r p = some (.ofParam p) := by
  unfold argument? argumentsOf
  generalize r.required ++ r.optional = ps at hp ⊢
  induction ps with
  | nil => cases hp
  | cons q qs ih =>
    rw [List.map_cons, List.lookup_cons]
    by_cases heq : p = q
    · simp [heq]
    · have hqs : p ∈ qs := (List.mem_cons.1 hp).resolve_left heq
      rw [beq_false_of_ne heq]
      exact ih hqs

theorem filterMap_argument? {r : ResolvedEndpoint} {ps : List ResolvedParam}
    (h : ∀ p ∈ ps, p ∈ r.required ++ r.optional) :
    ps.filterMap (argument? r) = ps.map .ofParam := by
  induction ps with
  | nil => rfl
  | cons p ps ih =>
    rw [List.filterMap_cons_some (argument?_of_mem (h p List.mem_cons_self)), List.map_cons,
      ih fun q hq => h q (List.mem_cons_of_mem _ hq)]

section Resolved

variable {nameSpace : String} {e : Endpoint} {r : ResolvedEndpoint}
  (h : (e.resolve nameSpace).value = some r)
include h

theorem mem_required_of_mem_signature {p : ResolvedParam} (hp : p ∈ r.signature) :
    p ∈ r.required := by
  obtain ⟨-, -, returnType, params, -, -, rfl⟩ := Endpoint.resolve_eq_some_iff.1 h
  rcases List.mem_append.1 hp with hp | hp
  · obtain ⟨name, -, hfind⟩ := Option.bind_eq_some_iff.1 (Option.mem_toList.1 hp)
    exact List.mem_of_find?_eq_some hfind
  · unfold ResolvedEndpoint.serializedRequired at hp
    split at hp
    · exact hp
    · exact (List.mem_filter.1 hp).1

/-- The arguments of a call are those of the parameters of its endpoint, in order: each of
    them is found. -/
theorem arguments_of_resolve (settings : Settings) :
    (Call.ofResolved settings r).reserved = r.reserved.map .ofParam ∧
      (Call.ofResolved settings r).signature = r.signature.map .ofParam ∧
      (Call.ofResolved settings r).serializedRequired = r.serializedRequired.map .ofParam ∧
      (Call.ofResolved settings r).optional = r.optional.map .ofParam := by
  have hsignature : ∀ p ∈ r.signature, p ∈ r.required ++ r.optional := fun p hp =>
    List.mem_append_left _ (mem_required_of_mem_signature h hp)
  refine ⟨?_, filterMap_argument? hsignature, filterMap_argument? fun p hp => ?_,
    filterMap_argument? fun p hp => List.mem_append_right _ hp⟩
  · dsimp only [Call.ofResolved]
    cases hreserved : r.reserved with
    | none => rfl
    | some p =>
      refine argument?_of_mem (hsignature p (List.mem_append_left _ ?_))
      rw [hreserved]
      exact List.mem_singleton_self p
  · exact hsignature p (List.mem_append_right _ hp)

end Resolved

theorem mem_calls_build {settings : Settings} {t : Template} {c : Call} :
    c ∈ (Section.build settings t).value.calls ↔
      ∃ e ∈ t.endpoints, ∃ r, (e.resolve t.nameSpace).value = some r ∧
        Call.ofResolved settings r = c := by
  change c ∈ (resolveCalls settings t.nameSpace t.endpoints).value ↔ _
  rw [value_resolveCalls, List.mem_filterMap]
  simp only [Option.map_eq_some_iff]

end Stub

end ApiStubs
