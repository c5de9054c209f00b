-- SUMMARY: Which endpoints are dropped, and what is reported of them.
import ApiStubs.Proofs.ArgumentNames

/-!
# Dropped endpoints

There are four reasons to drop an endpoint. Two are said in the template: it is ignored, or
it is obsolete. Two lie in its types: it returns a dictionary, or one of its parameters is a
list of bytes. Only parameters that are kept count for the last one, so a list of bytes whose
identifier is declared before does no harm.

`resolve_dropped_iff` says that there is no other reason, and that the first one that applies
is reported.
-/

namespace ApiStubs

-- ---------------------------------------------------------------------------
-- Types that cannot be expressed
-- ---------------------------------------------------------------------------

theorem head?_of_begins {x : Char} {w s : List Char} (h : x :: w <+: s) : s.head? = some x := by
  obtain ⟨t, rfl⟩ := h
  rfl

theorem argument?_eq_none {opening type : String} (h : ¬ opening.toList <+: type.toList) :
    Typing.argument? opening type = none := by
  have hfalse : opening.toList.isPrefixOf type.toList = false := by
    simpa [← List.isPrefixOf_iff_prefix] using h
  simp [Typing.argument?, hfalse]

theorem returnType_eq_error_iff {type name : String} {u : UnsupportedType} :
    Typing.returnType type name = .error u ↔
      name ≠ "RateLimitStatus" ∧ "Dictionary<".toList <+: type.toList ∧ u = .dictionary type := by
  constructor
  · intro h
    unfold Typing.returnType at h
    iterate 7 (split at h; · cases h)
    split at h <;> cases h
    next hname _ _ _ _ _ _ _ _ hprefix =>
    exact ⟨hname, List.isPrefixOf_iff_prefix.1 hprefix, rfl⟩
  · rintro ⟨hname, hprefix, rfl⟩
    have hhead := head?_of_begins hprefix
    have hne {s : String} (hs : s.toList.head? ≠ some 'D') : type ≠ s := by
      rintro rfl
      exact hs hhead
    have hnone {opening : String} {x : Char} {w : List Char} (hopening : opening.toList = x :: w)
        (hx : x ≠ 'D') : Typing.argument? opening type = none := by
      refine argument?_eq_none fun h => hx ?_
      rw [hopening] at h
      exact Option.some.inj ((head?_of_begins h).symm.trans hhead)
    unfold Typing.returnType
    rw [if_neg hname, if_neg (hne (by decide)), if_neg (hne (by decide)), if_neg (hne (by decide)),
      if_neg (hne (by decide)), hnone rfl (by decide), hnone rfl (by decide)]
    exact if_pos (List.isPrefixOf_iff_prefix.2 hprefix)

theorem paramType_eq_error_iff {type : String} {u : UnsupportedType} :
    Typing.paramType type = .error u ↔ type = byteList ∧ u = .byteList := by
  constructor
  · intro h
    unfold Typing.paramType at h
    iterate 3 (split at h; · cases h)
    split at h
    · next heq => cases h; exact ⟨heq, rfl⟩
    · split at h <;> cases h
  · rintro ⟨rfl, rfl⟩
    decide

/-- Where each item can fail in one way only, so can all of them. -/
theorem mapM_eq_error_iff {ε α β : Type} {f : α → Except ε β} {Bad : α → Prop} {fault u : ε}
    (hf : ∀ a u, f a = .error u ↔ Bad a ∧ u = fault) {as : List α} :
    as.mapM f = .error u ↔ (∃ a ∈ as, Bad a) ∧ u = fault := by
  induction as with
  | nil => simp [pure, Except.pure]
  | cons a as ih =>
    rw [List.mapM_cons]
    cases ha : f a with
    | error v =>
      obtain ⟨hbad, rfl⟩ := (hf a v).1 ha
      simp [hbad, bind, Except.bind, eq_comm]
    | ok b =>
      have hgood : ¬ Bad a := fun hbad => by
        rw [(hf a fault).2 ⟨hbad, rfl⟩] at ha
        cases ha
      have hrest : (do let bs ← as.mapM f; pure (b :: bs)) = .error u ↔ as.mapM f = .error u := by
        cases as.mapM f <;> simp [bind, Except.bind, pure, Except.pure]
      simpa [hgood, bind, Except.bind] using hrest.trans ih

theorem ofPair_eq_error_iff (p : TypedName) (u : UnsupportedType) :
    ResolvedParam.ofPair p = .error u ↔ p.type = byteList ∧ u = .byteList := by
  rw [← paramType_eq_error_iff, ResolvedParam.ofPair]
  cases Typing.paramType p.type <;> simp [bind, Except.bind, pure, Except.pure]

theorem resolveParams_eq_error_iff {required optional : List TypedName} {u : UnsupportedType} :
    resolveParams required optional = .error u ↔
      (∃ p ∈ required ++ optional, p.type = byteList) ∧ u = .byteList := by
  rw [← mapM_eq_error_iff ofPair_eq_error_iff, List.mapM_append, resolveParams]
  cases required.mapM ResolvedParam.ofPair with
  | error v => simp [bind, Except.bind]
  | ok qs =>
    cases optional.mapM ResolvedParam.ofPair <;> simp [bind, Except.bind, pure, Except.pure]

-- ---------------------------------------------------------------------------
-- Reasons
-- ---------------------------------------------------------------------------

namespace Endpoint

/-- The endpoint returns a dictionary. The name of one endpoint decides its return type, so
    for that one this does not matter. -/
def ReturnsDictionary (e : Endpoint) : Prop :=
  e.name ≠ "RateLimitStatus" ∧ "Dictionary<".toList <+: e.returnType.toList

instance (e : Endpoint) : Decidable e.ReturnsDictionary := inferInstanceAs (Decidable (_ ∧ _))

/-- Of the parameters that are declared without a condition, a list of bytes is the first one
    of its identifier. -/
def DeclaresBytes (e : Endpoint) : Prop :=
  ∃ before p after, Param.declaredBy e.params = before ++ p :: after ∧ p.type = byteList ∧
    ∀ q ∈ before, q.identifier ≠ p.identifier

/-- The parameters that are kept are the first ones of their identifiers. -/
theorem mem_kept_iff {nameSpace : String} {e : Endpoint} {p : TypedName} :
    p ∈ (e.buckets nameSpace).kept ↔
      ∃ before after, Param.declaredBy e.params = before ++ p :: after ∧
        ∀ q ∈ before, q.identifier ≠ p.identifier := by
  have hsorts := e.sorts_buckets nameSpace
  have hfind : p ∈ (e.buckets nameSpace).kept ↔
      (Param.declaredBy e.params).find? (·.identifier = p.identifier) = some p := by
    rw [← hsorts.first]
    constructor
    · intro hp
      cases hfind : (e.buckets nameSpace).kept.find? (·.identifier = p.identifier) with
      | none => simpa using List.find?_eq_none.1 hfind p hp
      | some q =>
        have hq : q.identifier = p.identifier := by simpa using List.find?_some hfind
        rw [List.inj_on_of_nodup_map hsorts.distinct (List.mem_of_find?_eq_some hfind) hp hq]
    · exact List.mem_of_find?_eq_some
  rw [hfind, List.find?_eq_some_iff_append]
  simp

theorem exists_returnType {e : Endpoint} (h : ¬ e.ReturnsDictionary) :
    ∃ returnType, Typing.returnType e.returnType e.name = .ok returnType := by
  cases htype : Typing.returnType e.returnType e.name with
  | ok returnType => exact ⟨returnType, rfl⟩
  | error u =>
    obtain ⟨hname, hprefix, -⟩ := returnType_eq_error_iff.1 htype
    exact absurd ⟨hname, hprefix⟩ h

/-- What the URL names and nobody declares is a string, so the kept parameters decide. -/
theorem exists_bytes_iff (nameSpace : String) (e : Endpoint) :
    (∃ p ∈ (e.parameters nameSpace).1 ++ (e.parameters nameSpace).2, p.type = byteList) ↔
      e.DeclaresBytes := by
  have hkept : e.DeclaresBytes ↔ ∃ p ∈ (e.buckets nameSpace).kept, p.type = byteList := by
    simp only [mem_kept_iff, DeclaresBytes]
    grind
  rw [hkept]
  rcases e.parameters_cases nameSpace with ⟨hperm, -⟩ | ⟨name, -, -, heq⟩
  · simp only [hperm.mem_iff]
  · have hstring : "string" ≠ byteList := by decide
    simp only [heq, List.cons_append, List.mem_cons, exists_eq_or_imp, hstring, false_or,
      (e.perm_buckets nameSpace).mem_iff]

end Endpoint

-- ---------------------------------------------------------------------------
-- Reports
-- ---------------------------------------------------------------------------

namespace Logged

variable {α β : Type}

/-- The events of more weight than a debugging message. -/
def notable (x : Logged α) : List Event :=
  x.events.filter (Level.debug.weight < ·.level.weight)

/-- The only event of more weight than a debugging message is this one, and it has this
    level. -/
def Reports (x : Logged α) (level : Level) (event : Event) : Prop :=
  x.notable = [event] ∧ event.level = level

/-- Nothing comes of it, and this is reported. -/
def Drops (x : Logged (Option α)) (level : Level) (event : Event) : Prop :=
  x.value = none ∧ x.Reports level event

/-- A fold whose steps only write debugging messages writes no others. -/
theorem notable_foldlM {f : β → α → Logged β} (hf : ∀ b a, (f b a).notable = []) (as : List α)
    (b : β) : (as.foldlM f b).notable = [] := by
  induction as generalizing b with
  | nil => rfl
  | cons a as ih =>
    unfold notable at *
    rw [List.foldlM_cons, events_bind, List.filter_append, hf, ih]
    rfl

end Logged

namespace Buckets

/-- Sorting parameters only writes debugging messages. -/
theorem notable_ofParams (label : String) (params : List Param) :
    (ofParams label params).notable = [] := by
  have hkeep (kind : ParamKind) (group : Nat) (b : Buckets) (p : TypedName) :
      (keep label kind group b p).notable = [] := by
    unfold keep
    split
    · rfl
    · split <;> rfl
  refine Logged.notable_foldlM (fun b param => ?_) params _
  unfold addLine
  split
  · rfl
  · exact Logged.notable_foldlM (hkeep _ _) param.pairs _

end Buckets

namespace Endpoint

section Reasons

variable {nameSpace : String} {e : Endpoint}

theorem dropped_of_ignore (h : e.ignore = true) :
    (e.resolve nameSpace).Drops .info
      (.endpointIgnored (endpointLabel nameSpace e.name)) := by
  unfold resolve
  rw [if_pos h]
  exact ⟨rfl, rfl, rfl⟩

variable (hignore : e.ignore = false)
include hignore

theorem dropped_of_obsolete (h : e.hasAttribute "Obsolete" = true) :
    (e.resolve nameSpace).Drops .info
      (.endpointObsolete (endpointLabel nameSpace e.name)) := by
  unfold resolve
  rw [if_neg (by simp [hignore]), if_pos h]
  exact ⟨rfl, rfl, rfl⟩

variable (hobsolete : e.hasAttribute "Obsolete" = false)
include hobsolete

theorem dropped_of_dictionary (h : e.ReturnsDictionary) :
    (e.resolve nameSpace).Drops .warning
      (.typeUnsupported (.dictionary e.returnType) (endpointLabel nameSpace e.name)) := by
  unfold resolve
  rw [if_neg (by simp [hignore]), if_neg (by simp [hobsolete]),
    returnType_eq_error_iff.2 ⟨h.1, h.2, rfl⟩]
  exact ⟨rfl, rfl, rfl⟩

variable (hdictionary : ¬ e.ReturnsDictionary)
include hdictionary

theorem dropped_of_bytes (h : e.DeclaresBytes) :
    (e.resolve nameSpace).Drops .warning
      (.typeUnsupported .byteList (endpointLabel nameSpace e.name)) := by
  obtain ⟨returnType, htype⟩ := exists_returnType hdictionary
  have hparams := resolveParams_eq_error_iff.2 ⟨(e.exists_bytes_iff nameSpace).2 h, rfl⟩
  have hquiet := Buckets.notable_ofParams (endpointLabel nameSpace e.name) e.params
  unfold resolve
  rw [if_neg (by simp [hignore]), if_neg (by simp [hobsolete]), htype]
  dsimp only [parameters, bind] at hparams ⊢
  rw [hparams]
  refine ⟨rfl, ?_, rfl⟩
  unfold Logged.notable at hquiet ⊢
  rw [List.filter_append, hquiet]
  rfl

theorem resolved_of_no_reason (hbytes : ¬ e.DeclaresBytes) :
    ∃ r, (e.resolve nameSpace).value = some r := by
  obtain ⟨returnType, htype⟩ := exists_returnType hdictionary
  cases hparams : resolveParams (e.parameters nameSpace).1 (e.parameters nameSpace).2 with
  | error u =>
    have hexists := (resolveParams_eq_error_iff.1 hparams).1
    exact absurd ((e.exists_bytes_iff nameSpace).1 hexists) hbytes
  | ok params =>
    exact ⟨e.assemble nameSpace returnType params.1 params.2, resolve_eq_some_iff.2
      ⟨hignore, hobsolete, returnType, params, htype, hparams, rfl⟩⟩

end Reasons

theorem hasAttribute_iff {e : Endpoint} {name : String} :
    e.hasAttribute name = true ↔ ∃ a ∈ e.attributes, a.1 = name := by
  simp only [hasAttribute, List.any_eq_true, beq_iff_eq]

/-- An endpoint is dropped exactly if it is ignored or obsolete, returns a dictionary or
    declares a list of bytes. The first of these reasons is reported, at its level, and
    nothing else is but debugging messages. All other endpoints are resolved, and the
    parameter that their URL names is found. -/
theorem resolve_dropped_iff (nameSpace : String) (e : Endpoint) :
    let outcome := e.resolve nameSpace
    let label := endpointLabel nameSpace e.name
    (outcome.value = none ↔
      e.ignore ∨ (∃ a ∈ e.attributes, a.1 = "Obsolete") ∨ e.ReturnsDictionary ∨
        e.DeclaresBytes) ∧
    (outcome.value = none →
      if e.ignore then outcome.Reports .info (.endpointIgnored label)
      else if ∃ a ∈ e.attributes, a.1 = "Obsolete" then
        outcome.Reports .info (.endpointObsolete label)
      else if e.ReturnsDictionary then
        outcome.Reports .warning (.typeUnsupported (.dictionary e.returnType) label)
      else outcome.Reports .warning (.typeUnsupported .byteList label)) ∧
    ∀ r, outcome.value = some r → r.reserved.map (·.name) = placeholder? e.url := by
  intro outcome label
  rw [← and_assoc]
  refine ⟨?_, fun r hr => reserved_of_resolve hr⟩
  simp only [← hasAttribute_iff]
  cases hignore : e.ignore with
  | true =>
    obtain ⟨hnone, hreports⟩ := dropped_of_ignore hignore
    exact ⟨iff_of_true hnone (.inl rfl), fun _ => hreports⟩
  | false =>
    cases hobsolete : e.hasAttribute "Obsolete" with
    | true =>
      obtain ⟨hnone, hreports⟩ := dropped_of_obsolete hignore hobsolete
      exact ⟨iff_of_true hnone (.inr (.inl rfl)), fun _ => hreports⟩
    | false =>
      by_cases hdictionary : e.ReturnsDictionary
      · obtain ⟨hnone, hreports⟩ := dropped_of_dictionary hignore hobsolete hdictionary
        refine ⟨iff_of_true hnone (.inr (.inr (.inl hdictionary))), fun _ => ?_⟩
        simpa [hdictionary] using hreports
      by_cases hbytes : e.DeclaresBytes
      · obtain ⟨hnone, hreports⟩ := dropped_of_bytes hignore hobsolete hdictionary hbytes
        refine ⟨iff_of_true hnone (.inr (.inr (.inr hbytes))), fun _ => ?_⟩
        simpa [hdictionary] using hreports
      · have ⟨r, hr⟩ : ∃ r, outcome.value = some r :=
          resolved_of_no_reason hignore hobsolete hdictionary hbytes
        have hsome : outcome.value ≠ none := fun hnone => by cases hr.symm.trans hnone
        exact ⟨iff_of_false hsome (by simp [hdictionary, hbytes]), fun h => absurd h hsome⟩

theorem resolve_dropped_iff_upload :
    let e : Endpoint := { name := "Upload", params := [
      { kind := .optional, pairs := [⟨"long", "media"⟩], guard := some "old" },
      { kind := .required, pairs := [⟨"IEnumerable<byte>", "media"⟩, ⟨"string", "media_"⟩] }] }
    (e.resolve "Media").value = none ∧
      (e.resolve "Media").Reports .warning
        (.typeUnsupported .byteList (endpointLabel "Media" "Upload")) := by
  intro e
  obtain ⟨hdropped, hreports, -⟩ := resolve_dropped_iff "Media" e
  have hbytes : e.DeclaresBytes := ⟨[], ⟨"IEnumerable<byte>", "media"⟩, _, rfl, rfl, by simp⟩
  have hnone := hdropped.2 (.inr (.inr (.inr hbytes)))
  have hreason := hreports hnone
  rw [if_neg (by decide), if_neg (by decide), if_neg (by decide)] at hreason
  exact ⟨hnone, hreason⟩

end Endpoint

end ApiStubs
