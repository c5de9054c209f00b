-- SUMMARY: The parameter that a URL names goes into the URL, and nowhere else.
import ApiStubs.Proofs.ArgumentNames
import ApiStubs.Proofs.Spans

/-!
# The reserved parameter

A URL may name a parameter between braces. `placeholder?_eq_some_iff` says which one. The
parameter may be declared in any way or not at all, but it is always found among the required
ones, and the other parameters stay as they were sorted (`Reserves`).
`reserved_parameter_once` puts this together with the text that is written from it: the
braces are still in the URL that is called, and every parameter has an argument.
-/

namespace ApiStubs

open Text

-- ---------------------------------------------------------------------------
-- Placeholders
-- ---------------------------------------------------------------------------

theorem find?_singleton_append {x : Char} {pre : List Char} (h : x ∉ pre) (post : List Char) :
    find? [x] (pre ++ x :: post) = some pre.length := by
  rw [find?_singleton, if_pos (by simp), List.takeWhile_append_of_pos fun c hc => ?_]
  · simp
  · simpa using ne_of_mem_of_not_mem hc h

theorem exists_of_find?_singleton {x : Char} {s : List Char} {n : Nat}
    (h : find? [x] s = some n) :
    ∃ pre post, s = pre ++ x :: post ∧ x ∉ pre ∧ pre.length = n := by
  have hmem : x ∈ s := by
    rw [find?_singleton] at h
    split at h
    · assumption
    · cases h
  obtain ⟨pre, post, rfl, hpre⟩ := List.eq_append_cons_of_mem hmem
  rw [find?_singleton_append hpre] at h
  exact ⟨pre, post, rfl, hpre, Option.some.inj h⟩

theorem placeholderChars?_append {pre : List Char} (h : '\x7b' ∉ pre) (rest : List Char) :
    placeholderChars? (pre ++ '\x7b' :: rest) = (find? ['\x7d'] rest).map (rest.take ·) := by
  have hdrop : (pre ++ '\x7b' :: rest).drop (pre.length + 1) = rest := by
    simp [List.drop_append]
  unfold placeholderChars?
  rw [find?_singleton_append h]
  dsimp only [Option.bind_eq_bind, Option.bind_some]
  rw [hdrop]
  cases find? ['\x7d'] rest with
  | none => rfl
  | some closing => rfl

theorem placeholderChars?_eq_some_iff {url name : List Char} :
    placeholderChars? url = some name ↔
      ∃ pre post, url = pre ++ '\x7b' :: (name ++ '\x7d' :: post) ∧
        '\x7b' ∉ pre ∧ '\x7d' ∉ name := by
  constructor
  · intro h
    obtain ⟨opening, hopening, -⟩ := Option.bind_eq_some_iff.1 h
    obtain ⟨pre, rest, rfl, hpre, -⟩ := exists_of_find?_singleton hopening
    rw [placeholderChars?_append hpre] at h
    obtain ⟨closing, hclosing, rfl⟩ := Option.map_eq_some_iff.1 h
    obtain ⟨name, post, rfl, hname, rfl⟩ := exists_of_find?_singleton hclosing
    rw [List.take_left]
    exact ⟨pre, post, rfl, hpre, hname⟩
  · rintro ⟨pre, post, rfl, hpre, hname⟩
    rw [placeholderChars?_append hpre, find?_singleton_append hname, Option.map_some,
      List.take_left]

/-- A URL names what stands between its first opening brace and the next closing brace. -/
theorem placeholder?_eq_some_iff {url : Option String} {name : String} :
    placeholder? url = some name ↔
      ∃ pre post, url = some (pre ++ "\x7b" ++ name ++ "\x7d" ++ post) ∧
        '\x7b' ∉ pre.toList ∧ '\x7d' ∉ name.toList := by
  cases url with
  | none => simp [placeholder?]
  | some url =>
    have hchars : placeholder? (some url) = some name ↔
        placeholderChars? url.toList = some name.toList := by
      have hmap : placeholder? (some url) = (placeholderChars? url.toList).map String.ofList := by
        cases hchars : placeholderChars? url.toList with
        | none => simp [placeholder?, hchars]
        | some chars => simp [placeholder?, hchars]
      rw [hmap, Option.map_eq_some_iff]
      constructor
      · rintro ⟨chars, hchars, rfl⟩
        rw [hchars, String.toList_ofList]
      · intro hchars
        exact ⟨name.toList, hchars, String.ofList_toList⟩
    rw [hchars, placeholderChars?_eq_some_iff]
    constructor
    · rintro ⟨pre, post, hurl, hpre, hname⟩
      refine ⟨.ofList pre, .ofList post, ?_, by simpa using hpre, hname⟩
      rw [Option.some.injEq, ← String.toList_inj, hurl]
      simp
    · rintro ⟨pre, post, hurl, hpre, hname⟩
      refine ⟨pre.toList, post.toList, ?_, hpre, hname⟩
      rw [Option.some.inj hurl]
      simp

-- ---------------------------------------------------------------------------
-- Sorted parameters with the reserved one
-- ---------------------------------------------------------------------------

section Reserved

variable {required optional : List TypedName}

/-- The parameter that a name reserves: the declared one, or else a string. -/
def reservedPair (name : String) (declared : List TypedName) : TypedName :=
  (declared.find? (·.name = name)).getD ⟨"string", name⟩

theorem name_reservedPair (name : String) (declared : List TypedName) :
    (reservedPair name declared).name = name := by
  unfold reservedPair
  cases hfind : declared.find? (·.name = name) with
  | none => rfl
  | some p => simpa using List.find?_some hfind

theorem reservedPair_of_mem {declared : List TypedName}
    (hdistinct : (declared.map (·.name)).Nodup) {p : TypedName} (hp : p ∈ declared) :
    reservedPair p.name declared = p := by
  rw [reservedPair, find?_name_of_mem hdistinct hp, Option.getD_some]

/-- The reserved parameter stands somewhere among the required ones, and all others are where
    they were. -/
theorem withReserved_eq (name : String)
    (hdistinct : ((required ++ optional).map (·.name)).Nodup) :
    ∃ before after,
      withReserved (some name) required optional =
        (before ++ reservedPair name (required ++ optional) :: after,
          optional.filter (·.name ≠ name)) ∧
      before ++ after = required.filter (·.name ≠ name) := by
  unfold withReserved
  dsimp only
  split
  · next hany =>
    obtain ⟨p, hp, hname⟩ := List.any_eq_true.1 hany
    obtain rfl := of_decide_eq_true hname
    have hpair := reservedPair_of_mem hdistinct (List.mem_append_left optional hp)
    rw [List.map_append, List.nodup_append] at hdistinct
    obtain ⟨hrequired, -, hdisjoint⟩ := hdistinct
    have hoptional : optional.filter (·.name ≠ p.name) = optional :=
      List.filter_eq_self.2 fun q hq => by
        simpa using (hdisjoint _ (List.mem_map_of_mem hp) _ (List.mem_map_of_mem hq)).symm
    obtain ⟨before, after, hsplit⟩ := List.append_of_mem hp
    refine ⟨before, after, ?_, (filter_name_ne hrequired hsplit).symm⟩
    rw [hpair, hoptional, ← hsplit]
  · next hany =>
    have hnone : ∀ p ∈ required, ¬ p.name = name := by simpa using hany
    refine ⟨[], required, ?_, ?_⟩
    · have hfind : required.find? (·.name = name) = none :=
        List.find?_eq_none.2 (by simpa using hnone)
      rw [reservedPair, List.find?_append, hfind]
      rfl
    · exact (List.filter_eq_self.2 (by simpa using hnone)).symm

end Reserved

-- ---------------------------------------------------------------------------
-- Resolved endpoints
-- ---------------------------------------------------------------------------

theorem mapM_eq_ok_append {ε α β : Type} {f : α → Except ε β} {as as' : List α} {bs : List β}
    (h : (as ++ as').mapM f = .ok bs) :
    ∃ cs cs', as.mapM f = .ok cs ∧ as'.mapM f = .ok cs' ∧ bs = cs ++ cs' := by
  induction as generalizing bs with
  | nil => exact ⟨[], bs, rfl, h, rfl⟩
  | cons a as ih =>
    obtain ⟨b, bs', hb, hbs, rfl⟩ := mapM_eq_ok_cons h
    obtain ⟨cs, cs', hcs, hcs', rfl⟩ := ih hbs
    refine ⟨b :: cs, cs', ?_, hcs', rfl⟩
    rw [List.mapM_cons, hb, hcs]
    rfl

theorem mapM_append_of_ok {ε α β : Type} {f : α → Except ε β} {as as' : List α} {bs bs' : List β}
    (h : as.mapM f = .ok bs) (h' : as'.mapM f = .ok bs') :
    (as ++ as').mapM f = .ok (bs ++ bs') := by
  rw [List.mapM_append, h, h']
  rfl

theorem type_of_ofPair {p : TypedName} {q : ResolvedParam} (h : ResolvedParam.ofPair p = .ok q) :
    Typing.paramType p.type = .ok q.type := by
  unfold ResolvedParam.ofPair at h
  cases htype : Typing.paramType p.type with
  | error e => rw [htype] at h; cases h
  | ok type => rw [htype] at h; cases h; rfl

theorem name_ne_of_mapM {ps : List TypedName} {qs : List ResolvedParam} {name : String}
    (h : (ps.filter (·.name ≠ name)).mapM ResolvedParam.ofPair = .ok qs) {q : ResolvedParam}
    (hq : q ∈ qs) : q.name ≠ name := by
  obtain ⟨p, hp, hpair⟩ := exists_of_mem_mapM h hq
  rw [(ofPair_eq_ok hpair).1]
  simpa using (List.mem_filter.1 hp).2

namespace ResolvedEndpoint

/-- The resolved endpoint takes the parameter `q` for the name in its URL. Of the sorted
    parameters all others are sent, in order and each as it was sorted. -/
structure Reserves (r : ResolvedEndpoint) (sorted : Buckets) (name : String) (q : ResolvedParam) :
    Prop where
  distinct : ((sorted.allRequired ++ sorted.allOptional).map (·.name)).Nodup
  name_eq : q.name = name
  mem : q ∈ r.required
  signature : r.signature = q :: r.serializedRequired
  leftOut : ∃ before after, r.required = before ++ q :: after ∧
    r.serializedRequired = before ++ after
  unsent : ∀ p ∈ r.serializedRequired ++ r.optional, p.name ≠ name
  required : (sorted.allRequired.filter (·.name ≠ name)).mapM ResolvedParam.ofPair =
    .ok r.serializedRequired
  optional : (sorted.allOptional.filter (·.name ≠ name)).mapM ResolvedParam.ofPair =
    .ok r.optional
  declared : ∀ p ∈ sorted.allRequired ++ sorted.allOptional, p.name = name →
    Typing.paramType p.type = .ok q.type
  undeclared : (∀ p ∈ sorted.allRequired ++ sorted.allOptional, p.name ≠ name) →
    q.type = ⟨.string, "str"⟩

variable {r : ResolvedEndpoint} {q : ResolvedParam} {before after : List ResolvedParam}
  (hsplit : r.required = before ++ q :: after) (hne : ∀ p ∈ before ++ after, p.name ≠ q.name)
include hsplit hne

theorem find?_required : r.required.find? (·.name = q.name) = some q := by
  have hbefore : before.find? (·.name = q.name) = none :=
    List.find?_eq_none.2 fun p hp => by simpa using hne p (List.mem_append_left _ hp)
  rw [hsplit, List.find?_append, hbefore]
  simp

theorem serializedRequired_eq (hreserved : r.reserved = some q) :
    r.serializedRequired = before ++ after := by
  unfold serializedRequired
  rw [hreserved]
  dsimp only
  rw [hsplit, List.filter_append, List.filter_cons_of_neg (by simp), ← List.filter_append]
  exact List.filter_eq_self.2 fun p hp => by simpa using hne p hp

end ResolvedEndpoint

namespace Endpoint

variable {nameSpace : String} {e : Endpoint} {r : ResolvedEndpoint}

theorem reserved_eq_of_resolve (h : (e.resolve nameSpace).value = some r) :
    r.reserved = (placeholder? e.url).bind fun name => r.required.find? (·.name = name) := by
  obtain ⟨-, -, returnType, params, -, -, rfl⟩ := resolve_eq_some_iff.1 h
  rfl

/-- Where the reserved parameter stands among the resolved ones. -/
theorem exists_reserved (h : (e.resolve nameSpace).value = some r) {name : String}
    (hname : placeholder? e.url = some name) :
    ∃ before q after, r.required = before ++ q :: after ∧
      ResolvedParam.ofPair (reservedPair name
        ((e.buckets nameSpace).allRequired ++ (e.buckets nameSpace).allOptional)) = .ok q ∧
      ((e.buckets nameSpace).allRequired.filter (·.name ≠ name)).mapM ResolvedParam.ofPair =
        .ok (before ++ after) ∧
      ((e.buckets nameSpace).allOptional.filter (·.name ≠ name)).mapM ResolvedParam.ofPair =
        .ok r.optional := by
  obtain ⟨-, -, returnType, params, -, hparams, rfl⟩ := resolve_eq_some_iff.1 h
  obtain ⟨hrequired, hoptional⟩ := resolveParams_eq_ok hparams
  obtain ⟨before, after, hsplit, hothers⟩ :=
    withReserved_eq name (e.nodup_names_buckets nameSpace)
  rw [parameters_eq, hname, hsplit] at hrequired hoptional
  obtain ⟨qs, rest, hqs, hrest, hall⟩ := mapM_eq_ok_append hrequired
  obtain ⟨q, qs', hq, hqs', rfl⟩ := mapM_eq_ok_cons hrest
  refine ⟨qs, q, qs', hall, hq, ?_, hoptional⟩
  rw [← hothers]
  exact mapM_append_of_ok hqs hqs'

theorem reserves_of_resolve (h : (e.resolve nameSpace).value = some r) {name : String}
    (hname : placeholder? e.url = some name) :
    ∃ q, r.reserved = some q ∧ r.Reserves (e.buckets nameSpace) name q := by
  obtain ⟨before, q, after, hsplit, hpair, hrequired, hoptional⟩ := exists_reserved h hname
  obtain rfl : q.name = name := (ofPair_eq_ok hpair).1.trans (name_reservedPair _ _)
  have hne : ∀ p ∈ before ++ after, p.name ≠ q.name := fun p hp => name_ne_of_mapM hrequired hp
  have htype := type_of_ofPair hpair
  have hreserved : r.reserved = some q := by
    rw [reserved_eq_of_resolve h, hname]
    exact ResolvedEndpoint.find?_required hsplit hne
  have hserialized := ResolvedEndpoint.serializedRequired_eq hsplit hne hreserved
  refine ⟨q, hreserved, ?_⟩
  constructor
  case distinct => exact e.nodup_names_buckets nameSpace
  case name_eq => rfl
  case mem => simp [hsplit]
  case signature => rw [ResolvedEndpoint.signature, hreserved]; rfl
  case leftOut => exact ⟨before, after, hsplit, hserialized⟩
  case unsent =>
    intro p hp
    rw [hserialized] at hp
    rcases List.mem_append.1 hp with hp | hp
    · exact hne p hp
    · exact name_ne_of_mapM hoptional hp
  case required => rwa [hserialized]
  case optional => exact hoptional
  case declared =>
    intro p hp hpname
    rw [← hpname, reservedPair_of_mem (e.nodup_names_buckets nameSpace) hp] at htype
    exact htype
  case undeclared =>
    intro hnone
    rw [reservedPair, List.find?_eq_none.2 (by simpa using hnone)] at htype
    exact (Except.ok.inj htype).symm

end Endpoint

-- ---------------------------------------------------------------------------
-- The URL
-- ---------------------------------------------------------------------------

/-- Dropping characters from the front does not reach into a word that begins with another
    character. -/
theorem infix_dropWhile {p : Char → Bool} {c : Char} (hc : p c = false) {word s : List Char}
    (h : c :: word <:+: s) : c :: word <:+: s.dropWhile p := by
  induction s with
  | nil => exact h
  | cons x xs ih =>
    rw [List.dropWhile_cons]
    split
    · next hx =>
      rcases List.infix_cons_iff.1 h with hprefix | hinfix
      · obtain ⟨rfl, -⟩ := List.cons_prefix_cons.1 hprefix
        rw [hc] at hx
        cases hx
      · exact ih hinfix
    · exact h

/-- A placeholder stays in the URL that a call goes to. -/
theorem Settings.infix_resolveUrl (settings : Settings) {url word : String}
    (h : ("\x7b" ++ word).toList <:+: url.toList) :
    ("\x7b" ++ word).toList <:+: (settings.resolveUrl url).toList := by
  have hword : ("\x7b" ++ word).toList = '\x7b' :: word.toList := String.toList_append
  have hsuffixed : url.toList <+: (settings.withSuffix url).toList := by
    unfold withSuffix
    split
    · exact List.prefix_refl _
    · rw [String.toList_append]
      exact List.prefix_append _ _
  rw [hword] at h ⊢
  unfold resolveUrl
  split
  · exact h
  · rw [String.toList_append, Script.dropSlashes_string, String.toList_ofList]
    refine List.IsInfix.trans ?_ (List.suffix_append _ _).isInfix
    exact infix_dropWhile (by decide) (h.trans hsuffixed.isInfix)

-- ---------------------------------------------------------------------------
-- Arguments
-- ---------------------------------------------------------------------------

namespace Stub

/-- What the argument of a parameter holds. -/
structure Argument.Describes (p : ResolvedParam) (a : Argument) : Prop where
  name : a.name = p.name
  attr : a.attr = p.attr
  hint : a.hint = p.type.hint
  /-- Lists are sent as what a helper makes of them, and all else as it is. -/
  value : a.value = match p.type.shape with
    | .stringList => "str_collection_parameter(self._" ++ p.attr ++ ")"
    | .list => "collection_parameter(self._" ++ p.attr ++ ")"
    | .normal | .string | .upload => "self._" ++ p.attr
  placeholder : a.placeholder = "\x7b" ++ p.name ++ "\x7d"

theorem Argument.describes_ofParam (p : ResolvedParam) : Describes p (.ofParam p) where
  name := rfl
  attr := rfl
  hint := rfl
  value := by
    unfold ofParam ParamType.serializer?
    cases p.type.shape <;> rfl
  placeholder := rfl

theorem describes_map (ps : List ResolvedParam) :
    List.Forall₂ Argument.Describes ps (ps.map .ofParam) := by
  rw [List.forall₂_map_right_iff]
  exact List.forall₂_same.2 fun p _ => Argument.describes_ofParam p

/-- The call puts the argument `a` into its URL, where the placeholder of `name` is, and
    sends nothing else of that name. -/
structure Call.PutsOnce (c : Call) (name : String) (a : Argument) : Prop where
  reserved : c.reserved = some a
  name_eq : a.name = name
  placeholder_eq : a.placeholder = "\x7b" ++ name ++ "\x7d"
  occurs : ∃ url, c.url = some url ∧ a.placeholder.toList <:+: url.toList
  signature : c.signature = a :: c.serializedRequired
  unsent : ∀ b ∈ c.serializedRequired ++ c.optional, b.name ≠ name

variable {nameSpace : String} {e : Endpoint} {r : ResolvedEndpoint}

theorem describes_call (h : (e.resolve nameSpace).value = some r) (settings : Settings) :
    List.Forall₂ Argument.Describes r.reserved.toList
        (Call.ofResolved settings r).reserved.toList ∧
      List.Forall₂ Argument.Describes r.signature (Call.ofResolved settings r).signature ∧
      List.Forall₂ Argument.Describes r.serializedRequired
        (Call.ofResolved settings r).serializedRequired ∧
      List.Forall₂ Argument.Describes r.optional (Call.ofResolved settings r).optional := by
  obtain ⟨hreserved, hsignature, hrequired, hoptional⟩ := arguments_of_resolve h settings
  rw [hreserved, hsignature, hrequired, hoptional, Option.toList_map]
  exact ⟨describes_map _, describes_map _, describes_map _, describes_map _⟩

theorem url_of_resolve (h : (e.resolve nameSpace).value = some r) (settings : Settings) :
    (Call.ofResolved settings r).url = e.url.map settings.resolveUrl := by
  obtain ⟨-, -, returnType, params, -, -, rfl⟩ := Endpoint.resolve_eq_some_iff.1 h
  rfl

theorem putsOnce_call (h : (e.resolve nameSpace).value = some r) (settings : Settings)
    {sorted : Buckets} {name url : String} {q : ResolvedParam} (hq : r.reserved = some q)
    (hreserves : r.Reserves sorted name q) (hurl : e.url = some url)
    (hoccurs : ("\x7b" ++ name ++ "\x7d").toList <:+: (settings.resolveUrl url).toList) :
    (Call.ofResolved settings r).PutsOnce name (.ofParam q) := by
  obtain ⟨hreserved, hsignature, hrequired, hoptional⟩ := arguments_of_resolve h settings
  have hname := hreserves.name_eq
  have hplaceholder : (Argument.ofParam q).placeholder = "\x7b" ++ name ++ "\x7d" := by
    rw [← hname]
    rfl
  constructor
  case reserved => rw [hreserved, hq, Option.map_some]
  case name_eq => exact hname
  case placeholder_eq => exact hplaceholder
  case occurs => exact ⟨_, by rw [url_of_resolve h, hurl, Option.map_some], hplaceholder ▸ hoccurs⟩
  case signature => rw [hsignature, hreserves.signature, hrequired, List.map_cons]
  case unsent =>
    intro b hb
    rw [hrequired, hoptional, ← List.map_append] at hb
    obtain ⟨p, hp, rfl⟩ := List.mem_map.1 hb
    exact hreserves.unsent p hp

/-- The URL of an endpoint names the parameter between its first opening brace and the next
    closing brace. If it names none, all required parameters are sent. If it names one, that
    one is taken from the sorted parameters, or made up as a string, and goes into the URL and
    nowhere else, while all other parameters are sent as they are sorted. In any case the call
    has an argument for each of the parameters, in the same order. -/
theorem reserved_parameter_once (h : (e.resolve nameSpace).value = some r) (settings : Settings) :
    (∀ name, placeholder? e.url = some name ↔
      ∃ pre post, e.url = some (pre ++ "\x7b" ++ name ++ "\x7d" ++ post) ∧
        '\x7b' ∉ pre.toList ∧ '\x7d' ∉ name.toList) ∧
    (placeholder? e.url = none →
      r.reserved = none ∧ r.signature = r.required ∧ r.serializedRequired = r.required) ∧
    (∀ name, placeholder? e.url = some name →
      (∃ q, r.reserved = some q ∧ r.Reserves (e.buckets nameSpace) name q) ∧
      (∃ url, e.url = some url ∧
        ("\x7b" ++ name ++ "\x7d").toList <:+: (settings.resolveUrl url).toList) ∧
      ∃ a, (Call.ofResolved settings r).PutsOnce name a) ∧
    List.Forall₂ Argument.Describes r.reserved.toList
      (Call.ofResolved settings r).reserved.toList ∧
    List.Forall₂ Argument.Describes r.signature (Call.ofResolved settings r).signature ∧
    List.Forall₂ Argument.Describes r.serializedRequired
      (Call.ofResolved settings r).serializedRequired ∧
    List.Forall₂ Argument.Describes r.optional (Call.ofResolved settings r).optional := by
  refine ⟨fun name => placeholder?_eq_some_iff, fun hnone => ?_, fun name hname => ?_,
    describes_call h settings⟩
  · have hreserved : r.reserved = none := by
      rw [Endpoint.reserved_eq_of_resolve h, hnone]
      rfl
    have hserialized : r.serializedRequired = r.required := by
      rw [ResolvedEndpoint.serializedRequired, hreserved]
    refine ⟨hreserved, ?_, hserialized⟩
    rw [ResolvedEndpoint.signature, hreserved, hserialized]
    rfl
  · obtain ⟨pre, post, hurl, -, -⟩ := placeholder?_eq_some_iff.1 hname
    obtain ⟨q, hq, hreserves⟩ := Endpoint.reserves_of_resolve h hname
    have hoccurs : ("\x7b" ++ name ++ "\x7d").toList <:+:
        (settings.resolveUrl (pre ++ "\x7b" ++ name ++ "\x7d" ++ post)).toList := by
      have hword : "\x7b" ++ name ++ "\x7d" = "\x7b" ++ (name ++ "\x7d") := String.append_assoc
      rw [hword]
      exact settings.infix_resolveUrl ⟨pre.toList, post.toList, by simp⟩
    exact ⟨⟨q, hq, hreserves⟩, ⟨_, hurl, hoccurs⟩, _,
      putsOnce_call h settings hq hreserves hurl hoccurs⟩

/-- The URL names a parameter that is declared as an optional one. -/
theorem reserved_parameter_once_profile :
    ∃ r, ((profile "lang").resolve "Users").value = some r ∧
      r.signature.map (·.name) = ["lang", "screen_name", "from"] ∧
      placeholder? (profile "lang").url = some "lang" ∧
      (∃ q, r.reserved = some q ∧ r.Reserves ((profile "lang").buckets "Users") "lang" q) ∧
      (∃ url, (profile "lang").url = some url ∧
        ("\x7b" ++ "lang" ++ "\x7d").toList <:+: (({} : Settings).resolveUrl url).toList) ∧
      (∃ a, (Call.ofResolved ({} : Settings) r).PutsOnce "lang" a) ∧
      (Call.ofResolved ({} : Settings) r).serializedRequired.map (·.name) =
        ["screen_name", "from"] ∧
      List.Forall₂ Argument.Describes r.signature
        (Call.ofResolved ({} : Settings) r).signature := by
  obtain ⟨r, hr, hnames, hsent⟩ : ∃ r, ((profile "lang").resolve "Users").value = some r ∧
      r.signature.map (·.name) = ["lang", "screen_name", "from"] ∧
      (Call.ofResolved ({} : Settings) r).serializedRequired.map (·.name) =
        ["screen_name", "from"] := by
    have hsome : ((profile "lang").resolve "Users").value.map (fun r : ResolvedEndpoint =>
        (r.signature.map (·.name),
          (Call.ofResolved ({} : Settings) r).serializedRequired.map (·.name))) =
        some (["lang", "screen_name", "from"], ["screen_name", "from"]) := by decide +kernel
    obtain ⟨r, hr, hboth⟩ := Option.map_eq_some_iff.1 hsome
    exact ⟨r, hr, congrArg Prod.fst hboth, congrArg Prod.snd hboth⟩
  have hlang : placeholder? (profile "lang").url = some "lang" := by decide +kernel
  obtain ⟨-, -, hreserved, -, hsignature, -, -⟩ := reserved_parameter_once hr {}
  obtain ⟨hreserves, hurl, hputs⟩ := hreserved "lang" hlang
  exact ⟨r, hr, hnames, hlang, hreserves, hurl, hputs, hsent, hsignature⟩

end Stub

end ApiStubs
