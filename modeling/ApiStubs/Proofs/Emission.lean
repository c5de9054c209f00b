-- SUMMARY: What the writer of a client relies on holds for templates that are read and merged.
import ApiStubs.Proofs.Declared
import ApiStubs.Proofs.Literals
import ApiStubs.Proofs.MergeEffect

/-!
# Emission

The text of a call has a place for a method and a URL, and it is written whether they are
there or not. That they are there follows from the grammar: only a call by hand has no URL,
and it is written without one.

A merge makes no endpoints of its own, so what is declared of the endpoints of all files
holds after it.
-/

namespace ApiStubs

open Text

-- ---------------------------------------------------------------------------
-- Endpoints after a merge
-- ---------------------------------------------------------------------------

namespace Endpoint

theorem mem_replaceFirst {o e : Endpoint} {es : List Endpoint} (h : e ∈ replaceFirst o es) :
    e = o ∨ e ∈ es := by
  induction es with
  | nil => cases h
  | cons f es ih =>
    rw [replaceFirst] at h
    split at h
    · rcases List.mem_cons.1 h with rfl | hmem
      · exact .inl rfl
      · exact .inr (List.mem_cons_of_mem _ hmem)
    · rcases List.mem_cons.1 h with rfl | hmem
      · exact .inr List.mem_cons_self
      · exact (ih hmem).imp_right (List.mem_cons_of_mem _)

/-- An override brings in no endpoint but its own. -/
theorem mem_override {ns : String} {es : List Endpoint} {o e : Endpoint}
    (h : e ∈ (override ns es o).value) : e = o ∨ e ∈ es := by
  rw [value_override] at h
  split at h
  · split at h
    · exact .inr ((removeFirst_sublist o.name es).subset h)
    · exact mem_replaceFirst h
  · split at h
    · exact .inr h
    · exact (List.mem_append.1 h).symm.imp_left List.mem_singleton.1

theorem mem_overrideAll {ns : String} {es os : List Endpoint} {e : Endpoint}
    (h : e ∈ overrideAll ns es os) : e ∈ es ∨ e ∈ os := by
  induction os generalizing es with
  | nil => exact .inl h
  | cons o os ih =>
    rcases ih h with hmem | hmem
    · rcases mem_override hmem with rfl | hmem
      · exact .inr List.mem_cons_self
      · exact .inl hmem
    · exact .inr (List.mem_cons_of_mem _ hmem)

end Endpoint

namespace Template

theorem mem_endpointsOf_merge_singleton {ts : List Template} {o : Template} {e : Endpoint}
    (h : e ∈ endpointsOf (merge ts [o]).value) : e ∈ endpointsOf ts ∨ e ∈ o.endpoints := by
  rcases new_or_last o.nameSpace ts with hnew | ⟨before, t, after, rfl, ht, hafter⟩
  · rw [merge_singleton_of_new hnew] at h
    simpa [endpointsOf] using h
  · rw [merge_singleton_of_last ht hafter, value_override] at h
    simp only [endpointsOf, List.flatMap_append, List.flatMap_cons, List.mem_append] at h ⊢
    rcases h with hbefore | hreceived | hafter
    · exact .inl (.inl hbefore)
    · exact (Endpoint.mem_overrideAll hreceived).imp_left fun ht => .inr (.inl ht)
    · exact .inl (.inr (.inr hafter))

/-- After a merge there are no endpoints but those of the base and the overrides. -/
theorem mem_endpointsOf_merge {base overrides : List Template} {e : Endpoint}
    (h : e ∈ endpointsOf (merge base overrides).value) :
    e ∈ endpointsOf base ∨ e ∈ endpointsOf overrides := by
  induction overrides generalizing base with
  | nil =>
    rw [merge_nil] at h
    exact .inl h
  | cons o overrides ih =>
    rw [merge_cons] at h
    have hcons : endpointsOf (o :: overrides) = o.endpoints ++ endpointsOf overrides := rfl
    rw [hcons, List.mem_append]
    rcases ih h with hmem | hmem
    · exact (mem_endpointsOf_merge_singleton hmem).imp_right .inl
    · exact .inr (.inr hmem)

theorem declared_of_merge {base overrides : List Template}
    (h : ∀ t ∈ base ++ overrides, ∃ text, Template.parse text = .ok t) :
    ∀ e ∈ endpointsOf (merge base overrides).value, e.Declared := by
  intro e he
  have hfile : e ∈ endpointsOf (base ++ overrides) := by
    rw [endpointsOf, List.flatMap_append]
    exact List.mem_append.2 (mem_endpointsOf_merge he)
  obtain ⟨t, ht, he⟩ := List.mem_flatMap.1 hfile
  obtain ⟨text, hparse⟩ := h t ht
  exact declared_of_parse hparse e he

end Template

-- ---------------------------------------------------------------------------
-- Calls
-- ---------------------------------------------------------------------------

namespace Stub

/-- A call is made by hand, or by a request with a method and a URL. The literals of a request
    are its URL, the placeholder in it if there is one, and the method. -/
inductive Call.Dispatches (c : Call) : Prop where
  | byHand (function : String) (hfunction : c.implFunction = some function)
      (hnonempty : function ≠ "") (hmethod : c.httpMethod = none) (hurl : c.url = none)
      (hreserved : c.reserved = none)
      (htext : execution c = unlines [s!"        return impls.{function}(self._client, params)"])
  | byRequest (word url : String) (hfunction : c.implFunction = none)
      (hmethod : c.httpMethod = some word) (hword : word = "GET" ∨ word = "POST")
      (hurl : c.url = some url)
      (hliterals : Literal.literals (execution c).toList =
        some (url :: (c.reserved.toList.map (·.placeholder) ++ [word])))

theorem implFunction_ne_empty (nameSpace endpoint : String) :
    Naming.implFunction nameSpace endpoint ≠ "" := by
  have hmiddle : Naming.implFunction nameSpace endpoint =
      Naming.snakeCase nameSpace ++ "_" ++ Naming.snakeCase endpoint := rfl
  rw [hmiddle]
  simp

theorem execution_of_byHand {c : Call} {function : String} (h : c.implFunction = some function)
    (hne : function ≠ "") :
    execution c = unlines [s!"        return impls.{function}(self._client, params)"] := by
  unfold execution
  rw [h]
  exact if_neg hne

section Resolved

variable {nameSpace : String} {e : Endpoint} {r : ResolvedEndpoint}
  (h : (e.resolve nameSpace).value = some r) (settings : Settings)
include h

theorem isIdentifier_of_resolve : Naming.IsIdentifier (Call.ofResolved settings r).methodName := by
  obtain ⟨-, -, returnType, params, -, -, rfl⟩ := Endpoint.resolve_eq_some_iff.1 h
  dsimp only [Call.ofResolved, Endpoint.assemble]
  exact Naming.isIdentifier_methodName e.name

/-- The reserved argument of a call is the one that the URL of its endpoint names. -/
theorem reserved_of_call :
    (Call.ofResolved settings r).reserved.map (·.name) = placeholder? e.url := by
  rw [(arguments_of_resolve h settings).1, ← Endpoint.reserved_of_resolve h, Option.map_map]
  rfl

/-- The method of a declared endpoint decides how it is called, and the call has what it
    needs for that. -/
theorem dispatches_of_declared (he : e.Declared) : (Call.ofResolved settings r).Dispatches := by
  have hreserved := reserved_of_call h settings
  have hplain := (plain_call h settings).2.2
  obtain ⟨-, -, returnType, params, -, -, rfl⟩ := Endpoint.resolve_eq_some_iff.1 h
  -- Both kinds of requests have a URL, because only a call by hand has none.
  have hrequest {word : String} (hmethod : e.method ≠ .impl)
      (hword : requestWord e.method = some word) (hknown : word = "GET" ∨ word = "POST") :
      (Call.ofResolved settings
        (e.assemble nameSpace returnType params.1 params.2)).Dispatches := by
    obtain ⟨u, hu⟩ := Option.ne_none_iff_exists'.1 (mt he.method.1 hmethod)
    have hurl : e.url.map settings.resolveUrl = some (settings.resolveUrl u) := by rw [hu]; rfl
    have hfunction : (e.assemble nameSpace returnType params.1 params.2).implFunction = none :=
      if_neg hmethod
    have hliterals := (holds_execution hplain hfunction).literals_eq
    refine .byRequest word _ hfunction hword hknown hurl ?_
    rw [hliterals, Call.requestTexts]
    dsimp only [Call.ofResolved, Endpoint.assemble]
    rw [hurl, hword]
    rfl
  cases hmethod : e.method with
  | get => exact hrequest (by simp [hmethod]) (congrArg requestWord hmethod) (.inl rfl)
  | post => exact hrequest (by simp [hmethod]) (congrArg requestWord hmethod) (.inr rfl)
  | impl =>
    have hurl : e.url = none := he.method.2 hmethod
    have hfunction : (e.assemble nameSpace returnType params.1 params.2).implFunction =
        some (Naming.implFunction nameSpace e.name) := if_pos hmethod
    have hnonempty := implFunction_ne_empty nameSpace e.name
    refine .byHand _ hfunction hnonempty (congrArg requestWord hmethod) ?_ ?_
      (execution_of_byHand hfunction hnonempty)
    · exact congrArg (Option.map settings.resolveUrl) hurl
    · rw [hurl] at hreserved
      exact Option.map_eq_none_iff.1 hreserved

end Resolved

end Stub

/-- What is read from files and merged keeps what the files declare, and every call that is
    written for it is made by hand, or by a request with a method and a URL. -/
theorem Template.declared_and_dispatched_of_merge {base overrides : List Template}
    (h : ∀ t ∈ base ++ overrides, ∃ text, Template.parse text = .ok t) :
    ∀ t ∈ (Template.merge base overrides).value,
      (∀ e ∈ t.endpoints, e.Declared) ∧
        ∀ settings : Settings, ∀ c ∈ (Stub.Section.build settings t).value.calls,
          c.Dispatches ∧ Naming.IsIdentifier c.methodName := by
  intro t ht
  have hdeclared : ∀ e ∈ t.endpoints, e.Declared := fun e he =>
    Template.declared_of_merge h e (List.mem_flatMap.2 ⟨t, ht, he⟩)
  refine ⟨hdeclared, fun settings c hc => ?_⟩
  obtain ⟨e, he, r, hr, rfl⟩ := Stub.mem_calls_build.1 hc
  exact ⟨Stub.dispatches_of_declared hr settings (hdeclared e he),
    Stub.isIdentifier_of_resolve hr settings⟩

/-- A return type that holds a slash and a directive word, and a name that is a keyword in
    small letters. -/
def libraryText : String :=
  "#namespace Library\nendpoint a/b#raw Class:Get books/\x7bid\x7d\n" ++
    "\x7bparams\x7beither[2] int id when asked\n\x7d\x7d"

def library : Template where
  nameSpace := "Library"
  endpoints := [{
    returnType := "a/b#raw"
    name := "Class"
    url := some "books/\x7bid\x7d"
    params := [{ kind := .either, pairs := [⟨"int", "id"⟩], guard := some "asked", group := 2 }] }]

def libraryChangeText : String :=
  "#namespace Library\nendpoint void Lend:Impl\x7bwith\x7b[Once]=\n\x7dreturns\x7bA book.\x7d\x7d"

def libraryChange : Template where
  nameSpace := "Library"
  endpoints := [{
    name := "Lend"
    method := .impl
    attributes := [("Once", "")]
    returns := some "A book." }]

/-- A request and a call by hand. -/
theorem Template.declared_and_dispatched_of_merge_library :
    Template.parse libraryText = .ok library ∧
      Template.parse libraryChangeText = .ok libraryChange ∧
      ∃ t ∈ (Template.merge [library] [libraryChange]).value,
        (∀ e ∈ t.endpoints, e.Declared) ∧
          ∃ c ∈ (Stub.Section.build ({} : Settings) t).value.calls,
            ∃ d ∈ (Stub.Section.build ({} : Settings) t).value.calls,
              (c.url = some "https://api.twitter.com/1.1/books/\x7bid\x7d.json" ∧
                c.httpMethod = some "GET" ∧ c.methodName = "class_" ∧
                d.implFunction = some "library_lend") ∧
              (c.Dispatches ∧ Naming.IsIdentifier c.methodName) ∧
              d.Dispatches ∧ Naming.IsIdentifier d.methodName := by
  have hbase : Template.parse libraryText = .ok library :=
    Source.eq_ok_of_toOption (by decide +kernel)
  have hchange : Template.parse libraryChangeText = .ok libraryChange :=
    Source.eq_ok_of_toOption (by decide +kernel)
  have hparsed : ∀ t ∈ [library] ++ [libraryChange], ∃ text, Template.parse text = .ok t := by
    intro t ht
    rcases List.mem_cons.1 ht with rfl | ht
    · exact ⟨libraryText, hbase⟩
    · rw [List.mem_singleton.1 ht]
      exact ⟨libraryChangeText, hchange⟩
  obtain ⟨t, ht, c, hc, d, hd, hcalls⟩ :
      ∃ t ∈ (Template.merge [library] [libraryChange]).value,
        ∃ c ∈ (Stub.Section.build ({} : Settings) t).value.calls,
          ∃ d ∈ (Stub.Section.build ({} : Settings) t).value.calls,
            c.url = some "https://api.twitter.com/1.1/books/\x7bid\x7d.json" ∧
              c.httpMethod = some "GET" ∧ c.methodName = "class_" ∧
              d.implFunction = some "library_lend" := by
    decide +kernel
  obtain ⟨hdeclared, hdispatches⟩ := Template.declared_and_dispatched_of_merge hparsed t ht
  exact ⟨hbase, hchange, t, ht, hdeclared, c, hc, d, hd, hcalls, hdispatches {} c hc,
    hdispatches {} d hd⟩

end ApiStubs
