-- SUMMARY: When the names of generated methods, accessors and classes clash.
import ApiStubs.Proofs.Generation
import ApiStubs.Proofs.SnakeCase
import Mathlib.Data.List.Nodup

/-!
# Clashes of generated names

Methods and accessors are named by the identifier of a snake case, and request builders by a
namespace and an endpoint with nothing between them. Neither way keeps all names apart, and
of two definitions with one name the second one hides the first.

`generated_names_nodup_iff` says exactly which names clash. Two methods or accessors clash
only if their names have the same letters and digits apart from case. Two classes clash only
if they are request builders, and one namespace is the other one followed by the beginning of
an endpoint name.
-/

namespace ApiStubs

open Naming Stub

/-- The endpoints of a template that get a call. -/
def Template.kept (t : Template) : List Endpoint := t.endpoints.filter (·.isKept t.nameSpace)

namespace Stub

/-- The classes of a section: the client of its namespace and a builder for each call. -/
def Section.classNames (s : Section) : List String := s.clientClass :: s.calls.map (·.builderClass)

/-- The classes that a client defines for its namespaces. -/
def classNames (settings : Settings) (templates : List Template) : List String :=
  templates.flatMap fun t => (Section.build settings t).value.classNames

/-- What a call takes from its endpoint is found endpoint by endpoint. -/
theorem map_calls_build {α : Type} {view : Call → α} {source : Endpoint → α} (settings : Settings)
    (t : Template)
    (h : ∀ e r, (e.resolve t.nameSpace).value = some r →
      view (Call.ofResolved settings r) = source e) :
    (Section.build settings t).value.calls.map view = t.kept.map source := by
  change (resolveCalls settings t.nameSpace t.endpoints).value.map view = _
  rw [value_resolveCalls, Template.kept]
  induction t.endpoints with
  | nil => rfl
  | cons e es ih =>
    rw [List.filterMap_cons, List.filter_cons, Endpoint.isKept]
    cases hr : (e.resolve t.nameSpace).value with
    | none => exact ih
    | some r =>
      rw [Option.map_some, List.map_cons, ih, h e r hr]
      rfl

theorem methodNames_build (settings : Settings) (t : Template) :
    (Section.build settings t).value.calls.map (·.methodName) =
      (t.kept.map (·.name)).map methodName := by
  rw [List.map_map]
  refine map_calls_build settings t fun e r hr => ?_
  dsimp only [Call.ofResolved, Function.comp_apply]
  exact (Endpoint.names_of_resolve hr).2.1

theorem accessors_build (settings : Settings) (templates : List Template) :
    (Preamble.build settings templates).accessors.map (·.accessor) =
      (templates.map (·.nameSpace)).map accessor := by
  dsimp only [Preamble.build]
  rw [List.map_map, List.map_map]
  refine List.map_congr_left fun t _ => ?_
  dsimp only [Accessor.ofTemplate, Function.comp_apply]

theorem classNames_build (settings : Settings) (t : Template) :
    (Section.build settings t).value.classNames =
      clientClass t.nameSpace :: t.kept.map fun e => builderClass t.nameSpace e.name := by
  refine congrArg (clientClass t.nameSpace :: ·) (map_calls_build settings t fun e r hr => ?_)
  dsimp only [Call.ofResolved]
  exact (Endpoint.names_of_resolve hr).2.2

end Stub

-- ---------------------------------------------------------------------------
-- Classes
-- ---------------------------------------------------------------------------

namespace Naming

/-- The class of a namespace, or of one of its endpoints. -/
def className : String × Option String → String
  | (nameSpace, none) => clientClass nameSpace
  | (nameSpace, some endpoint) => builderClass nameSpace endpoint

theorem clientClass_ne_builderClass (a b endpoint : String) :
    clientClass a ≠ builderClass b endpoint := by
  intro h
  have hlast := congrArg (·.toList.getLast?) h
  have hclient : clientClass a = a ++ "Client" := rfl
  have hbuilder : builderClass b endpoint = b ++ endpoint ++ "RequestBuilder" := rfl
  simp [hclient, hbuilder] at hlast

theorem clientClass_inj {a b : String} : clientClass a = clientClass b ↔ a = b := by
  have hclient (c : String) : clientClass c = c ++ "Client" := rfl
  rw [hclient, hclient]
  simp

theorem builderClass_eq_iff {a b e f : String} :
    builderClass a e = builderClass b f ↔ a ++ e = b ++ f := by
  have hbuilder (c g : String) : builderClass c g = c ++ g ++ "RequestBuilder" := rfl
  rw [hbuilder, hbuilder]
  simp

/-- Two texts that are put together in two ways: one first part goes on with the beginning
    of the other second part. -/
theorem append_eq_append_cases {a b e f : String} (h : a ++ e = b ++ f) :
    (∃ x, b = a ++ x ∧ e = x ++ f) ∨ ∃ x, a = b ++ x ∧ f = x ++ e := by
  have hlists := congrArg String.toList h
  rw [String.toList_append, String.toList_append, List.append_eq_append_iff] at hlists
  refine hlists.imp ?_ ?_
  · rintro ⟨x, hb, he⟩
    exact ⟨.ofList x, String.toList_inj.1 (by simpa using hb),
      String.toList_inj.1 (by simpa using he)⟩
  · rintro ⟨x, ha, hf⟩
    exact ⟨.ofList x, String.toList_inj.1 (by simpa using ha),
      String.toList_inj.1 (by simpa using hf)⟩

end Naming

namespace Template

/-- What the classes of a client are named for: the namespaces, and their endpoints. -/
def classSources (templates : List Template) : List (String × Option String) :=
  templates.flatMap fun t =>
    (t.nameSpace, none) :: t.kept.map fun e => (t.nameSpace, some e.name)

theorem map_classSources (settings : Settings) (templates : List Template) :
    (classSources templates).map className = Stub.classNames settings templates := by
  unfold classSources Stub.classNames
  rw [List.map_flatMap]
  refine congrArg (List.flatMap · templates) (funext fun t => ?_)
  rw [classNames_build, List.map_cons, List.map_map]
  rfl

section Distinct

variable {templates : List Template} (hnamespaces : (templates.map (·.nameSpace)).Nodup)
  (hendpoints : ∀ t ∈ templates, (t.endpoints.map (·.name)).Nodup)

include hendpoints in
theorem nodup_names_kept {t : Template} (ht : t ∈ templates) : (t.kept.map (·.name)).Nodup :=
  (List.filter_sublist.map _).nodup (hendpoints t ht)

include hnamespaces hendpoints in
theorem nodup_classSources : (classSources templates).Nodup := by
  refine List.nodup_flatMap.2 ⟨fun t ht => ?_, ?_⟩
  · refine List.nodup_cons.2 ⟨by simp, ?_⟩
    have hnames := (nodup_names_kept hendpoints ht).map
      (f := fun name => (t.nameSpace, some name)) fun a b heq => by simpa using heq
    rwa [List.map_map] at hnames
  · -- Sources of different templates have different namespaces.
    refine (List.pairwise_map.1 hnamespaces).imp fun {t u} hne => ?_
    intro source ht hu
    have hfirst (v : Template) (hv : source ∈ (v.nameSpace, none) ::
        v.kept.map fun e => (v.nameSpace, some e.name)) : source.1 = v.nameSpace := by
      rcases List.mem_cons.1 hv with rfl | hv
      · rfl
      · obtain ⟨e, -, rfl⟩ := List.mem_map.1 hv
        rfl
    exact hne ((hfirst t ht).symm.trans (hfirst u hu))

/-- No namespace goes on with the beginning of an endpoint name of another one, so that the
    rest of it is an endpoint of the longer namespace. -/
def BuildersApart (templates : List Template) : Prop :=
  ∀ t ∈ templates, ∀ u ∈ templates, ∀ e ∈ t.kept, ∀ f ∈ u.kept, ∀ x,
    u.nameSpace = t.nameSpace ++ x → e.name = x ++ f.name → x = ""

include hnamespaces hendpoints in
theorem nodup_classNames_iff (settings : Settings) :
    (Stub.classNames settings templates).Nodup ↔ BuildersApart templates := by
  rw [← map_classSources, List.nodup_map_iff_inj_on (nodup_classSources hnamespaces hendpoints)]
  have hmem {t : Template} (ht : t ∈ templates) {e : Endpoint} (he : e ∈ t.kept) :
      (t.nameSpace, some e.name) ∈ classSources templates :=
    List.mem_flatMap.2 ⟨t, ht, List.mem_cons_of_mem _ (List.mem_map.2 ⟨e, he, rfl⟩)⟩
  constructor
  · intro hinj t ht u hu e he f hf x hns hname
    have hclass : className (t.nameSpace, some e.name) = className (u.nameSpace, some f.name) := by
      refine builderClass_eq_iff.2 ?_
      rw [hns, hname, String.append_assoc]
    have heq := hinj _ (hmem ht he) _ (hmem hu hf) hclass
    rw [hns, Prod.mk.injEq] at heq
    exact (String.append_right_inj t.nameSpace).1 (heq.1.symm.trans String.append_empty.symm)
  · intro hapart source hsource source' hsource' hclass
    obtain ⟨t, ht, hsource⟩ := List.mem_flatMap.1 hsource
    obtain ⟨u, hu, hsource'⟩ := List.mem_flatMap.1 hsource'
    rcases List.mem_cons.1 hsource with rfl | hsource <;>
      rcases List.mem_cons.1 hsource' with rfl | hsource'
    · rw [clientClass_inj.1 hclass]
    · obtain ⟨f, hf, rfl⟩ := List.mem_map.1 hsource'
      exact absurd hclass (clientClass_ne_builderClass _ _ _)
    · obtain ⟨e, he, rfl⟩ := List.mem_map.1 hsource
      exact absurd hclass.symm (clientClass_ne_builderClass _ _ _)
    · obtain ⟨e, he, rfl⟩ := List.mem_map.1 hsource
      obtain ⟨f, hf, rfl⟩ := List.mem_map.1 hsource'
      rcases append_eq_append_cases (builderClass_eq_iff.1 hclass) with
        ⟨x, hns, hname⟩ | ⟨x, hns, hname⟩
      · have hx := hapart t ht u hu e he f hf x hns hname
        rw [hns, hname, hx, String.append_empty, String.empty_append]
      · have hx := hapart u hu t ht f hf e he x hns hname
        rw [hns, hname, hx, String.append_empty, String.empty_append]

end Distinct

/-- The names in generated code are distinct exactly if the names in the templates are far
    enough apart. Methods of one namespace, and accessors, clash if the snake cases of their
    names become one identifier, and only names with the same letters and digits, apart from
    case, do so. Classes clash if a namespace is another one with the beginning of an endpoint
    name after it. -/
theorem generated_names_nodup_iff (settings : Settings) {templates : List Template}
    (hnamespaces : (templates.map (·.nameSpace)).Nodup)
    (hendpoints : ∀ t ∈ templates, (t.endpoints.map (·.name)).Nodup) :
    (∀ t ∈ templates, ((Section.build settings t).value.calls.map (·.methodName)).Nodup ↔
      ∀ e ∈ t.kept, ∀ f ∈ t.kept,
        SameIdentifier (snakeCase e.name) (snakeCase f.name) → e.name = f.name) ∧
    (((Preamble.build settings templates).accessors.map (·.accessor)).Nodup ↔
      ∀ t ∈ templates, ∀ u ∈ templates,
        SameIdentifier (snakeCase t.nameSpace) (snakeCase u.nameSpace) →
          t.nameSpace = u.nameSpace) ∧
    ((Stub.classNames settings templates).Nodup ↔ BuildersApart templates) ∧
    ∀ a b, SameIdentifier (snakeCase a) (snakeCase b) → letters a = letters b := by
  refine ⟨fun t ht => ?_, ?_, nodup_classNames_iff hnamespaces hendpoints settings,
    fun a b h => letters_eq_of_methodName_eq (identifier_eq_iff.2 h)⟩
  · rw [methodNames_build, List.nodup_map_iff_inj_on (nodup_names_kept hendpoints ht)]
    simp only [List.forall_mem_map, methodName, identifier_eq_iff]
  · rw [accessors_build, List.nodup_map_iff_inj_on hnamespaces]
    simp only [List.forall_mem_map, accessor, identifier_eq_iff]

/-- A library whose names differ and clash in every way: in the names of a method, of an
    accessor and of a class. -/
def clashing : List Template := [
  { nameSpace := "Book", endpoints := [{ name := "ListShow", method := .impl }] },
  { nameSpace := "BookList",
    endpoints := [{ name := "Show", method := .impl }, { name := "show", method := .impl }] },
  { nameSpace := "book" }]

theorem generated_names_nodup_iff_clashing :
    (clashing.map (·.nameSpace)).Nodup ∧ (∀ t ∈ clashing, (t.endpoints.map (·.name)).Nodup) ∧
      (∀ t ∈ clashing, ((Section.build ({} : Settings) t).value.calls.map (·.methodName)).Nodup ↔
        ∀ e ∈ t.kept, ∀ f ∈ t.kept,
          SameIdentifier (snakeCase e.name) (snakeCase f.name) → e.name = f.name) ∧
      (((Preamble.build ({} : Settings) clashing).accessors.map (·.accessor)).Nodup ↔
        ∀ t ∈ clashing, ∀ u ∈ clashing,
          SameIdentifier (snakeCase t.nameSpace) (snakeCase u.nameSpace) →
            t.nameSpace = u.nameSpace) ∧
      ((Stub.classNames {} clashing).Nodup ↔ BuildersApart clashing) := by
  have hnamespaces : (clashing.map (·.nameSpace)).Nodup := by decide
  have hendpoints : ∀ t ∈ clashing, (t.endpoints.map (·.name)).Nodup := by decide
  obtain ⟨hmethods, haccessors, hclasses, -⟩ :=
    generated_names_nodup_iff {} hnamespaces hendpoints
  exact ⟨hnamespaces, hendpoints, hmethods, haccessors, hclasses⟩

/-- Distinct names in template files do not make the names in generated code distinct. -/
theorem exists_generated_names_clash :
    ∃ templates : List Template, (∀ t ∈ templates, ∃ text, Template.parse text = .ok t) ∧
      (templates.map (·.nameSpace)).Nodup ∧
      (∀ t ∈ templates, (t.endpoints.map (·.name)).Nodup) ∧
      (¬ ∀ t ∈ templates,
        ((Section.build ({} : Settings) t).value.calls.map (·.methodName)).Nodup) ∧
      ¬ ((Preamble.build ({} : Settings) templates).accessors.map (·.accessor)).Nodup ∧
      ¬ (Stub.classNames {} templates).Nodup := by
  refine ⟨clashing, ?_, by decide, by decide, by decide +kernel, by decide +kernel,
    by decide +kernel⟩
  intro t ht
  unfold clashing at ht
  rcases List.mem_cons.1 ht with rfl | ht
  · exact ⟨"#namespace Book\nendpoint void ListShow:Impl\x7b\x7d",
      Source.eq_ok_of_toOption (by decide +kernel)⟩
  rcases List.mem_cons.1 ht with rfl | ht
  · exact ⟨"#namespace BookList\nendpoint void Show:Impl\x7b\x7d\nendpoint void show:Impl\x7b\x7d",
      Source.eq_ok_of_toOption (by decide +kernel)⟩
  · rw [List.mem_singleton.1 ht]
    exact ⟨"#namespace book", Source.eq_ok_of_toOption (by decide +kernel)⟩

end Template

end ApiStubs
