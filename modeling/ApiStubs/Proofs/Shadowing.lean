-- SUMMARY: Which generated methods have the name of something that their class holds itself.
import ApiStubs.Proofs.ArgumentNames
import ApiStubs.Proofs.Emission
import ApiStubs.Proofs.SnakeCase

/-!
# Hidden methods

A generated class sets attributes of its own when it is made, and an attribute hides a method
of the same name. All these attributes begin with an underscore, and an identifier may do so
too: only a few words are kept free. `hidden_iff` says exactly which methods are hidden. No
method is hidden whose name in the template begins with a letter or digit, and no method is
ever named `execute`.
-/

namespace ApiStubs

open Naming

-- ---------------------------------------------------------------------------
-- Names with an underscore
-- ---------------------------------------------------------------------------

namespace Naming

/-- The name with identifier characters only. -/
def cleanName (name : String) : String := .ofList (cleaned name.toList)

/-- A name that a class uses itself: an underscore before a word. -/
def IsInner (name : String) : Prop := ∃ word, name.toList = '_' :: word ∧ needsLead word = false

/-- The name begins with a letter or digit of ASCII. -/
def BeginsPlain (name : String) : Prop := ∃ c, name.toList.head? = some c ∧ c.isAlphanum = true

/-- No protection leads to an inner name, so only its own spelling becomes it. -/
theorem identifier_eq_inner_iff {name inner : String} (h : IsInner inner) :
    identifier name = inner ↔ cleanName name = inner := by
  obtain ⟨word, hinner, hword⟩ := h
  rw [← String.toList_inj, ← String.toList_inj, hinner, identifier_eq_underscore_iff hword,
    cleanName, String.toList_ofList]

theorem identifier_mem_inner_iff {inners : List String} (h : ∀ inner ∈ inners, IsInner inner)
    (name : String) : identifier name ∈ inners ↔ cleanName name ∈ inners := by
  constructor
  · intro hmem
    have heq := (identifier_eq_inner_iff (h _ hmem)).1 rfl
    rwa [heq]
  · intro hmem
    have heq := (identifier_eq_inner_iff (h _ hmem)).2 rfl
    rwa [heq]

theorem BeginsPlain.snakeCase {name : String} (h : BeginsPlain name) :
    BeginsPlain (snakeCase name) := by
  obtain ⟨c, hhead, hplain⟩ := h
  obtain ⟨d, ds, hsnake, hd⟩ := exists_head_snakeCaseChars hhead hplain
  refine ⟨d, ?_, hd⟩
  rw [Naming.snakeCase, String.toList_ofList, hsnake]
  rfl

/-- A letter or digit stays when the name is cleaned. -/
theorem BeginsPlain.not_isInner {name : String} (h : BeginsPlain name) :
    ¬ IsInner (cleanName name) := by
  rintro ⟨word, hinner, -⟩
  obtain ⟨c, hhead, hplain⟩ := h
  obtain ⟨cs, hname⟩ := List.head?_eq_some_iff.1 hhead
  have hchar : isIdentifierChar c = true := by
    unfold isIdentifierChar
    rw [hplain, Bool.true_or]
  rw [cleanName, String.toList_ofList, hname, cleaned, List.map_cons, if_pos hchar] at hinner
  obtain rfl := List.head_eq_of_cons_eq hinner
  cases hplain

theorem identifier_hidden {inners : List String} (h : ∀ inner ∈ inners, IsInner inner)
    (name : String) :
    (identifier name ∈ inners ↔ cleanName name ∈ inners) ∧
      (BeginsPlain name → identifier name ∉ inners) := by
  have hiff := identifier_mem_inner_iff h name
  exact ⟨hiff, fun hplain hmem => hplain.not_isInner (h _ (hiff.1 hmem))⟩

theorem isInner_underscore {s : String} (h : IsIdentifier s) : IsInner ("_" ++ s) :=
  ⟨s.toList, by rw [String.toList_append]; rfl, needsLead_of_isIdentifier h⟩

end Naming

-- ---------------------------------------------------------------------------
-- Classes
-- ---------------------------------------------------------------------------

namespace Stub

/-- What a class holds itself: the method that makes it, and an attribute. -/
def innerNames (held : String) : List String := ["__init__", held]

/-- What the aggregate client holds itself. -/
def Preamble.innerNames : List String := Stub.innerNames "_auth"

/-- What the client of a namespace holds itself. -/
def Section.innerNames : List String := Stub.innerNames "_client"

/-- What a request builder holds itself, with an attribute for each of its parameters. -/
def Call.innerNames (c : Call) : List String :=
  Section.innerNames ++ (c.signature ++ c.optional).map fun a => "_" ++ a.attr

theorem isInner_of_mem {held : String} (hheld : IsInner held) :
    ∀ name ∈ innerNames held, IsInner name := by
  intro name h
  rcases List.mem_cons.1 h with rfl | h
  · exact ⟨"_init__".toList, rfl, by decide⟩
  · rwa [List.mem_singleton.1 h]

theorem isInner_preamble : ∀ name ∈ Preamble.innerNames, IsInner name :=
  isInner_of_mem ⟨"auth".toList, rfl, by decide⟩

theorem isInner_section : ∀ name ∈ Section.innerNames, IsInner name :=
  isInner_of_mem ⟨"client".toList, rfl, by decide⟩

section Resolved

variable {nameSpace : String} {e : Endpoint} {r : ResolvedEndpoint}
  (h : (e.resolve nameSpace).value = some r) (settings : Settings)
include h

theorem attr_of_mem_optional {a : Argument} (ha : a ∈ (Call.ofResolved settings r).optional) :
    a.attr = identifier a.name := by
  obtain ⟨-, -, -, hoptional⟩ := arguments_of_resolve h settings
  rw [hoptional] at ha
  obtain ⟨p, hp, rfl⟩ := List.mem_map.1 ha
  exact attr_of_mem_resolve h (List.mem_append_right _ hp)

theorem isInner_call : ∀ name ∈ (Call.ofResolved settings r).innerNames, IsInner name := by
  intro name hname
  rcases List.mem_append.1 hname with hname | hname
  · exact isInner_section name hname
  · obtain ⟨a, ha, rfl⟩ := List.mem_map.1 hname
    obtain ⟨-, hsignature, -, hoptional⟩ := arguments_of_resolve h settings
    obtain ⟨p, hp, hattr⟩ : ∃ p ∈ r.required ++ r.optional, a.attr = p.attr := by
      rw [hsignature, hoptional] at ha
      rcases List.mem_append.1 ha with ha | ha
      · obtain ⟨p, hp, rfl⟩ := List.mem_map.1 ha
        exact ⟨p, List.mem_append_left _ (mem_required_of_mem_signature h hp), rfl⟩
      · obtain ⟨p, hp, rfl⟩ := List.mem_map.1 ha
        exact ⟨p, List.mem_append_right _ hp, rfl⟩
    refine isInner_underscore ?_
    rw [hattr, attr_of_mem_resolve h hp]
    exact isIdentifier_identifier p.name

end Resolved

/-- A generated method has the name of something that its class holds exactly if it is spelled
    like that in the template, up to the case of its letters and to characters that no
    identifier has. -/
theorem hidden_iff (settings : Settings) (templates : List Template) :
    (∀ a ∈ (Preamble.build settings templates).accessors,
      (a.accessor ∈ Preamble.innerNames ↔
        cleanName (snakeCase a.nameSpace) ∈ Preamble.innerNames) ∧
      (BeginsPlain a.nameSpace → a.accessor ∉ Preamble.innerNames)) ∧
    ∀ t ∈ templates, ∀ c ∈ (Section.build settings t).value.calls,
      (c.methodName ∈ Section.innerNames ↔ cleanName (snakeCase c.name) ∈ Section.innerNames) ∧
      (BeginsPlain c.name → c.methodName ∉ Section.innerNames) ∧
      ∀ a ∈ c.optional,
        a.attr ≠ "execute" ∧
        (a.attr ∈ c.innerNames ↔ cleanName a.name ∈ c.innerNames) ∧
        (BeginsPlain a.name → a.attr ∉ c.innerNames) := by
  refine ⟨fun a ha => ?_, fun t _ c hc => ?_⟩
  · obtain ⟨t, -, rfl⟩ := List.mem_map.1 ha
    dsimp only [Accessor.ofTemplate, accessor]
    exact (identifier_hidden isInner_preamble _).imp_right (· ∘ .snakeCase)
  · obtain ⟨e, -, r, hr, rfl⟩ := mem_calls_build.1 hc
    have hnames : (Call.ofResolved settings r).methodName =
        identifier (snakeCase (Call.ofResolved settings r).name) := by
      obtain ⟨hname, hmethod, -⟩ := Endpoint.names_of_resolve hr
      dsimp only [Call.ofResolved]
      rw [hmethod, hname, methodName]
    have hmethod := identifier_hidden isInner_section (snakeCase (Call.ofResolved settings r).name)
    rw [← hnames] at hmethod
    refine ⟨hmethod.1, hmethod.2 ∘ .snakeCase, fun a ha => ⟨?_, ?_⟩⟩
    · rw [attr_of_mem_optional hr settings ha]
      intro hexecute
      have hfree := isTaken_identifier a.name
      rw [hexecute] at hfree
      exact absurd hfree (by decide)
    · rw [attr_of_mem_optional hr settings ha]
      exact identifier_hidden (isInner_call hr settings) _

/-- A template with one endpoint, which takes an `id` and may take another parameter. -/
def lookup (nameSpace endpoint parameter : String) : Template where
  nameSpace := nameSpace
  endpoints := [{
    name := endpoint
    method := .impl
    params := [
      { kind := .required, pairs := [⟨"long", "id"⟩] },
      { kind := .optional, pairs := [⟨"long", parameter⟩] }] }]

theorem hidden_iff_lookup :
    (∃ a ∈ (Preamble.build ({} : Settings) [lookup "Auth" "Init" "execute"]).accessors,
      BeginsPlain a.nameSpace ∧ a.accessor ∉ Preamble.innerNames) ∧
    ∃ c ∈ (Section.build ({} : Settings) (lookup "Auth" "Init" "execute")).value.calls,
      BeginsPlain c.name ∧ c.methodName ∉ Section.innerNames ∧
      ∃ a ∈ c.optional, BeginsPlain a.name ∧ a.attr ≠ "execute" ∧ a.attr ∉ c.innerNames := by
  obtain ⟨haccessors, hcalls⟩ := hidden_iff {} [lookup "Auth" "Init" "execute"]
  obtain ⟨a, ha, haname⟩ :
      ∃ a ∈ (Preamble.build ({} : Settings) [lookup "Auth" "Init" "execute"]).accessors,
        a.nameSpace = "Auth" := by decide +kernel
  obtain ⟨c, hc, hcname, p, hp, hpname⟩ :
      ∃ c ∈ (Section.build ({} : Settings) (lookup "Auth" "Init" "execute")).value.calls,
        c.name = "Init" ∧ ∃ p ∈ c.optional, p.name = "execute" := by decide +kernel
  have haplain : BeginsPlain a.nameSpace := ⟨'A', by rw [haname]; decide +kernel, rfl⟩
  have hcplain : BeginsPlain c.name := ⟨'I', by rw [hcname]; decide +kernel, rfl⟩
  have hpplain : BeginsPlain p.name := ⟨'e', by rw [hpname]; decide +kernel, rfl⟩
  obtain ⟨-, hmethod, hsetters⟩ := hcalls _ List.mem_cons_self c hc
  obtain ⟨hexecute, -, hsetter⟩ := hsetters p hp
  exact ⟨⟨a, ha, haplain, (haccessors a ha).2 haplain⟩,
    c, hc, hcplain, hmethod hcplain, p, hp, hpplain, hexecute, hsetter hpplain⟩

/-- There are templates for which an accessor, a method and a setter are hidden. -/
theorem exists_hidden :
    ∃ text t, Template.parse text = .ok t ∧
      (∃ a ∈ (Preamble.build ({} : Settings) [t]).accessors, a.accessor = "_auth") ∧
      ∃ c ∈ (Section.build ({} : Settings) t).value.calls, c.methodName = "_client" ∧
        ∃ a ∈ c.optional, ∃ p ∈ c.signature, a.attr = "_" ++ p.attr := by
  refine ⟨"#namespace _auth\nendpoint void _client:Impl\x7b" ++
      "params\x7brequired long id\noptional long _id\x7d\x7d", lookup "_auth" "_client" "_id",
    Source.eq_ok_of_toOption (by decide +kernel), by decide +kernel, by decide +kernel⟩

end Stub

end ApiStubs
