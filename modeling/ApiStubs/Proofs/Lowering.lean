-- SUMMARY: Which parts of a file make its template, and which changes of a file do not matter.
import Mathlib.Logic.Relation
import ApiStubs.Proofs.Sorting
import ApiStubs.Template.OfSource

/-!
# From files to templates

A file with exactly one namespace directive has a template. `Template.Lowers` says what is in
it, by the places of directives and declarations in the file.

Of the blocks of an endpoint only the first one of each kind matters. `Block.Idle` lists the
changes that keep the first ones: a later block of the same kind may go, a block of no
particular kind may go, and blocks of different kinds may change places. They lead from any
blocks to any others with the same first ones (`Block.alike_iff`).
-/

namespace ApiStubs

open Source Text

-- ---------------------------------------------------------------------------
-- Blocks
-- ---------------------------------------------------------------------------

namespace Source.Block

inductive Kind where
  | withEntries
  | params
  | description
  | returns
  | other
deriving DecidableEq, Repr

def kind : Block → Kind
  | .withEntries _ => .withEntries
  | .params _ => .params
  | .description _ => .description
  | .returns _ => .returns
  | .other _ _ => .other

/-- The first block of a kind. -/
def first? (kind : Kind) (blocks : List Block) : Option Block := blocks.find? (·.kind = kind)

/-- A change of the blocks of an endpoint that keeps the first one of each kind. -/
inductive Idle : List Block → List Block → Prop where
  | dropLater (before between after : List Block) {b later : Block} (h : later.kind = b.kind) :
      Idle (before ++ b :: (between ++ later :: after)) (before ++ b :: (between ++ after))
  | dropOther (before after : List Block) {b : Block} (h : b.kind = .other) :
      Idle (before ++ b :: after) (before ++ after)
  | swap (before after : List Block) {b b' : Block} (h : b.kind ≠ b'.kind) :
      Idle (before ++ b :: b' :: after) (before ++ b' :: b :: after)

theorem Idle.first?_eq {blocks blocks' : List Block} (h : Idle blocks blocks') {kind : Kind}
    (hkind : kind ≠ .other) : first? kind blocks = first? kind blocks' := by
  unfold first?
  cases h with
  | @dropLater before between after b later hlater =>
    rw [List.find?_append, List.find?_append, List.find?_cons, List.find?_cons]
    by_cases hb : b.kind = kind
    · simp only [hb, decide_true]
    · have hlater : ¬ later.kind = kind := by rwa [hlater]
      rw [List.find?_append, List.find?_append, List.find?_cons_of_neg (by simpa using hlater)]
  | @dropOther before after b hother =>
    have hb : ¬ b.kind = kind := by rw [hother]; exact hkind.symm
    rw [List.find?_append, List.find?_append, List.find?_cons_of_neg (by simpa using hb)]
  | @swap before after b b' hne =>
    rw [List.find?_append, List.find?_append]
    congr 1
    by_cases hb : b.kind = kind
    · have hb' : ¬ b'.kind = kind := fun h => hne (hb.trans h.symm)
      rw [List.find?_cons_of_pos (by simpa using hb), List.find?_cons_of_neg (by simpa using hb'),
        List.find?_cons_of_pos (by simpa using hb)]
    · rw [List.find?_cons_of_neg (by simpa using hb)]
      simp only [List.find?_cons, hb, decide_false]

theorem Idle.within {blocks blocks' : List Block} (h : Idle blocks blocks')
    (front back : List Block) : Idle (front ++ blocks ++ back) (front ++ blocks' ++ back) := by
  cases h with
  | dropLater before between after h =>
    simpa using Idle.dropLater (front ++ before) between (after ++ back) h
  | dropOther before after h => simpa using Idle.dropOther (front ++ before) (after ++ back) h
  | swap before after h => simpa using Idle.swap (front ++ before) (after ++ back) h

/-- The blocks can be changed into each other by changes that keep the first ones. -/
abbrev Alike : List Block → List Block → Prop := Relation.EqvGen Idle

theorem Alike.first?_eq {blocks blocks' : List Block} (h : Alike blocks blocks') {kind : Kind}
    (hkind : kind ≠ .other) : first? kind blocks = first? kind blocks' := by
  induction h with
  | rel _ _ h => exact h.first?_eq hkind
  | refl _ => rfl
  | symm _ _ _ ih => exact ih.symm
  | trans _ _ _ _ _ ih ih' => exact ih.trans ih'

theorem Alike.within {blocks blocks' : List Block} (h : Alike blocks blocks')
    (front back : List Block) : Alike (front ++ blocks ++ back) (front ++ blocks' ++ back) := by
  induction h with
  | rel _ _ h => exact .rel _ _ (h.within front back)
  | refl _ => exact .refl _
  | symm _ _ _ ih => exact .symm _ _ ih
  | trans _ _ _ _ _ ih ih' => exact .trans _ _ _ ih ih'

/-- Blocks of different kinds may stand in any order. -/
theorem alike_of_perm {blocks blocks' : List Block} (h : blocks.Perm blocks')
    (hkinds : (blocks.map kind).Nodup) : Alike blocks blocks' := by
  induction h with
  | nil => exact .refl _
  | cons b _ ih =>
    rw [List.map_cons] at hkinds
    simpa using (ih hkinds.of_cons).within [b] []
  | swap b b' blocks =>
    rw [List.map_cons, List.map_cons] at hkinds
    have hne : b'.kind ≠ b.kind := fun h => (List.nodup_cons.1 hkinds).1 (by simp [h])
    exact .rel _ _ (.swap [] blocks hne)
  | trans h _ ih ih' => exact .trans _ _ _ (ih hkinds) (ih' ((h.map kind).nodup_iff.1 hkinds))

/-- The first blocks of their kinds, in order. -/
def firsts (blocks : List Block) : List Block :=
  keepFirst kind (blocks.filter (·.kind ≠ .other))

theorem firsts_concat (blocks : List Block) (b : Block) :
    firsts (blocks ++ [b]) =
      if b.kind = .other ∨ b.kind ∈ (firsts blocks).map kind then firsts blocks
      else firsts blocks ++ [b] := by
  unfold firsts
  rw [List.filter_append]
  by_cases hother : b.kind = .other
  · simp [hother]
  · have hb : [b].filter (·.kind ≠ .other) = [b] := by simp [hother]
    rw [hb, keepFirst_concat]
    simp only [hother, false_or]

theorem alike_firsts (blocks : List Block) : Alike blocks (firsts blocks) := by
  induction blocks using List.reverseRecOn with
  | nil => exact .refl _
  | append_singleton blocks b ih =>
    have hconcat : Alike (blocks ++ [b]) (firsts blocks ++ [b]) := by
      simpa using ih.within [] [b]
    rw [firsts_concat]
    split
    · next hidle =>
      refine .trans _ _ _ hconcat (.rel _ _ ?_)
      rcases hidle with hother | hlater
      · simpa using Idle.dropOther (firsts blocks) [] hother
      · obtain ⟨a, ha, hkind⟩ := List.mem_map.1 hlater
        obtain ⟨before, between, hsplit⟩ := List.append_of_mem ha
        rw [hsplit]
        simpa using Idle.dropLater before between [] hkind.symm
    · exact hconcat

theorem nodup_kinds_firsts (blocks : List Block) : ((firsts blocks).map kind).Nodup :=
  nodup_keepFirst kind _

theorem mem_firsts {blocks : List Block} {b : Block} :
    b ∈ firsts blocks ↔ b.kind ≠ .other ∧ first? b.kind blocks = some b := by
  constructor
  · intro hb
    have hkind : b.kind ≠ .other := by
      simpa using (List.mem_filter.1 ((keepFirst_sublist kind _).subset hb)).2
    refine ⟨hkind, ?_⟩
    rw [(alike_firsts blocks).first?_eq hkind]
    cases hfirst : first? b.kind (firsts blocks) with
    | none => exact absurd (decide_eq_true rfl) (List.find?_eq_none.1 hfirst b hb)
    | some a =>
      have ha : a.kind = b.kind := by simpa using List.find?_some hfirst
      rw [List.inj_on_of_nodup_map (nodup_kinds_firsts blocks) (List.mem_of_find?_eq_some hfirst) hb
        ha]
  · rintro ⟨hkind, hfirst⟩
    rw [(alike_firsts blocks).first?_eq hkind] at hfirst
    exact List.mem_of_find?_eq_some hfirst

/-- The changes that keep the first blocks lead to all blocks that have the same first ones. -/
theorem alike_iff {blocks blocks' : List Block} :
    Alike blocks blocks' ↔ ∀ kind ≠ .other, first? kind blocks = first? kind blocks' := by
  refine ⟨fun h kind hkind => h.first?_eq hkind, fun h => ?_⟩
  have hmem (b : Block) : b ∈ firsts blocks ↔ b ∈ firsts blocks' := by
    rw [mem_firsts, mem_firsts]
    exact and_congr_right fun hkind => by rw [h _ hkind]
  have hperm : (firsts blocks).Perm (firsts blocks') :=
    (List.perm_ext_iff_of_nodup (nodup_kinds_firsts blocks).of_map
      (nodup_kinds_firsts blocks').of_map).2 hmem
  exact .trans _ _ _ (alike_firsts blocks) <| .trans _ _ _
    (alike_of_perm hperm (nodup_kinds_firsts blocks)) (.symm _ _ (alike_firsts blocks'))

/-- The view sees the blocks of a kind, which `make` makes. -/
structure Views {α : Type} (kind : Kind) (view : Block → Option α) (make : α → Block) : Prop where
  sees (b : Block) (a : α) : view b = some a ↔ b = make a
  kinds (b : Block) : (view b).isSome ↔ b.kind = kind

namespace Views

variable {α : Type} {kind : Kind} {view : Block → Option α} {make : α → Block}

theorem first?_eq (h : Views kind view make) (blocks : List Block) :
    first? kind blocks = (blocks.findSome? view).map make := by
  induction blocks with
  | nil => rfl
  | cons b blocks ih =>
    unfold first? at ih ⊢
    rw [List.findSome?_cons]
    cases hb : view b with
    | none =>
      have hkind : ¬ b.kind = kind := by rw [← h.kinds, hb]; simp
      rw [List.find?_cons_of_neg (by simpa using hkind), ih]
    | some a =>
      have hkind : b.kind = kind := by rw [← h.kinds, hb]; rfl
      rw [List.find?_cons_of_pos (by simpa using hkind), (h.sees b a).1 hb]
      rfl

theorem injective (h : Views kind view make) {a a' : α} (heq : make a = make a') : a = a' := by
  have ha := (h.sees (make a) a).2 rfl
  rw [(h.sees (make a) a').2 heq] at ha
  exact (Option.some.inj ha).symm

theorem first?_eq_some_iff (h : Views kind view make) {blocks : List Block} {a : α} :
    blocks.findSome? view = some a ↔ first? kind blocks = some (make a) := by
  rw [h.first?_eq, Option.map_eq_some_iff]
  exact ⟨fun ha => ⟨a, ha, rfl⟩, fun ⟨a', ha', heq⟩ => h.injective heq ▸ ha'⟩

theorem findSome?_congr (h : Views kind view make) {blocks blocks' : List Block}
    (hfirst : first? kind blocks = first? kind blocks') :
    blocks.findSome? view = blocks'.findSome? view := by
  refine Option.ext fun a => ?_
  rw [h.first?_eq_some_iff, h.first?_eq_some_iff, hfirst]

end Views

theorem views_withEntries : Views .withEntries withEntries? .withEntries where
  sees b _ := by cases b <;> simp [withEntries?]
  kinds b := by cases b <;> simp [withEntries?, kind]

theorem views_params : Views .params params? .params where
  sees b _ := by cases b <;> simp [params?]
  kinds b := by cases b <;> simp [params?, kind]

theorem views_description : Views .description description? .description where
  sees b _ := by cases b <;> simp [description?]
  kinds b := by cases b <;> simp [description?, kind]

theorem views_returns : Views .returns returns? .returns where
  sees b _ := by cases b <;> simp [returns?]
  kinds b := by cases b <;> simp [returns?, kind]

end Source.Block

-- ---------------------------------------------------------------------------
-- Items of one kind
-- ---------------------------------------------------------------------------

/-- The items of the list that `make` makes are made from the values, in order. -/
inductive Picks {α β : Type} (make : β → α) : List α → List β → Prop where
  | nil : Picks make [] []
  | take (b : β) {as : List α} {bs : List β} (h : Picks make as bs) :
      Picks make (make b :: as) (b :: bs)
  | skip {a : α} {as : List α} {bs : List β} (ha : ∀ b, a ≠ make b) (h : Picks make as bs) :
      Picks make (a :: as) bs

theorem picks_filterMap {α β : Type} {make : β → α} {view : α → Option β}
    (hview : ∀ a b, view a = some b ↔ a = make b) (as : List α) :
    Picks make as (as.filterMap view) := by
  induction as with
  | nil => exact .nil
  | cons a as ih =>
    cases ha : view a with
    | none =>
      rw [List.filterMap_cons_none ha]
      refine .skip (fun b hb => ?_) ih
      rw [(hview a b).2 hb] at ha
      cases ha
    | some b =>
      rw [List.filterMap_cons_some ha, (hview a b).1 ha]
      exact .take b ih

-- ---------------------------------------------------------------------------
-- Endpoints
-- ---------------------------------------------------------------------------

namespace Source.EndpointDecl

/-- The blocks of a declaration, without their places. -/
def values (d : EndpointDecl) : List Block := d.blocks.map (·.value)

theorem first?_eq_findSome? {α : Type} (d : EndpointDecl) (view : Block → Option α) :
    d.first? view = d.values.findSome? view := by
  rw [values, List.findSome?_map]
  rfl

/-- The items of the first block of a kind. There are none if there is no such block. -/
def FirstItems {α : Type} (d : EndpointDecl) (kind : Block.Kind) (make : List α → Block)
    (items : List α) : Prop :=
  Block.first? kind d.values = some (make items) ∨
    Block.first? kind d.values = none ∧ items = []

theorem firstItems_getD {α : Type} {kind : Block.Kind} {view : Block → Option (List α)}
    {make : List α → Block} (h : Block.Views kind view make) (d : EndpointDecl) :
    d.FirstItems kind make ((d.first? view).getD []) := by
  unfold FirstItems
  rw [h.first?_eq, d.first?_eq_findSome?]
  cases d.values.findSome? view with
  | none => exact .inr ⟨rfl, rfl⟩
  | some items => exact .inl rfl

/-- What a declaration says about its endpoint. -/
structure Says (d : EndpointDecl) (e : Endpoint) : Prop where
  returnType : e.returnType = d.header.returnType
  name : e.name = d.header.name
  method : e.method = d.header.target.method
  url : e.url = d.header.target.url?
  entries : ∃ entries, d.FirstItems .withEntries .withEntries entries ∧
    (∀ path, e.jsonPath = some path ↔ ∃ before after,
      entries = before ++ .jsonPath path :: after ∧ ∀ x ∈ before, ∀ text, x ≠ .jsonPath text) ∧
    Picks (fun a => .attribute a.1 a.2) entries e.attributes ∧
    (e.ignore = true ↔ .ignore ∈ entries)
  params : ∃ lines, d.FirstItems .params .params lines ∧ e.params = lines.map (·.withoutMarks)
  description : ∀ text, e.description = some text ↔
    Block.first? .description d.values = some (.description text)
  returns : ∀ text, e.returns = some text ↔
    Block.first? .returns d.values = some (.returns text)

end Source.EndpointDecl

theorem Source.WithEntry.findSome?_jsonPath? {entries : List WithEntry} {path : String} :
    entries.findSome? (·.jsonPath?) = some path ↔ ∃ before after,
      entries = before ++ .jsonPath path :: after ∧ ∀ x ∈ before, ∀ text, x ≠ .jsonPath text := by
  have hview (x : WithEntry) (text : String) : x.jsonPath? = some text ↔ x = .jsonPath text := by
    cases x <;> simp [WithEntry.jsonPath?]
  simp only [List.findSome?_eq_some_iff, hview, Option.eq_none_iff_forall_ne_some, ne_eq]
  constructor
  · rintro ⟨before, x, after, rfl, rfl, hbefore⟩
    exact ⟨before, after, rfl, hbefore⟩
  · rintro ⟨before, after, rfl, hbefore⟩
    exact ⟨before, _, after, rfl, rfl, hbefore⟩

theorem Source.WithEntry.picks_attributes (entries : List WithEntry) :
    Picks (fun a => .attribute a.1 a.2) entries (entries.filterMap (·.attribute?)) := by
  refine picks_filterMap (fun x a => ?_) entries
  cases x with
  | «attribute» name value => simp [WithEntry.attribute?, Prod.ext_iff]
  | jsonPath | omitExcept | ignore => simp [WithEntry.attribute?]

namespace Endpoint

theorem says_ofDecl (d : EndpointDecl) : d.Says (.ofDecl d) where
  returnType := rfl
  name := rfl
  method := rfl
  url := rfl
  entries := ⟨d.entries, EndpointDecl.firstItems_getD Block.views_withEntries d,
    fun _ => WithEntry.findSome?_jsonPath?, WithEntry.picks_attributes d.entries,
    List.contains_iff_mem⟩
  params := ⟨_, EndpointDecl.firstItems_getD Block.views_params d, rfl⟩
  description text := by
    rw [← Block.views_description.first?_eq_some_iff, ← d.first?_eq_findSome?]
    rfl
  returns text := by
    rw [← Block.views_returns.first?_eq_some_iff, ← d.first?_eq_findSome?]
    rfl

/-- A declaration is settled by its header and the first block of each kind. -/
theorem ofDecl_congr {d d' : EndpointDecl} (hheader : d.header = d'.header)
    (hfirst : ∀ kind ≠ .other, Block.first? kind d.values = Block.first? kind d'.values) :
    ofDecl d = ofDecl d' := by
  have hview {α : Type} {kind : Block.Kind} {view : Block → Option α} {make : α → Block}
      (h : Block.Views kind view make) (hkind : kind ≠ .other) :
      d.first? view = d'.first? view := by
    rw [d.first?_eq_findSome?, d'.first?_eq_findSome?, h.findSome?_congr (hfirst kind hkind)]
  have hentries : d.entries = d'.entries := by
    rw [EndpointDecl.entries, hview Block.views_withEntries (by decide)]
    rfl
  unfold ofDecl
  rw [hheader, hentries, hview Block.views_params (by decide),
    hview Block.views_description (by decide), hview Block.views_returns (by decide)]

end Endpoint

-- ---------------------------------------------------------------------------
-- Templates
-- ---------------------------------------------------------------------------

/-- Whether an element is a namespace directive. -/
def Source.isNamespace (e : Element) : Bool :=
  match e.value with
  | .namespaceLine _ => true
  | _ => false

theorem Source.isSome_namespace? (e : Element) :
    (e.value.namespace?.map (Located.mk e.offset)).isSome = isNamespace e := by
  unfold isNamespace
  cases e.value <;> rfl

theorem Source.length_namespaces (elements : List Element) :
    (namespaces elements).length = elements.countP isNamespace := by
  unfold namespaces
  rw [List.length_filterMap_eq_countP]
  exact List.countP_congr fun e _ => by rw [isSome_namespace?]

/-- The second directive, in its place. -/
theorem Source.exists_second {elements : List Element} {first second : Located String}
    {more : List (Located String)} (h : namespaces elements = first :: second :: more) :
    ∃ before e after, elements = before ++ e :: after ∧ isNamespace e = true ∧
      before.countP isNamespace = 1 ∧ e.offset = second.offset := by
  obtain ⟨before, e, rest, rfl, hbefore, he, hrest⟩ := List.filterMap_eq_cons_iff.1 h
  obtain ⟨between, e', after, rfl, hbetween, he', -⟩ := List.filterMap_eq_cons_iff.1 hrest
  have hnone {es : List Element}
      (hes : ∀ x ∈ es, x.value.namespace?.map (Located.mk x.offset) = none) :
      es.countP isNamespace = 0 := by
    refine List.countP_eq_zero.2 fun x hx => ?_
    rw [← isSome_namespace?, hes x hx]
    simp
  have hsome {x : Element} {directive : Located String}
      (hx : x.value.namespace?.map (Located.mk x.offset) = some directive) :
      isNamespace x = true := by
    rw [← isSome_namespace?, hx]
    rfl
  refine ⟨before ++ e :: between, e', after, by simp, hsome he', ?_, ?_⟩
  · rw [List.countP_append, List.countP_cons_of_pos (hsome he), hnone hbefore, hnone hbetween]
  · obtain ⟨line, -, rfl⟩ := Option.map_eq_some_iff.1 he'
    rfl

namespace Template

/-- The template says what the elements of a file say. -/
structure Lowers (elements : List Element) (t : Template) : Prop where
  nameSpace : ∀ e ∈ elements, ∀ line, e.value = .namespaceLine line → t.nameSpace = trimmed line
  description : ∀ text, t.description = some text ↔ ∃ before e after line,
    elements = before ++ e :: after ∧ e.value = .descriptionLine line ∧ text = trimmed line ∧
      ∀ x ∈ before, ∀ other, x.value ≠ .descriptionLine other
  /-- The declarations of a file, in order. -/
  endpoints : ∃ decls, Picks .endpoint (elements.map (·.value)) decls ∧
    t.endpoints = decls.map .ofDecl

theorem lowers_of_ofElements {text : List Char} {elements : List Element} {t : Template}
    (h : ofElements text elements = .ok t) : t.Lowers elements := by
  unfold ofElements at h
  split at h <;> cases h
  next directive hdirective =>
  refine ⟨fun e he line hline => ?_, fun text => ?_, _, ?_, rfl⟩
  · have hmem : ⟨e.offset, line⟩ ∈ namespaces elements :=
      List.mem_filterMap.2 ⟨e, he, by rw [hline]; rfl⟩
    rw [hdirective, List.mem_singleton] at hmem
    rw [← hmem]
  · have hview (e : Element) (line : String) :
        e.value.description? = some line ↔ e.value = .descriptionLine line := by
      cases e.value <;> simp [Item.description?]
    simp only [Option.map_eq_some_iff, List.findSome?_eq_some_iff, hview,
      Option.eq_none_iff_forall_ne_some, ne_eq]
    constructor
    · rintro ⟨line, ⟨before, e, after, rfl, he, hbefore⟩, rfl⟩
      exact ⟨before, e, after, line, rfl, he, rfl, hbefore⟩
    · rintro ⟨before, e, after, line, rfl, he, rfl, hbefore⟩
      exact ⟨line, ⟨before, e, after, rfl, he, hbefore⟩, rfl⟩
  · have hmap : elements.filterMap (·.value.endpoint?) =
        (elements.map (·.value)).filterMap (·.endpoint?) := by
      rw [List.filterMap_map]
      rfl
    rw [hmap]
    exact picks_filterMap (fun x d => by cases x <;> simp [Item.endpoint?]) _

/-- A file that can be read has a template exactly if it has one namespace directive. The fault
    of a file without one has no place, and the fault of a file with more has the place of the
    second one. The template is made from the directive, from the first description and from
    the declarations in order. What a declaration says is settled by its header and the first
    block of each kind, so it stays when blocks are dropped or change places and these blocks
    stay the first ones. -/
theorem parse_lowers {text : String} {elements : List Element}
    (h : Source.read text = .ok elements) :
    ((∃ t, Template.parse text = .ok t) ↔ elements.countP isNamespace = 1) ∧
    (elements.countP isNamespace = 0 →
      ∃ fault, Template.parse text = .error fault ∧ fault.position? = none ∧
        ∀ file, fault.message file = file ++ " missing field: #namespace") ∧
    (2 ≤ elements.countP isNamespace →
      ∃ before second after fault, elements = before ++ second :: after ∧
        isNamespace second = true ∧ before.countP isNamespace = 1 ∧
        Template.parse text = .error fault ∧
        fault.position? = some (.ofOffset text.toList second.offset) ∧
        ∀ file, fault.message file =
          file ++ " " ++ (Position.ofOffset text.toList second.offset).render ++
            " duplicate field: #namespace") ∧
    (∀ t, Template.parse text = .ok t → t.Lowers elements) ∧
    (∀ d : EndpointDecl, d.Says (.ofDecl d)) ∧
    (∀ d d' : EndpointDecl, d.header = d'.header → Block.Alike d.values d'.values →
      Endpoint.ofDecl d = .ofDecl d') ∧
    ∀ blocks blocks', Block.Alike blocks blocks' ↔
      ∀ kind ≠ .other, Block.first? kind blocks = Block.first? kind blocks' := by
  have hparse : Template.parse text = ofElements text.toList elements := by
    rw [Template.parse, h]
  have hcount := length_namespaces elements
  refine ⟨?_, fun hnone => ?_, fun htwo => ?_, fun t ht => lowers_of_ofElements (hparse ▸ ht),
    Endpoint.says_ofDecl, fun d d' hheader halike => ?_, fun blocks blocks' => Block.alike_iff⟩
  · rw [hparse, ofElements, ← hcount]
    split
    · next hnil => simp [hnil]
    · next directive hone => simp [hone]
    · next _ second _ hmore => simp [hmore]
  · rw [hnone, List.length_eq_zero_iff] at hcount
    refine ⟨.malformed .namespaceMissing none, ?_, rfl, fun file => ?_⟩
    · rw [hparse, ofElements, hcount]
    · have hcause : " missing field: #namespace" = " " ++ Cause.namespaceMissing.message := by
        decide
      rw [hcause, ← String.append_assoc]
      rfl
  · rcases hmore : namespaces elements with _ | ⟨first, _ | ⟨second, more⟩⟩
    · exact absurd htwo (by simp [← hcount, hmore])
    · exact absurd htwo (by simp [← hcount, hmore])
    obtain ⟨before, e, after, hsplit, he, hbefore, hoffset⟩ := exists_second hmore
    refine ⟨before, e, after,
      .malformed .namespaceDuplicate (some (.ofOffset text.toList e.offset)),
      hsplit, he, hbefore, ?_, rfl, fun file => ?_⟩
    · rw [hparse, ofElements, hmore, hoffset]
    · have hcause : " duplicate field: #namespace" = " " ++ Cause.namespaceDuplicate.message := by
        decide
      rw [hcause, ← String.append_assoc]
      rfl
  · exact Endpoint.ofDecl_congr hheader fun kind hkind => halike.first?_eq hkind

/-- An endpoint with a block between two `with` blocks. -/
def twiceDecl : EndpointDecl where
  header := ⟨"void", "B", .impl⟩
  blocks := [
    ⟨36, .withEntries [.attribute "Z" "1", .jsonPath "x", .attribute "A" "2"]⟩,
    ⟨65, .returns "b"⟩,
    ⟨75, .withEntries [.ignore]⟩]

def twiceText : String :=
  "#description a\nendpoint void B:Impl\x7bwith\x7b[Z]=1\nJsonPath=x\n[A]=2\n\x7d" ++
    "returns\x7bb\x7dwith\x7b[Ignore]=\n\x7d\x7d\n#namespace A "

def twiceElements : List Element :=
  [⟨0, .descriptionLine "a"⟩, ⟨15, .endpoint twiceDecl⟩, ⟨93, .namespaceLine "A "⟩]

/-- The endpoint of `twiceText` without the block that does not matter, in another order. -/
def onceDecl : EndpointDecl where
  header := twiceDecl.header
  blocks := [
    ⟨36, .returns "b"⟩,
    ⟨46, .withEntries [.attribute "Z" "1", .jsonPath "x", .attribute "A" "2"]⟩]

/-- A file with one directive, a file with none and a file with two. -/
theorem parse_lowers_twice :
    (Source.read twiceText = .ok twiceElements ∧
      ∃ t, Template.parse twiceText = .ok t ∧ t.Lowers twiceElements ∧
        t.endpoints.map (·.attributes) = [[("Z", "1"), ("A", "2")]]) ∧
    (Source.read "" = .ok [] ∧
      ∃ fault, Template.parse "" = .error fault ∧ fault.position? = none) ∧
    (Source.read "#namespace A\n#namespace B" =
        .ok [⟨0, .namespaceLine "A"⟩, ⟨13, .namespaceLine "B"⟩] ∧
      ∃ fault, Template.parse "#namespace A\n#namespace B" = .error fault) ∧
    Block.Alike onceDecl.values twiceDecl.values ∧
      Endpoint.ofDecl onceDecl = .ofDecl twiceDecl := by
  have htwice : Source.read twiceText = .ok twiceElements := eq_ok_of_toOption (by decide +kernel)
  have hnone : Source.read "" = .ok [] := eq_ok_of_toOption (by decide +kernel)
  have htwo : Source.read "#namespace A\n#namespace B" =
      .ok [⟨0, .namespaceLine "A"⟩, ⟨13, .namespaceLine "B"⟩] :=
    eq_ok_of_toOption (by decide +kernel)
  obtain ⟨hiff, -, -, hlowers, -, hdecl, halike⟩ := parse_lowers htwice
  obtain ⟨-, hmissing, -⟩ := parse_lowers hnone
  obtain ⟨-, -, hduplicate, -⟩ := parse_lowers htwo
  obtain ⟨t, ht⟩ := hiff.2 (by decide)
  have hattributes : t.endpoints.map (·.attributes) = [[("Z", "1"), ("A", "2")]] := by
    have hread : (Template.parse twiceText).toOption.map (·.endpoints.map (·.attributes)) =
        some [[("Z", "1"), ("A", "2")]] := by decide +kernel
    rw [ht] at hread
    exact Option.some.inj hread
  obtain ⟨fault, hfault, hposition, -⟩ := hmissing rfl
  obtain ⟨-, -, -, fault', -, -, -, hfault', -⟩ := hduplicate (by decide)
  have hblocks : Block.Alike onceDecl.values twiceDecl.values := by
    refine (halike _ _).2 fun kind hkind => ?_
    cases kind with
    | other => exact absurd rfl hkind
    | withEntries | params | description | returns => decide
  exact ⟨⟨htwice, t, ht, hlowers t ht, hattributes⟩, ⟨hnone, fault, hfault, hposition⟩,
    ⟨htwo, fault', hfault'⟩, hblocks, hdecl _ _ rfl hblocks⟩

end Template

end ApiStubs
