-- SUMMARY: What holds of every endpoint that a template file declares.
import ApiStubs.Proofs.Spelling
import ApiStubs.Proofs.WellFormed
import ApiStubs.Template.OfSource

/-!
# Declared endpoints

The grammar leaves its mark on endpoints: a name is a word, a URL has no blanks, the text
of a block does not close it. `Endpoint.Declared` collects what later stages can rely on,
and `Template.declared_of_parse` says that it holds of all that is read from a file.

It is less than `Endpoint.WellFormed`. A declared endpoint need not come back from a file
that is written from it.
-/

namespace ApiStubs

open Source Text

/-- What the declaration of an endpoint guarantees. -/
structure Endpoint.Declared (e : Endpoint) : Prop where
  name : e.name ≠ "" ∧ AllChars isNameChar e.name
  /-- No noise begins in the return type, also if it is read on its own. -/
  returnType : e.returnType ≠ "" ∧ ∀ i, startsNoise (e.returnType.toList.drop i) = false
  method : e.url = none ↔ e.method = .impl
  url : ∀ u ∈ e.url, u ≠ "" ∧ AllChars (!isBlank ·) u
  attributes : ∀ a ∈ e.attributes, a.1 ≠ "Ignore"
  description : ∀ text ∈ e.description, '}' ∉ text.toList
  returns : ∀ text ∈ e.returns, '}' ∉ text.toList
  groups : ∀ p ∈ e.params, p.kind ≠ .either → p.group = 0
  guards : ∀ p ∈ e.params, ∀ g ∈ p.guard, OneLine g

namespace Source

-- ---------------------------------------------------------------------------
-- Return types
-- ---------------------------------------------------------------------------

theorem isPlain_of_mem_directiveWords {w : String} (hw : w ∈ directiveWords) :
    AllChars isPlain w := by
  have hall : ∀ w ∈ directiveWords, AllChars isPlain w := by decide
  exact hall w hw

/-- A plain word does not extend into noise. -/
theorem prefix_of_prefix_append_noise {w s rest : List Char} (hw : ∀ x ∈ w, isPlain x = true)
    (hrest : startsNoise rest = true) (h : w <+: s ++ rest) : w <+: s := by
  rcases Nat.le_total w.length s.length with hle | hle
  · exact List.prefix_of_prefix_length_le h (List.prefix_append s rest) hle
  · obtain ⟨tail, rfl⟩ := List.prefix_of_prefix_length_le (List.prefix_append s rest) h hle
    rw [List.prefix_append_right_inj] at h
    -- A word that is longer than `s` would go on where the noise begins.
    cases tail with
    | nil => simp
    | cons x xs =>
      obtain ⟨more, rfl⟩ := h
      have hplain := hw x (List.mem_append_right _ List.mem_cons_self)
      have hquiet : startsNoise (x :: xs ++ more) = false := Cursor.startsNoise_of_head rfl hplain
      rw [hquiet] at hrest
      cases hrest

theorem comment?_of_append {s rest : List Char} (hrest : startsNoise rest = true)
    (h : comment? (s ++ rest) = none) : comment? s = none := by
  unfold comment?
  split
  · cases h
  · next cs =>
    -- A comment that the whole text does not close is not closed in a part of it.
    have hfind : find? ['*', '/'] (cs ++ rest) = none := Option.map_eq_none_iff.1 h
    rw [find?_eq_none_iff (by simp)] at hfind
    rw [Option.map_eq_none_iff, find?_eq_none_iff (by simp)]
    exact fun hinside => hfind (hinside.trans (List.infix_append' [] cs rest))
  · next cs =>
    replace h : (if directiveWords.any (·.toList.isPrefixOf (cs ++ rest)) then none
      else some (lineLength (cs ++ rest) + 1)) = none := h
    split at h
    · next hany =>
      -- The directive word is plain, so all of it comes before the noise.
      obtain ⟨w, hw, hprefix⟩ := List.any_eq_true.1 hany
      have hcs := prefix_of_prefix_append_noise (isPlain_of_mem_directiveWords hw) hrest
        (List.isPrefixOf_iff_prefix.1 hprefix)
      exact if_pos (List.any_eq_true.2 ⟨w, hw, List.isPrefixOf_iff_prefix.2 hcs⟩)
    · cases h
  · rfl

/-- Cutting a text where noise begins does not make its beginning noise. -/
theorem startsNoise_of_append {s rest : List Char} (hs : s ≠ [])
    (hrest : startsNoise rest = true) (h : startsNoise (s ++ rest) = false) :
    startsNoise s = false := by
  cases s with
  | nil => exact absurd rfl hs
  | cons x xs =>
    unfold startsNoise unit? at h ⊢
    rw [List.cons_append] at h
    dsimp only at h ⊢
    split
    · next hspace => rw [if_pos hspace] at h; cases h
    · next hspace =>
      rw [if_neg hspace, ← List.cons_append, Option.isSome_eq_false_iff, Option.isNone_iff_eq_none]
        at h
      rw [comment?_of_append hrest h]
      rfl

theorem startsNoise_of_noise? {c d : Cursor} (h : c.noise? = some d) :
    startsNoise c.rest = true := by
  cases hstarts : startsNoise c.rest with
  | true => rfl
  | false =>
    unfold Cursor.noise? at h
    rw [if_pos (Cursor.noise_eq_zero hstarts)] at h
    cases h

/-- No noise begins in a return type that is cut out of its file. -/
theorem startsNoise_drop_of_spellsReturnType {s : String} {c d e : Cursor}
    (h : spellsReturnType s c d) (hnoise : d.noise? = some e) (i : Nat) :
    startsNoise (s.toList.drop i) = false := by
  obtain ⟨hspans, -, hall⟩ := h
  rw [← String.length_toList] at hall
  rcases Nat.lt_or_ge i s.toList.length with hlt | hge
  · have hdrop : c.rest.drop i = s.toList.drop i ++ d.rest := by
      rw [hspans.rest_eq, List.drop_append_of_le_length (Nat.le_of_lt hlt)]
    have hne : s.toList.drop i ≠ [] := fun hnil =>
      Nat.not_le.2 hlt (List.drop_eq_nil_iff.1 hnil)
    exact startsNoise_of_append hne (startsNoise_of_noise? hnoise) (hdrop ▸ hall i hlt)
  · rw [List.drop_eq_nil_of_le hge]
    rfl

-- ---------------------------------------------------------------------------
-- Blocks
-- ---------------------------------------------------------------------------

theorem not_mem_of_spellsTextBlock {name body : String} {c d : Cursor}
    (h : spellsTextBlock name body c d) : '}' ∉ body.toList := by
  obtain ⟨a, b, e, -, -, -, hbody, -⟩ := h
  exact fun hmem => absurd rfl (bne_iff_ne.1 (hbody.all _ hmem))

theorem group_of_spellsParam {p : Param} {c d : Cursor} (h : spellsParam p c d)
    (hkind : p.kind ≠ .either) : p.group = 0 := by
  obtain ⟨a, b, ⟨word, e, -, -, -, hgroup⟩, -, -⟩ := h
  rcases hgroup with ⟨hzero, -⟩ | ⟨heither, -⟩
  · exact hzero
  · exact absurd heither hkind

theorem oneLine_of_spellsParam {p : Param} {c d : Cursor} (h : spellsParam p c d) :
    ∀ g ∈ p.guard, OneLine g := by
  intro g hg
  obtain ⟨a, b, -, -, hguard⟩ := h
  rw [Option.mem_def.1 hg] at hguard
  obtain ⟨_, _, _, _, -, -, -, -, hrun⟩ := hguard
  exact hrun.all

section Decl

variable {decl : EndpointDecl} {c d : Cursor} (h : spellsEndpoint decl c d)
include h

/-- What the first block of a kind says is spelled in a block of that kind. -/
theorem exists_block_of_first? {α : Type} {view : Block → Option α} {v : α}
    (hv : v ∈ decl.first? view) : ∃ b a a', view b = some v ∧ spellsBlock b a a' := by
  obtain ⟨_, _, _, _, _, -, -, -, -, hblocks, -⟩ := h
  obtain ⟨b, hb, hview⟩ := List.exists_of_findSome?_eq_some hv
  obtain ⟨a, a', -, hspells⟩ := hblocks.exists_spells hb
  exact ⟨b.value, a, a', hview, hspells⟩

theorem exists_spells_of_mem_entries {w : WithEntry} (hw : w ∈ decl.entries) :
    ∃ a a', spellsWithEntry w a a' := by
  unfold EndpointDecl.entries at hw
  cases hfirst : decl.first? Block.withEntries? with
  | none => rw [hfirst] at hw; cases hw
  | some list =>
    rw [hfirst] at hw
    obtain ⟨b, a, a', hview, hblock⟩ := exists_block_of_first? h hfirst
    cases b <;> cases hview
    obtain ⟨_, _, _, -, -, htiles, -⟩ := hblock
    exact htiles.exists_spells hw

theorem exists_spells_of_mem_params {p : Param}
    (hp : p ∈ (decl.first? Block.params?).getD []) : ∃ a a', spellsParam p a a' := by
  cases hfirst : decl.first? Block.params? with
  | none => rw [hfirst] at hp; cases hp
  | some lines =>
    rw [hfirst] at hp
    obtain ⟨b, a, a', hview, hblock⟩ := exists_block_of_first? h hfirst
    cases b <;> cases hview
    obtain ⟨_, _, _, -, -, htiles, -⟩ := hblock
    exact htiles.exists_spells hp

end Decl

theorem target_url?_eq_none_iff (t : Target) : t.url? = none ↔ t.method = .impl := by
  cases t <;> simp [Target.url?, Target.method]

theorem url_of_spellsTarget {t : Target} {c d : Cursor} (h : spellsTarget t c d) :
    ∀ u ∈ t.url?, u ≠ "" ∧ AllChars (!isBlank ·) u := by
  have hurl {u : String} {a b : Cursor} (hu : spellsUrl u a b) :
      u ≠ "" ∧ AllChars (!isBlank ·) u := by
    obtain ⟨-, hne, hblank⟩ := hu
    exact ⟨hne, fun x hx => by simp [hblank x hx]⟩
  rintro u hu
  cases t with
  | impl => cases hu
  | get url =>
    cases hu
    obtain ⟨_, _, -, -, hspells⟩ := h
    exact hurl hspells
  | post url =>
    cases hu
    obtain ⟨_, _, -, -, hspells⟩ := h
    exact hurl hspells

/-- The endpoint of a declaration that a file spells. -/
theorem declared_of_spellsEndpoint {decl : EndpointDecl} {c d : Cursor}
    (h : spellsEndpoint decl c d) : (Endpoint.ofDecl decl).Declared := by
  have hspells := h
  obtain ⟨_, _, _, _, _, -, -, hheader, -⟩ := hspells
  obtain ⟨_, _, _, _, htype, hnoise, hname, hnonempty, -, htarget⟩ := hheader
  constructor
  case name => exact ⟨hnonempty, hname.all⟩
  case returnType => exact ⟨htype.2.1, startsNoise_drop_of_spellsReturnType htype hnoise⟩
  case method => exact target_url?_eq_none_iff decl.header.target
  case url => exact url_of_spellsTarget htarget
  case attributes =>
    intro a ha
    obtain ⟨w, hw, hattribute⟩ := List.mem_filterMap.1 ha
    obtain ⟨_, _, hentry⟩ := exists_spells_of_mem_entries h hw
    cases w <;> cases hattribute
    obtain ⟨_, _, _, -, -, hne, -⟩ := hentry
    exact hne
  case description =>
    intro text htext
    obtain ⟨b, _, _, hview, hblock⟩ := exists_block_of_first? h htext
    cases b <;> cases hview
    exact not_mem_of_spellsTextBlock hblock
  case returns =>
    intro text htext
    obtain ⟨b, _, _, hview, hblock⟩ := exists_block_of_first? h htext
    cases b <;> cases hview
    exact not_mem_of_spellsTextBlock hblock
  case groups =>
    intro p hp
    obtain ⟨q, hq, rfl⟩ := List.mem_map.1 hp
    obtain ⟨_, _, hparam⟩ := exists_spells_of_mem_params h hq
    exact group_of_spellsParam (p := q) hparam
  case guards =>
    intro p hp
    obtain ⟨q, hq, rfl⟩ := List.mem_map.1 hp
    obtain ⟨_, _, hparam⟩ := exists_spells_of_mem_params h hq
    exact oneLine_of_spellsParam (p := q) hparam

end Source

-- ---------------------------------------------------------------------------
-- Templates
-- ---------------------------------------------------------------------------

namespace Template

/-- Every endpoint of a template has its declaration among the elements of the file. -/
theorem exists_decl_of_parse {text : String} {t : Template} (h : Template.parse text = .ok t)
    {e : Endpoint} (he : e ∈ t.endpoints) :
    ∃ elements element decl, Source.parse text.toList = .ok elements ∧ element ∈ elements ∧
      element.value = .endpoint decl ∧ e = .ofDecl decl := by
  unfold Template.parse Source.read at h
  cases hparse : Source.parse text.toList with
  | error fault => rw [hparse] at h; cases h
  | ok elements =>
    rw [hparse] at h
    replace h : ofElements text.toList elements = .ok t := h
    unfold ofElements at h
    split at h <;> cases h
    obtain ⟨decl, hdecl, rfl⟩ := List.mem_map.1 he
    obtain ⟨element, helement, hendpoint⟩ := List.mem_filterMap.1 hdecl
    refine ⟨elements, element, decl, rfl, helement, ?_, rfl⟩
    cases hitem : element.value <;> rw [hitem] at hendpoint <;> cases hendpoint
    rfl

theorem declared_of_parse {text : String} {t : Template} (h : Template.parse text = .ok t) :
    ∀ e ∈ t.endpoints, e.Declared := by
  intro e he
  obtain ⟨elements, element, decl, hparse, helement, hvalue, rfl⟩ := exists_decl_of_parse h he
  obtain ⟨_, htiles, -⟩ := elements_tiles hparse
  obtain ⟨_, _, -, hspells⟩ := htiles.exists_spells helement
  rw [hvalue] at hspells
  exact declared_of_spellsEndpoint hspells

end Template

end ApiStubs
