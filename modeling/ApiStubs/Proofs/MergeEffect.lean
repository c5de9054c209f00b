-- SUMMARY: What a merge does to every template and every endpoint, and how merges compose.
import ApiStubs.Proofs.Merge
import Mathlib.Data.List.Perm.Basic

/-!
# The effect of a merge

Overrides of different names do not disturb each other (`inClass_overrideAll`), so
the endpoints of one name are the work of the overrides of that name alone.
`Endpoint.Overridden` says all that becomes of the endpoints of a template.

Templates with the same namespaces in the same order, and the same templates in
each namespace, are the same (`eq_of_ofNameSpace_eq`). With that, what is known of
each namespace alone settles the whole result of a merge: `merge_effect` says
where every template of it comes from, and `merge_append_and_swap` when the order
of overrides does not matter.
-/

namespace ApiStubs

-- ---------------------------------------------------------------------------
-- Endpoints of one name
-- ---------------------------------------------------------------------------

namespace Endpoint

/-- The endpoints whose names are in a class. -/
def inClass (p : String → Bool) (es : List Endpoint) : List Endpoint := es.filter (p ·.name)

/-- The endpoints of one name. -/
def named (x : String) (es : List Endpoint) : List Endpoint := inClass (· = x) es

/-- What an override does to the endpoints of its own name: a removal takes the first
    of them away, and any other override takes its place. -/
def overrideNamed (es : List Endpoint) (o : Endpoint) : List Endpoint :=
  if o.ignore then es.tail else o :: es.tail

section Class

variable {p : String → Bool} {es : List Endpoint} {o : Endpoint}

theorem inClass_cons (p : String → Bool) (e : Endpoint) (es : List Endpoint) :
    inClass p (e :: es) = if p e.name then e :: inClass p es else inClass p es :=
  List.filter_cons

theorem inClass_removeFirst (p : String → Bool) (x : String) (es : List Endpoint) :
    inClass p (removeFirst x es) = if p x then removeFirst x (inClass p es) else inClass p es := by
  induction es with
  | nil => simp [removeFirst, inClass]
  | cons e es ih =>
    rw [removeFirst, inClass_cons]
    by_cases hx : e.name = x
    · subst hx
      by_cases hp : p e.name <;> simp [hp, removeFirst]
    · rw [if_neg hx, inClass_cons, ih]
      by_cases hp : p e.name <;> by_cases hpx : p x <;> simp [hp, hpx, removeFirst, hx]

theorem inClass_replaceFirst (p : String → Bool) (o : Endpoint) (es : List Endpoint) :
    inClass p (replaceFirst o es) =
      if p o.name then replaceFirst o (inClass p es) else inClass p es := by
  induction es with
  | nil => simp [replaceFirst, inClass]
  | cons e es ih =>
    rw [replaceFirst, inClass_cons]
    by_cases hx : e.name = o.name
    · by_cases hp : p o.name <;> simp [hx, hp, inClass_cons, replaceFirst]
    · rw [if_neg hx, inClass_cons, ih]
      by_cases hp : p e.name <;> by_cases hpx : p o.name <;> simp [hp, hpx, replaceFirst, hx]

theorem any_inClass (hp : p o.name = true) :
    (inClass p es).any (·.name = o.name) = es.any (·.name = o.name) := by
  rw [inClass, List.any_filter]
  congr 1
  funext e
  by_cases hx : e.name = o.name <;> simp [hx, hp]

/-- The endpoints after an override, by its kind and whether its name is known. -/
theorem value_override (ns : String) (es : List Endpoint) (o : Endpoint) :
    (override ns es o).value =
      if es.any (·.name = o.name) then
        if o.ignore then removeFirst o.name es else replaceFirst o es
      else if o.ignore then es else es ++ [o] := by
  unfold override
  cases es.any (·.name = o.name) <;> cases o.ignore <;> rfl

/-- An override does to the endpoints of a class of names what it would do to them
    alone, and nothing if its own name is not in the class. -/
theorem inClass_override (p : String → Bool) (ns : String) (es : List Endpoint) (o : Endpoint) :
    inClass p (override ns es o).value =
      if p o.name then (override ns (inClass p es) o).value else inClass p es := by
  rw [value_override, value_override]
  cases hp : p o.name with
  | true =>
    rw [any_inClass hp]
    cases es.any (·.name = o.name) <;> cases o.ignore <;>
      simp [inClass_removeFirst, inClass_replaceFirst, hp]
    simp [inClass, hp]
  | false =>
    cases es.any (·.name = o.name) <;> cases o.ignore <;>
      simp [inClass_removeFirst, inClass_replaceFirst, hp]
    simp [inClass, hp]

/-- Overrides whose names are in a class and overrides whose names are not do not
    disturb each other. -/
theorem inClass_overrideAll (p : String → Bool) (ns : String) (es os : List Endpoint) :
    inClass p (overrideAll ns es os) = overrideAll ns (inClass p es) (inClass p os) := by
  induction os generalizing es with
  | nil => rfl
  | cons o os ih =>
    have hstep : overrideAll ns es (o :: os) = overrideAll ns (override ns es o).value os := rfl
    rw [hstep, ih, inClass_override, inClass_cons]
    by_cases hp : p o.name = true
    · rw [if_pos hp, if_pos hp]
      rfl
    · rw [if_neg hp, if_neg hp]

end Class

theorem override_of_named {x : String} {es : List Endpoint} {o : Endpoint}
    (hes : ∀ e ∈ es, e.name = x) (ho : o.name = x) (ns : String) :
    (override ns es o).value = overrideNamed es o := by
  rw [value_override, overrideNamed]
  cases es with
  | nil => simp
  | cons e es =>
    have he : e.name = o.name := (hes e (List.mem_cons_self ..)).trans ho.symm
    simp [he, removeFirst, replaceFirst]

theorem overrideNamed_named {x : String} {es : List Endpoint} {o : Endpoint}
    (hes : ∀ e ∈ es, e.name = x) (ho : o.name = x) : ∀ e ∈ overrideNamed es o, e.name = x := by
  intro e he
  unfold overrideNamed at he
  split at he
  · exact hes e (List.mem_of_mem_tail he)
  · rcases List.mem_cons.1 he with rfl | he
    · exact ho
    · exact hes e (List.mem_of_mem_tail he)

theorem overrideAll_of_named {x : String} {es os : List Endpoint}
    (hes : ∀ e ∈ es, e.name = x) (hos : ∀ o ∈ os, o.name = x) (ns : String) :
    overrideAll ns es os = os.foldl overrideNamed es := by
  induction os generalizing es with
  | nil => rfl
  | cons o os ih =>
    obtain ⟨ho, hrest⟩ := List.forall_mem_cons.1 hos
    have hstep : overrideAll ns es (o :: os) = overrideAll ns (override ns es o).value os := rfl
    rw [hstep, override_of_named hes ho, ih (overrideNamed_named hes ho) hrest, List.foldl_cons]

theorem name_of_mem_named {x : String} {es : List Endpoint} {e : Endpoint} (h : e ∈ named x es) :
    e.name = x := by
  simpa using (List.mem_filter.1 h).2

/-- The endpoints of a name are the work of the overrides of that name alone. -/
theorem named_overrideAll (ns x : String) (es os : List Endpoint) :
    named x (overrideAll ns es os) = (named x os).foldl overrideNamed (named x es) := by
  rw [named, inClass_overrideAll]
  exact overrideAll_of_named (fun e he => name_of_mem_named he) (fun o ho => name_of_mem_named ho) ns

-- ---------------------------------------------------------------------------
-- Places
-- ---------------------------------------------------------------------------

theorem removeFirst_append (x : String) (es fs : List Endpoint) :
    removeFirst x (es ++ fs) =
      if x ∈ names es then removeFirst x es ++ fs else es ++ removeFirst x fs := by
  induction es with
  | nil => simp [names]
  | cons e es ih =>
    rw [List.cons_append, removeFirst, removeFirst, ih]
    by_cases hx : e.name = x
    · simp [names, hx]
    · have hcons : x ∈ names (e :: es) ↔ x ∈ names es := by
        simp [names, Ne.symm hx]
      by_cases hmem : x ∈ names es <;> simp [hx, hcons, hmem]

theorem removeFirst_sublist (x : String) (es : List Endpoint) : (removeFirst x es).Sublist es := by
  induction es with
  | nil => exact .slnil
  | cons e es ih =>
    rw [removeFirst]
    split
    · exact List.sublist_cons_self ..
    · exact ih.cons_cons _

/-- The endpoints that stay if the first `lost x` of each name `x` are lost. -/
def surviving (lost : String → Nat) : List Endpoint → List Endpoint
  | [] => []
  | e :: es =>
    if lost e.name = 0 then e :: surviving lost es
    else surviving (Function.update lost e.name (lost e.name - 1)) es

theorem surviving_sublist (lost : String → Nat) (es : List Endpoint) :
    (surviving lost es).Sublist es := by
  induction es generalizing lost with
  | nil => exact .slnil
  | cons e es ih =>
    rw [surviving]
    split
    · exact (ih _).cons_cons _
    · exact (ih _).cons _

theorem named_surviving (x : String) (lost : String → Nat) (es : List Endpoint) :
    named x (surviving lost es) = (named x es).drop (lost x) := by
  induction es generalizing lost with
  | nil => simp [surviving, named, inClass]
  | cons e es ih =>
    unfold named at ih ⊢
    rw [surviving, inClass_cons]
    by_cases hx : e.name = x
    · subst hx
      cases hlost : lost e.name with
      | zero => simp [inClass_cons, ih, hlost]
      | succ n => simp [ih]
    · split
      · simp [inClass_cons, hx, ih]
      · simp [hx, ih, Function.update_of_ne (Ne.symm hx)]

/-- One more is lost if the first one that stays is removed. -/
theorem removeFirst_surviving (x : String) (lost : String → Nat) (es : List Endpoint) :
    removeFirst x (surviving lost es) = surviving (Function.update lost x (lost x + 1)) es := by
  induction es generalizing lost with
  | nil => rfl
  | cons e es ih =>
    rw [surviving, surviving]
    by_cases hx : e.name = x
    · subst hx
      by_cases hlost : lost e.name = 0
      · have hself : Function.update lost e.name 0 = lost := by
          rw [← hlost, Function.update_eq_self]
        simp [hlost, removeFirst, hself]
      · simp [hlost, ih, Nat.sub_one_add_one hlost]
    · by_cases hlost : lost e.name = 0
      · simp [hlost, hx, removeFirst, ih]
      · simp [hlost, hx, ih, Function.update_comm hx, Ne.symm hx]

/-- The endpoints that overrides do not remove: of each name, as many of the first ones are
    lost as there are removals. -/
def survivors (initial os : List Endpoint) : List Endpoint := surviving (removals · os) initial

theorem names_survivors_concat (initial os : List Endpoint) (o : Endpoint) :
    names (survivors initial (os ++ [o])) =
      if o.ignore then (names (survivors initial os)).erase o.name
      else names (survivors initial os) := by
  unfold survivors
  split
  · next hignore =>
    have hlost : (removals · (os ++ [o])) =
        Function.update (removals · os) o.name (removals o.name os + 1) := by
      funext x
      rw [removals_append]
      by_cases hx : x = o.name
      · simp [hignore, hx]
      · simp [hx, Ne.symm hx]
    rw [hlost, ← removeFirst_surviving, names_removeFirst]
  · next hignore => simp [removals_append, hignore]

/-- How endpoints stand after overrides: what is `kept` of the initial ones stands
    first, at the places of the survivors, and what was `added` stands behind. -/
structure Placed (initial os kept added : List Endpoint) : Prop where
  /-- An endpoint is kept at its place, replaced or not. -/
  names_eq : names kept = names (survivors initial os)
  /-- New names follow in the order of the overrides. -/
  added_sublist : (names added).Sublist (names os)

theorem Placed.step {initial os kept added : List Endpoint} (h : Placed initial os kept added)
    (ns : String) (o : Endpoint) :
    ∃ kept' added', (override ns (kept ++ added) o).value = kept' ++ added' ∧
      Placed initial (os ++ [o]) kept' added' := by
  have hsurvivors := names_survivors_concat initial os o
  rw [← h.names_eq] at hsurvivors
  have hos : names (os ++ [o]) = names os ++ [o.name] := by simp [names]
  have hadded : (names added).Sublist (names (os ++ [o])) := by
    rw [hos]
    exact h.added_sublist.trans (List.sublist_append_left ..)
  rw [value_override]
  split
  · split
    · next hignore =>
      rw [if_pos hignore] at hsurvivors
      rw [removeFirst_append]
      split
      · refine ⟨_, _, rfl, ?_, hadded⟩
        rw [hsurvivors, names_removeFirst]
      · next hkept =>
        refine ⟨_, _, rfl, ?_, ?_⟩
        · rw [hsurvivors, List.erase_of_not_mem hkept]
        · rw [names_removeFirst]
          exact (List.erase_sublist ..).trans hadded
    · -- A replacement changes no name, so the two parts keep their lengths.
      next hignore =>
      rw [if_neg hignore] at hsurvivors
      have hnames := names_replaceFirst o (kept ++ added)
      have hsplit : names (kept ++ added) = names kept ++ names added := by simp [names]
      refine ⟨(replaceFirst o (kept ++ added)).take kept.length,
        (replaceFirst o (kept ++ added)).drop kept.length, (List.take_append_drop ..).symm, ?_, ?_⟩
      · rw [hsurvivors, names, List.map_take]
        change (names _).take _ = _
        rw [hnames, hsplit, names, List.take_left' (by simp)]
      · rw [names, List.map_drop]
        change ((names _).drop _).Sublist _
        rw [hnames, hsplit, List.drop_left' (by simp [names])]
        exact hadded
  · next hnone =>
    have hkept : o.name ∉ names kept := by
      intro hmem
      obtain ⟨e, he, hname⟩ := List.mem_map.1 hmem
      exact hnone (List.any_eq_true.2 ⟨e, List.mem_append_left _ he, by simpa using hname⟩)
    split
    · next hignore =>
      rw [if_pos hignore, List.erase_of_not_mem hkept] at hsurvivors
      exact ⟨kept, added, rfl, hsurvivors.symm, hadded⟩
    · next hignore =>
      rw [if_neg hignore] at hsurvivors
      refine ⟨kept, added ++ [o], List.append_assoc .., hsurvivors.symm, ?_⟩
      rw [hos, names, List.map_append]
      exact h.added_sublist.append (List.Sublist.refl _)

theorem survivors_nil (initial : List Endpoint) : survivors initial [] = initial := by
  unfold survivors
  induction initial with
  | nil => rfl
  | cons e es ih => rw [surviving, if_pos (by rfl), ih]

theorem exists_placed (ns : String) (es os : List Endpoint) :
    ∃ kept added, overrideAll ns es os = kept ++ added ∧ Placed es os kept added := by
  induction os using List.reverseRecOn with
  | nil =>
    refine ⟨es, [], (List.append_nil _).symm, ?_, .refl _⟩
    rw [survivors_nil]
  | append_singleton os o ih =>
    obtain ⟨kept, added, heq, hplaced⟩ := ih
    have hstep : overrideAll ns es (os ++ [o]) = (override ns (overrideAll ns es os) o).value := by
      simp [overrideAll]
    rw [hstep, heq]
    exact hplaced.step ns o

/-- What overrides make of the endpoints of a template. -/
structure Overridden (initial os final : List Endpoint) : Prop where
  /-- The endpoints of a name are the work of the overrides of that name, in order. -/
  named_eq : ∀ x, named x final = (named x os).foldl overrideNamed (named x initial)
  /-- Names without overrides do not change and do not change places. -/
  untouched : inClass (· ∉ names os) final = inClass (· ∉ names os) initial
  placed : ∃ kept added, final = kept ++ added ∧ Placed initial os kept added
  sublist : (survivors initial os).Sublist initial
  /-- Of each name, the last ones survive. -/
  named_survivors : ∀ x, named x (survivors initial os) = (named x initial).drop (removals x os)

theorem overridden_overrideAll (ns : String) (es os : List Endpoint) :
    Overridden es os (overrideAll ns es os) where
  named_eq x := named_overrideAll ns x es os
  untouched := by
    have hnone : inClass (· ∉ names os) os = [] := by
      refine List.filter_eq_nil_iff.2 fun o ho => ?_
      have hmem : o.name ∈ names os := List.mem_map_of_mem ho
      simpa using hmem
    rw [inClass_overrideAll, hnone]
    rfl
  placed := exists_placed ns es os
  sublist := surviving_sublist ..
  named_survivors x := named_surviving ..

end Endpoint

-- ---------------------------------------------------------------------------
-- Templates of all namespaces
-- ---------------------------------------------------------------------------

namespace Template

theorem ofNameSpace_eq_nil_iff {ns : String} {ts : List Template} :
    ofNameSpace ns ts = [] ↔ ns ∉ nameSpaces ts := by
  simp [ofNameSpace, nameSpaces]

/-- Templates are settled by the order of their namespaces and by the templates of
    each namespace. -/
theorem eq_of_ofNameSpace_eq {ts us : List Template} (hspaces : nameSpaces ts = nameSpaces us)
    (heq : ∀ ns, ofNameSpace ns ts = ofNameSpace ns us) : ts = us := by
  induction ts generalizing us with
  | nil => exact (List.map_eq_nil_iff.1 hspaces.symm).symm
  | cons t ts ih =>
    cases us with
    | nil => simp [nameSpaces] at hspaces
    | cons u us =>
      obtain ⟨hns, hrest⟩ : t.nameSpace = u.nameSpace ∧ nameSpaces ts = nameSpaces us := by
        simpa [nameSpaces] using hspaces
      -- The first templates are the first ones of their namespace.
      have hhead := heq u.nameSpace
      rw [ofNameSpace_cons, if_pos hns, ofNameSpace_cons, if_pos rfl, List.cons.injEq] at hhead
      obtain ⟨rfl, -⟩ := hhead
      congr 1
      refine ih hrest fun ns => ?_
      have htail := heq ns
      rw [ofNameSpace_cons, ofNameSpace_cons] at htail
      split at htail
      · exact (List.cons.inj htail).2
      · exact htail

/-- Templates that agree in each namespace are the same up to order. -/
theorem perm_of_ofNameSpace_eq {ts us : List Template}
    (heq : ∀ ns, ofNameSpace ns ts = ofNameSpace ns us) : ts.Perm us := by
  rw [List.perm_iff_count]
  intro t
  have hcount : ∀ vs : List Template, (ofNameSpace t.nameSpace vs).count t = vs.count t :=
    fun vs => List.count_filter (by simp)
  rw [← hcount ts, heq, hcount]

-- ---------------------------------------------------------------------------
-- Order of namespaces
-- ---------------------------------------------------------------------------

/-- The namespaces of overrides that are not known yet, in order of first
    occurrence. -/
def newNameSpaces (known : List String) (overrides : List Template) : List String :=
  ((nameSpaces overrides).filter (· ∉ known)).eraseDups

theorem newNameSpaces_cons (known : List String) (o : Template) (overrides : List Template) :
    newNameSpaces known (o :: overrides) =
      if o.nameSpace ∈ known then newNameSpaces known overrides
      else o.nameSpace :: newNameSpaces (known ++ [o.nameSpace]) overrides := by
  unfold newNameSpaces nameSpaces
  rw [List.map_cons, List.filter_cons]
  by_cases hknown : o.nameSpace ∈ known
  · simp [hknown]
  · rw [if_pos (by simpa using hknown), if_neg hknown, List.eraseDups_cons, List.filter_filter]
    congr 3
    funext ns
    by_cases hns : ns = o.nameSpace <;> simp [hns, hknown]

theorem nameSpaces_merge_singleton (ts : List Template) (o : Template) :
    nameSpaces (merge ts [o]).value =
      if o.nameSpace ∈ nameSpaces ts then nameSpaces ts else nameSpaces ts ++ [o.nameSpace] := by
  rcases new_or_last o.nameSpace ts with hnew | ⟨before, t, after, rfl, ht, hafter⟩
  · have hmem : o.nameSpace ∉ nameSpaces ts := by
      intro h
      obtain ⟨t, ht, hns⟩ := mem_nameSpaces.1 h
      exact hnew t ht hns
    rw [merge_singleton_of_new hnew, if_neg hmem]
    simp [nameSpaces]
  · have hmem : o.nameSpace ∈ nameSpaces (before ++ t :: after) :=
      mem_nameSpaces.2 ⟨t, by simp, ht⟩
    rw [merge_singleton_of_last ht hafter, if_pos hmem]
    simp [nameSpaces, nameSpace_override]

/-- A merge keeps the namespaces of the base and appends those that are new. -/
theorem nameSpaces_merge (base overrides : List Template) :
    nameSpaces (merge base overrides).value =
      nameSpaces base ++ newNameSpaces (nameSpaces base) overrides := by
  induction overrides generalizing base with
  | nil => simp [newNameSpaces, nameSpaces, merge_nil]
  | cons o overrides ih =>
    rw [merge_cons, ih, nameSpaces_merge_singleton, newNameSpaces_cons]
    split
    · rfl
    · rw [List.append_assoc, List.singleton_append]

-- ---------------------------------------------------------------------------
-- The base templates
-- ---------------------------------------------------------------------------

/-- The template after the overrides of its namespace. If a later template has the
    same namespace, that one receives them. -/
def afterOverrides (overrides later : List Template) (t : Template) : Template :=
  if t.nameSpace ∈ nameSpaces later then t else t.receive (overridesOf t.nameSpace overrides)

@[simp] theorem nameSpace_afterOverrides (overrides later : List Template) (t : Template) :
    (t.afterOverrides overrides later).nameSpace = t.nameSpace := by
  unfold afterOverrides
  split <;> rfl

@[simp] theorem description_afterOverrides (overrides later : List Template) (t : Template) :
    (t.afterOverrides overrides later).description = t.description := by
  unfold afterOverrides
  split <;> rfl

/-- Templates after overrides: the last one of each namespace receives them. -/
def receiveLast (overrides : List Template) : List Template → List Template
  | [] => []
  | t :: ts => t.afterOverrides overrides ts :: receiveLast overrides ts

theorem map_receiveLast {α : Type} {f : Template → α}
    (hf : ∀ overrides later t, f (t.afterOverrides overrides later) = f t)
    (overrides base : List Template) : (receiveLast overrides base).map f = base.map f := by
  induction base with
  | nil => rfl
  | cons t ts ih => rw [receiveLast, List.map_cons, List.map_cons, hf, ih]

theorem nameSpaces_receiveLast (overrides base : List Template) :
    nameSpaces (receiveLast overrides base) = nameSpaces base :=
  map_receiveLast nameSpace_afterOverrides overrides base

theorem getElem?_receiveLast (overrides base : List Template) (i : Nat) :
    (receiveLast overrides base)[i]? =
      base[i]?.map (·.afterOverrides overrides (base.drop (i + 1))) := by
  induction base generalizing i with
  | nil => rfl
  | cons t ts ih =>
    cases i with
    | zero => rfl
    | succ i => exact ih i

theorem ofNameSpace_receiveLast {ns : String} {overrides base earlier : List Template}
    {t : Template} (h : ofNameSpace ns base = earlier ++ [t]) :
    ofNameSpace ns (receiveLast overrides base) =
      earlier ++ [t.receive (overridesOf ns overrides)] := by
  induction base generalizing earlier with
  | nil => simp [ofNameSpace] at h
  | cons u us ih =>
    rw [receiveLast, ofNameSpace_cons, nameSpace_afterOverrides]
    rw [ofNameSpace_cons] at h
    by_cases hu : u.nameSpace = ns
    · rw [if_pos hu] at h ⊢
      subst hu
      by_cases hlater : u.nameSpace ∈ nameSpaces us
      · rw [afterOverrides, if_pos hlater]
        cases earlier with
        | nil =>
          have hnil : ofNameSpace u.nameSpace us = [] := (List.cons.inj h).2
          exact absurd hlater (ofNameSpace_eq_nil_iff.1 hnil)
        | cons v earlier =>
          obtain ⟨rfl, htail⟩ := List.cons.inj h
          rw [ih htail, List.cons_append]
      · have hnone : ofNameSpace u.nameSpace (receiveLast overrides us) = [] := by
          rwa [ofNameSpace_eq_nil_iff, nameSpaces_receiveLast]
        rw [ofNameSpace_eq_nil_iff.2 hlater] at h
        obtain ⟨rfl, rfl⟩ : earlier = [] ∧ u = t := by
          cases earlier <;> simp_all
        rw [afterOverrides, if_neg hlater, hnone, List.nil_append]
    · rw [if_neg hu] at h ⊢
      exact ih h

/-- The templates that a merge adds. -/
def addedBy (base overrides : List Template) : List Template :=
  (merge base overrides).value.drop base.length

theorem nameSpaces_take_merge (base overrides : List Template) :
    nameSpaces ((merge base overrides).value.take base.length) = nameSpaces base := by
  have hspaces := nameSpaces_merge base overrides
  rw [nameSpaces] at hspaces
  rw [nameSpaces, List.map_take, hspaces, List.take_left' (by simp [nameSpaces])]

theorem nameSpaces_addedBy (base overrides : List Template) :
    nameSpaces (addedBy base overrides) = newNameSpaces (nameSpaces base) overrides := by
  have hspaces := nameSpaces_merge base overrides
  rw [nameSpaces] at hspaces
  rw [nameSpaces, addedBy, List.map_drop, hspaces, List.drop_left' (by simp [nameSpaces])]

theorem mem_newNameSpaces {ns : String} {known : List String} {overrides : List Template} :
    ns ∈ newNameSpaces known overrides ↔ ns ∈ nameSpaces overrides ∧ ns ∉ known := by
  simp [newNameSpaces]

theorem nameSpace_of_mem_addedBy {base overrides : List Template} {u : Template}
    (h : u ∈ addedBy base overrides) :
    u.nameSpace ∈ nameSpaces overrides ∧ u.nameSpace ∉ nameSpaces base := by
  rw [← mem_newNameSpaces, ← nameSpaces_addedBy]
  exact List.mem_map_of_mem h

/-- A merge changes the base templates at their places and adds templates behind
    them. -/
theorem merge_eq (base overrides : List Template) :
    (merge base overrides).value = receiveLast overrides base ++ addedBy base overrides := by
  have hsplit := List.take_append_drop base.length (merge base overrides).value
  have htake : (merge base overrides).value.take base.length = receiveLast overrides base := by
    apply eq_of_ofNameSpace_eq
    · rw [nameSpaces_take_merge, nameSpaces_receiveLast]
    · intro ns
      rcases List.eq_nil_or_concat' (ofNameSpace ns base) with hnil | ⟨earlier, t, hknown⟩
      · rw [ofNameSpace_eq_nil_iff] at hnil
        rw [ofNameSpace_eq_nil_iff.2 (by rwa [nameSpaces_take_merge]),
          ofNameSpace_eq_nil_iff.2 (by rwa [nameSpaces_receiveLast])]
      · -- No template of a known namespace is added, so all of them stand in front.
        have hmem : ns ∈ nameSpaces base := by
          by_contra hns
          rw [← ofNameSpace_eq_nil_iff, hknown] at hns
          simp at hns
        have hadded : ofNameSpace ns (addedBy base overrides) = [] := by
          rw [ofNameSpace_eq_nil_iff, nameSpaces_addedBy, mem_newNameSpaces]
          exact fun h => h.2 hmem
        have hall : ofNameSpace ns ((merge base overrides).value.take base.length ++
            addedBy base overrides) = earlier ++ [t.receive (overridesOf ns overrides)] := by
          rw [addedBy, hsplit]
          exact ofNameSpace_merge_of_known hknown
        rw [ofNameSpace_append, hadded, List.append_nil] at hall
        rw [hall, ofNameSpace_receiveLast hknown]
  rw [← htake]
  exact hsplit.symm

/-- What a merge makes of the base templates, `changed`, and what it adds to them. -/
structure Effect (base overrides changed added : List Template) : Prop where
  /-- The base templates keep their places, namespaces and descriptions. -/
  heads_eq : changed.map (fun t => (t.nameSpace, t.description)) =
    base.map (fun t => (t.nameSpace, t.description))
  /-- One template is added for each namespace that only overrides have. -/
  added_eq : nameSpaces added = newNameSpaces (nameSpaces base) overrides
  /-- A base template changes only if it is the last one of its namespace and that
      namespace has an override. -/
  unchanged : ∀ i t, base[i]? = some t →
    t.nameSpace ∈ nameSpaces (base.drop (i + 1)) ∨ t.nameSpace ∉ nameSpaces overrides →
      changed[i]? = some t
  /-- The last base template of a namespace receives all overrides of it. -/
  received : ∀ i t, base[i]? = some t → t.nameSpace ∉ nameSpaces (base.drop (i + 1)) →
    ∃ u, changed[i]? = some u ∧
      Endpoint.Overridden t.endpoints (overridesOf t.nameSpace overrides) u.endpoints
  /-- The first override of a new namespace is taken as it is and receives the later
      ones. -/
  added_received : ∀ u ∈ added, ∃ first later, ofNameSpace u.nameSpace overrides = first :: later ∧
    u.description = first.description ∧
    Endpoint.Overridden first.endpoints (endpointsOf later) u.endpoints

theorem mem_addedBy {base overrides : List Template} {u : Template}
    (h : u ∈ addedBy base overrides) :
    ∃ first later, ofNameSpace u.nameSpace overrides = first :: later ∧
      u = first.receive (endpointsOf later) := by
  obtain ⟨hover, hbase⟩ := nameSpace_of_mem_addedBy h
  have hmem : u ∈ ofNameSpace u.nameSpace (merge base overrides).value :=
    mem_ofNameSpace.2 ⟨List.mem_of_mem_drop h, rfl⟩
  cases ho : ofNameSpace u.nameSpace overrides with
  | nil => exact absurd hover (ofNameSpace_eq_nil_iff.1 ho)
  | cons first later =>
    rw [ofNameSpace_merge_of_new (ofNameSpace_eq_nil_iff.2 hbase) ho, List.mem_singleton] at hmem
    exact ⟨first, later, rfl, hmem⟩

/-- Where each template after a merge comes from, and what became of its endpoints. -/
theorem merge_effect (base overrides : List Template) :
    ∃ changed added, (merge base overrides).value = changed ++ added ∧
      Effect base overrides changed added := by
  refine ⟨_, _, merge_eq base overrides, ?_, nameSpaces_addedBy base overrides, ?_, ?_, ?_⟩
  · exact map_receiveLast (fun overrides later t => by simp) overrides base
  · intro i t hi hkeeps
    rw [getElem?_receiveLast, hi, Option.map_some]
    rcases hkeeps with hlater | hnone
    · rw [afterOverrides, if_pos hlater]
    · have hnil : overridesOf t.nameSpace overrides = [] := by
        rw [overridesOf, ofNameSpace_eq_nil_iff.2 hnone]
        rfl
      rw [afterOverrides, hnil]
      split <;> rfl
  · intro i t hi hlast
    rw [getElem?_receiveLast, hi, Option.map_some]
    refine ⟨_, rfl, ?_⟩
    rw [afterOverrides, if_neg hlast]
    exact Endpoint.overridden_overrideAll ..
  · intro u hu
    obtain ⟨first, later, ho, heq⟩ := mem_addedBy hu
    have hdescription := congrArg Template.description heq
    refine ⟨first, later, ho, hdescription, ?_⟩
    rw [congrArg Template.endpoints heq]
    exact Endpoint.overridden_overrideAll ..

-- ---------------------------------------------------------------------------
-- Composition
-- ---------------------------------------------------------------------------

theorem receiveLast_congr {overrides overrides' : List Template}
    (h : ∀ ns, ofNameSpace ns overrides = ofNameSpace ns overrides') (base : List Template) :
    receiveLast overrides base = receiveLast overrides' base := by
  induction base with
  | nil => rfl
  | cons t ts ih => rw [receiveLast, receiveLast, ih, afterOverrides, afterOverrides, overridesOf,
      overridesOf, h]

/-- Overrides that agree in each namespace change the base in the same way and add the
    same templates, up to their order. -/
theorem merge_congr {overrides overrides' : List Template}
    (h : ∀ ns, ofNameSpace ns overrides = ofNameSpace ns overrides') (base : List Template) :
    receiveLast overrides base = receiveLast overrides' base ∧
      (addedBy base overrides).Perm (addedBy base overrides') := by
  have hchanged := receiveLast_congr h base
  refine ⟨hchanged, perm_of_ofNameSpace_eq fun ns => ?_⟩
  have hmerge : ofNameSpace ns (merge base overrides).value =
      ofNameSpace ns (merge base overrides').value := by
    rw [ofNameSpace_merge, h, ← ofNameSpace_merge]
  rw [merge_eq, merge_eq, hchanged, ofNameSpace_append, ofNameSpace_append] at hmerge
  exact List.append_cancel_left hmerge

theorem ofNameSpace_swap {o p : Template} (hne : o.nameSpace ≠ p.nameSpace) (ns : String)
    (before after : List Template) :
    ofNameSpace ns (before ++ o :: p :: after) = ofNameSpace ns (before ++ p :: o :: after) := by
  simp only [ofNameSpace_append, ofNameSpace_cons]
  by_cases ho : o.nameSpace = ns
  · have hp : p.nameSpace ≠ ns := fun hp => hne (ho.trans hp.symm)
    simp only [if_pos ho, if_neg hp]
  · simp only [if_neg ho]

/-- The places that are kept up through a merge are those that are found when the merged
    templates are merged again. So overrides in two lists can be merged one list after the
    other, and overrides of different namespaces in either order, up to the order of the
    templates that they add. -/
theorem merge_append_and_swap (base o₁ o₂ : List Template) :
    (let s := ((Merging.ofTemplates base).applyAll o₁).value
    s.Points ∧
      ∀ ns, s.receivers.lookup ns = (Merging.ofTemplates s.templates).receivers.lookup ns) ∧
    merge base (o₁ ++ o₂) = (do merge (← merge base o₁) o₂) ∧
    ∀ before o p after, o.nameSpace ≠ p.nameSpace →
      ∃ changed added added',
        (merge base (before ++ o :: p :: after)).value = changed ++ added ∧
        (merge base (before ++ p :: o :: after)).value = changed ++ added' ∧
        changed.length = base.length ∧ added.Perm added' ∧
        ∀ t ∈ added, t.nameSpace ∉ nameSpaces base := by
  have hpoints := (Merging.points_ofTemplates base).applyAll o₁
  have htemplates := Merging.templates_ofTemplates
  refine ⟨⟨hpoints, ?_⟩, merge_append base o₁ o₂, fun before o p after hne => ?_⟩
  · exact hpoints.lookup_eq (Merging.points_ofTemplates _) (htemplates _).symm
  obtain ⟨hchanged, hadded⟩ := merge_congr (fun ns => ofNameSpace_swap hne ns before after) base
  refine ⟨_, _, _, merge_eq base _, ?_, ?_, hadded, fun t ht => (nameSpace_of_mem_addedBy ht).2⟩
  · rw [merge_eq, hchanged]
  · simpa using congrArg List.length
      (map_receiveLast nameSpace_afterOverrides (before ++ o :: p :: after) base)

/-- An override of the base and one of a new namespace, in either order. -/
theorem merge_append_and_swap_orders :
    let orders : Template := { nameSpace := "Orders", endpoints := [{ name := "Find" }] }
    let removal : Template :=
      { nameSpace := "Orders", endpoints := [{ name := "Find", ignore := true }] }
    let items : Template := { nameSpace := "Items", endpoints := [{ name := "List" }] }
    removal.nameSpace ≠ items.nameSpace ∧
      ∃ changed added added',
        (merge [orders] [removal, items]).value = changed ++ added ∧
        (merge [orders] [items, removal]).value = changed ++ added' ∧
        changed.length = 1 ∧ added.Perm added' ∧
        ∀ t ∈ added, t.nameSpace ∉ nameSpaces [orders] := by
  intro orders removal items
  have hne : removal.nameSpace ≠ items.nameSpace := by decide
  exact ⟨hne, (merge_append_and_swap [orders] [] []).2.2 [] removal items [] hne⟩

end Template

end ApiStubs
