-- SUMMARY: Which endpoint names a namespace holds after overrides are merged into it.
import ApiStubs.Template.Merge
import ApiStubs.Template.OfSource
import Mathlib.Data.List.Induction
import Mathlib.Data.List.Nodup

/-!
# Names after a merge

The place that overrides of a namespace go to is the last template of it
(`Merging.Points`), whether the places were kept up through earlier overrides or
looked for again. So overrides can be merged one after the other (`merge_append`).
The merge works on each namespace alone (`ofNameSpace_merge`). The last template
of a namespace receives the endpoints of all its overrides, one after the other,
and the templates before it stay as they are (`merge_receiver`). So what happens
to a name is a matter of counting: a removal takes one endpoint of that name
away, and any other override leaves at least one (`count_names_overrideAll`).
-/

namespace ApiStubs

/-- The value of a fold that logs is the fold of the values. -/
theorem Logged.value_foldlM {α β : Type} (f : β → α → Logged β) (b : β) (as : List α) :
    (as.foldlM f b).value = as.foldl (fun b a => (f b a).value) b := by
  induction as generalizing b with
  | nil => rfl
  | cons a as ih =>
    rw [List.foldlM_cons, Logged.value_bind, ih, List.foldl_cons]

-- ---------------------------------------------------------------------------
-- One override endpoint
-- ---------------------------------------------------------------------------

namespace Endpoint

/-- The names of endpoints, with repetitions. -/
def names (es : List Endpoint) : List String := es.map (·.name)

theorem names_replaceFirst (o : Endpoint) (es : List Endpoint) :
    names (replaceFirst o es) = names es := by
  induction es with
  | nil => rfl
  | cons e es ih =>
    unfold replaceFirst
    split
    · next h => simp [names, h]
    · simpa [names] using ih

theorem names_removeFirst (name : String) (es : List Endpoint) :
    names (removeFirst name es) = (names es).erase name := by
  induction es with
  | nil => rfl
  | cons e es ih =>
    unfold removeFirst
    split
    · next h => simp [names, h]
    · next h =>
      have hne : ¬ (e.name == name) = true := by simpa using h
      simp only [names, List.map_cons] at ih ⊢
      rw [List.erase_cons_tail hne, ih]

/-- What an override endpoint does to the names. -/
theorem names_override (ns : String) (es : List Endpoint) (o : Endpoint) :
    names (override ns es o).value =
      if o.ignore then (names es).erase o.name
      else if o.name ∈ names es then names es
      else names es ++ [o.name] := by
  have hany : es.any (·.name = o.name) = true ↔ o.name ∈ names es := by
    simp [names]
  unfold override
  by_cases hmem : o.name ∈ names es
  · rw [if_pos (hany.2 hmem), if_pos hmem]
    cases o.ignore with
    | true => exact names_removeFirst o.name es
    | false => exact names_replaceFirst o es
  · rw [if_neg (mt hany.1 hmem), if_neg hmem]
    cases o.ignore with
    | true => exact (List.erase_of_not_mem hmem).symm
    | false => exact List.map_append

/-- A removal takes one endpoint of the name away, any other override leaves at
    least one, and no override touches other names. -/
theorem count_names_override (ns x : String) (es : List Endpoint) (o : Endpoint) :
    (names (override ns es o).value).count x =
      if o.name = x then
        if o.ignore then (names es).count x - 1 else max ((names es).count x) 1
      else (names es).count x := by
  rw [names_override]
  by_cases hx : o.name = x
  · subst hx
    cases o.ignore with
    | true => simp
    | false =>
      by_cases hmem : o.name ∈ names es
      · simp [hmem]
      · have hzero := List.count_eq_zero.2 hmem
        simp [hmem, hzero]
  · rw [if_neg hx]
    cases o.ignore with
    | true => exact List.count_erase_of_ne (Ne.symm hx)
    | false =>
      split
      · next h => cases h
      · split
        · rfl
        · simp [hx]

-- ---------------------------------------------------------------------------
-- The override endpoints of a namespace, in order
-- ---------------------------------------------------------------------------

/-- Applies override endpoints, in order. -/
def overrideAll (ns : String) (es os : List Endpoint) : List Endpoint :=
  os.foldl (fun es o => (override ns es o).value) es

/-- The last of the endpoints with a name. -/
def lastNamed? (x : String) (os : List Endpoint) : Option Endpoint :=
  (os.filter (·.name = x)).getLast?

/-- The number of removals of a name. -/
def removals (x : String) (os : List Endpoint) : Nat :=
  os.countP fun o => o.name = x && o.ignore

/-- The number of endpoints that the last override of a name leaves at least. -/
def kept (x : String) (os : List Endpoint) : Nat :=
  match lastNamed? x os with
  | some o => if o.ignore then 0 else 1
  | none => 0

theorem kept_le_one (x : String) (os : List Endpoint) : kept x os ≤ 1 := by
  unfold kept
  split
  · split <;> omega
  · omega

theorem kept_eq_zero {x : String} {os : List Endpoint}
    (h : ∀ o ∈ lastNamed? x os, o.ignore = true) : kept x os = 0 := by
  unfold kept
  split
  · next o ho => exact if_pos (h o ho)
  · rfl

theorem lastNamed?_append (x : String) (os : List Endpoint) (o : Endpoint) :
    lastNamed? x (os ++ [o]) = if o.name = x then some o else lastNamed? x os := by
  unfold lastNamed?
  by_cases hx : o.name = x <;> simp [hx]

theorem kept_append (x : String) (os : List Endpoint) (o : Endpoint) :
    kept x (os ++ [o]) = if o.name = x then (if o.ignore then 0 else 1) else kept x os := by
  unfold kept
  rw [lastNamed?_append]
  by_cases hx : o.name = x <;> simp only [hx, if_true, if_false]

theorem removals_append (x : String) (os : List Endpoint) (o : Endpoint) :
    removals x (os ++ [o]) = removals x os + if o.name = x ∧ o.ignore = true then 1 else 0 := by
  unfold removals
  rw [List.countP_append, List.countP_singleton]
  simp only [Bool.and_eq_true, decide_eq_true_eq]

/-- The number of endpoints of a name after all overrides: each removal takes one
    away, and if the last override of the name is no removal, one is there. -/
theorem count_names_overrideAll (ns x : String) (es os : List Endpoint) :
    (names (overrideAll ns es os)).count x =
      max ((names es).count x - removals x os) (kept x os) := by
  -- From the right: only the last override of a name decides what is kept.
  induction os using List.reverseRecOn with
  | nil => simp [overrideAll, removals, kept, lastNamed?]
  | append_singleton os o ih =>
    have hstep : overrideAll ns es (os ++ [o]) = (override ns (overrideAll ns es os) o).value := by
      simp [overrideAll]
    rw [hstep, count_names_override, ih, removals_append, kept_append]
    by_cases hx : o.name = x
    · cases o.ignore with
      | true =>
        have hkept : kept x os ≤ 1 := kept_le_one x os
        simp only [hx, and_self, if_true]
        omega
      | false =>
        have hkept : kept x os ≤ 1 := kept_le_one x os
        simp only [hx, Bool.false_eq_true, and_false, if_true, if_false]
        omega
    · simp only [hx, false_and, if_false, Nat.add_zero]

end Endpoint

-- ---------------------------------------------------------------------------
-- One override template
-- ---------------------------------------------------------------------------

namespace Template

theorem nameSpace_override (t o : Template) : (t.override o).value.nameSpace = t.nameSpace := rfl

theorem endpoints_override (t o : Template) :
    (t.override o).value.endpoints =
      Endpoint.overrideAll t.nameSpace t.endpoints o.endpoints :=
  Logged.value_foldlM _ _ _

-- ---------------------------------------------------------------------------
-- Receivers
-- ---------------------------------------------------------------------------

/-- The namespaces of templates, with repetitions. -/
def nameSpaces (ts : List Template) : List String := ts.map (·.nameSpace)

theorem mem_nameSpaces {ns : String} {ts : List Template} :
    ns ∈ nameSpaces ts ↔ ∃ t ∈ ts, t.nameSpace = ns :=
  List.mem_map

namespace Merging
variable {s s' : Merging} {o t : Template}

/-- The overrides of a namespace go to the last template of it. -/
def Points (s : Merging) : Prop :=
  ∀ ns i, s.receivers.lookup ns = some i ↔
    (nameSpaces s.templates)[i]? = some ns ∧ ns ∉ (nameSpaces s.templates).drop (i + 1)

/-- What is looked up is settled by the templates alone. -/
theorem Points.lookup_eq (h : s.Points) (h' : s'.Points) (heq : s.templates = s'.templates)
    (ns : String) : s.receivers.lookup ns = s'.receivers.lookup ns := by
  refine Option.ext fun i => ?_
  rw [h ns i, h' ns i, heq]

theorem Points.receiver?_eq (h : s.Points) (h' : s'.Points) (heq : s.templates = s'.templates)
    (ns : String) : s.receiver? ns = s'.receiver? ns := by
  unfold receiver?
  rw [h.lookup_eq h' heq, heq]

theorem Points.add (h : s.Points) (t : Template) : (s.add t).Points := by
  intro ns i
  have hold := h ns i
  have hspaces : nameSpaces (s.add t).templates = nameSpaces s.templates ++ [t.nameSpace] :=
    List.map_append
  have hlength : s.templates.length = (nameSpaces s.templates).length := List.length_map _ |>.symm
  have hlookup : (s.add t).receivers.lookup ns =
      if ns = t.nameSpace then some s.templates.length else s.receivers.lookup ns := by
    rw [Merging.add, List.lookup_cons]
    by_cases hns : ns = t.nameSpace
    · simp [hns]
    · rw [beq_false_of_ne hns, if_neg hns]
  rw [hspaces, hlookup, hlength]
  generalize nameSpaces s.templates = spaces at hold ⊢
  rcases Nat.lt_trichotomy i spaces.length with hi | rfl | hi
  · -- An earlier template is the last one of its namespace unless the new one is of it.
    rw [List.getElem?_append_left hi, List.drop_append_of_le_length hi, List.mem_append,
      List.mem_singleton, not_or, ← and_assoc, ← hold]
    split
    · next hns => simp [hns, Nat.ne_of_gt hi]
    · next hns => simp [hns]
  · rw [List.getElem?_concat_length, List.drop_eq_nil_of_le (by simp)]
    split
    · next hns => simp [hns]
    · next hns => simp [hold, Ne.symm hns]
  · have hnone : (spaces ++ [t.nameSpace])[i]? = none := by simp; omega
    rw [hnone]
    split
    · simp; omega
    · simp [hold, Nat.le_of_lt hi]

theorem points_ofTemplates (base : List Template) : (ofTemplates base).Points := by
  have hfold (s : Merging) (hs : s.Points) : (base.foldl Merging.add s).Points := by
    induction base generalizing s with
    | nil => exact hs
    | cons t base ih => exact ih _ (hs.add t)
  exact hfold {} fun ns i => by simp [nameSpaces]

theorem templates_ofTemplates (base : List Template) : (ofTemplates base).templates = base := by
  have hfold (s : Merging) : (base.foldl Merging.add s).templates = s.templates ++ base := by
    induction base generalizing s with
    | nil => exact (List.append_nil _).symm
    | cons t base ih => rw [List.foldl_cons, ih, Merging.add, List.append_assoc]; rfl
  exact hfold {}

theorem getElem?_of_receiver? {ns : String} {place : Nat}
    (h : s.receiver? ns = some (place, t)) :
    s.receivers.lookup ns = some place ∧ s.templates[place]? = some t := by
  obtain ⟨i, hi, h⟩ := Option.bind_eq_some_iff.1 h
  obtain ⟨u, hu, h⟩ := Option.bind_eq_some_iff.1 h
  cases h
  exact ⟨hi, hu⟩

/-- An override keeps the receivers: its own template has been added, or its receiver has
    kept its place and namespace. -/
theorem Points.apply (h : s.Points) (o : Template) : (s.apply o).value.Points := by
  unfold Merging.apply
  split
  · exact h.add o
  · next place t hreceiver =>
    obtain ⟨hlt, ht⟩ := List.getElem?_eq_some_iff.1 (getElem?_of_receiver? hreceiver).2
    have hspaces : nameSpaces (s.templates.set place (t.override o).value) =
        nameSpaces s.templates := by
      rw [nameSpaces, List.map_set, nameSpace_override, ← ht, ← List.map_set, List.set_getElem_self]
      rfl
    intro ns i
    change s.receivers.lookup ns = some i ↔ (nameSpaces (s.templates.set _ _))[i]? = some ns ∧
      ns ∉ (nameSpaces (s.templates.set _ _)).drop (i + 1)
    rw [hspaces]
    exact h ns i

theorem applyAll_cons (s : Merging) (o : Template) (os : List Template) :
    s.applyAll (o :: os) = (do (← s.apply o).applyAll os) :=
  List.foldlM_cons

theorem Points.applyAll (h : s.Points) (os : List Template) : (s.applyAll os).value.Points := by
  induction os generalizing s with
  | nil => exact h
  | cons o os ih => exact ih (h.apply o)

/-- What an override does is settled by the templates alone. -/
theorem Points.apply_congr (h : s.Points) (h' : s'.Points) (heq : s.templates = s'.templates)
    (o : Template) : templates <$> s.apply o = templates <$> s'.apply o := by
  unfold Merging.apply
  rw [h.receiver?_eq h' heq]
  split
  · simp only [map_bind, map_pure, Merging.add, heq]
  · simp only [map_bind, map_pure, heq]

theorem Points.applyAll_congr (h : s.Points) (h' : s'.Points) (heq : s.templates = s'.templates)
    (os : List Template) : templates <$> s.applyAll os = templates <$> s'.applyAll os := by
  induction os generalizing s s' with
  | nil => exact congrArg pure heq
  | cons o os ih =>
    have hstep := Logged.ext_iff.1 (h.apply_congr h' heq o)
    have hrest := Logged.ext_iff.1 (ih (h.apply o) (h'.apply o) hstep.2)
    simp only [Logged.events_map, Logged.value_map] at hstep hrest
    rw [applyAll_cons, applyAll_cons]
    ext1
    · simp only [Logged.events_map, Logged.events_bind, hstep.1, hrest.1]
    · exact hrest.2
end Merging

theorem merge_eq_map (base overrides : List Template) :
    merge base overrides =
      Merging.templates <$> (Merging.ofTemplates base).applyAll overrides := by
  rw [map_eq_pure_bind]
  rfl

theorem merge_append (base o₁ o₂ : List Template) :
    merge base (o₁ ++ o₂) = (do merge (← merge base o₁) o₂) := by
  have hsplit : (Merging.ofTemplates base).applyAll (o₁ ++ o₂) = (do
      let s ← (Merging.ofTemplates base).applyAll o₁
      s.applyAll o₂) := List.foldlM_append
  simp only [merge_eq_map, hsplit, map_bind, bind_map_left]
  refine Logged.bind_congr_value ?_
  have hpoints := (Merging.points_ofTemplates base).applyAll o₁
  exact hpoints.applyAll_congr (Merging.points_ofTemplates _) (Merging.templates_ofTemplates _).symm o₂

theorem merge_nil (base : List Template) : (merge base []).value = base :=
  Merging.templates_ofTemplates base

theorem merge_cons (base overrides : List Template) (o : Template) :
    (merge base (o :: overrides)).value = (merge (merge base [o]).value overrides).value := by
  rw [← List.singleton_append, merge_append]
  rfl

-- ---------------------------------------------------------------------------
-- One override
-- ---------------------------------------------------------------------------

section Override

variable {o t : Template} {ts before after : List Template}

/-- An override of a new namespace is added at the end. -/
theorem merge_singleton_of_new (h : ∀ u ∈ ts, u.nameSpace ≠ o.nameSpace) :
    (merge ts [o]).value = ts ++ [o] := by
  have htemplates := Merging.templates_ofTemplates ts
  have hnone : (Merging.ofTemplates ts).receivers.lookup o.nameSpace = none := by
    refine Option.eq_none_iff_forall_ne_some.2 fun i hi => ?_
    have hmem := List.mem_of_getElem? ((Merging.points_ofTemplates ts _ i).1 hi).1
    rw [htemplates] at hmem
    obtain ⟨u, hu, hns⟩ := mem_nameSpaces.1 hmem
    exact h u hu hns
  have happly : (Merging.ofTemplates ts).receiver? o.nameSpace = none := by
    rw [Merging.receiver?, hnone]
    rfl
  change ((Merging.ofTemplates ts).apply o).value.templates = _
  rw [Merging.apply, happly]
  exact congrArg (· ++ [o]) htemplates

/-- An override of a known namespace changes the last template of it only. -/
theorem merge_singleton_of_last (ht : t.nameSpace = o.nameSpace)
    (hafter : ∀ u ∈ after, u.nameSpace ≠ o.nameSpace) :
    (merge (before ++ t :: after) [o]).value = before ++ (t.override o).value :: after := by
  have htemplates := Merging.templates_ofTemplates (before ++ t :: after)
  have hplace : (Merging.ofTemplates (before ++ t :: after)).receivers.lookup o.nameSpace =
      some before.length := by
    rw [Merging.points_ofTemplates, htemplates]
    refine ⟨by simp [nameSpaces, ht], fun hmem => ?_⟩
    rw [nameSpaces, ← List.map_drop] at hmem
    obtain ⟨u, hu, hns⟩ := List.mem_map.1 hmem
    exact hafter u (by simpa using hu) hns
  have hreceiver : (Merging.ofTemplates (before ++ t :: after)).receiver? o.nameSpace =
      some (before.length, t) := by
    rw [Merging.receiver?, hplace, htemplates]
    simp
  change ((Merging.ofTemplates _).apply o).value.templates = _
  rw [Merging.apply, hreceiver]
  change (Merging.ofTemplates _).templates.set _ _ = _
  rw [htemplates]
  simp

/-- A namespace is new, or it has a last template. -/
theorem new_or_last (ns : String) (ts : List Template) :
    (∀ u ∈ ts, u.nameSpace ≠ ns) ∨
      ∃ before t after, ts = before ++ t :: after ∧ t.nameSpace = ns ∧
        ∀ u ∈ after, u.nameSpace ≠ ns := by
  induction ts with
  | nil => exact .inl fun u hu => absurd hu List.not_mem_nil
  | cons u us ih =>
    rcases ih with hnew | ⟨before, t, after, rfl, ht, hafter⟩
    · by_cases hu : u.nameSpace = ns
      · exact .inr ⟨[], u, us, rfl, hu, hnew⟩
      · exact .inl (List.forall_mem_cons.2 ⟨hu, hnew⟩)
    · exact .inr ⟨u :: before, t, after, rfl, ht, hafter⟩

end Override

-- ---------------------------------------------------------------------------
-- One namespace
-- ---------------------------------------------------------------------------

/-- The templates of a namespace. -/
def ofNameSpace (ns : String) (ts : List Template) : List Template :=
  ts.filter (·.nameSpace = ns)

theorem ofNameSpace_append (ns : String) (ts us : List Template) :
    ofNameSpace ns (ts ++ us) = ofNameSpace ns ts ++ ofNameSpace ns us :=
  List.filter_append ..

theorem ofNameSpace_cons (ns : String) (t : Template) (ts : List Template) :
    ofNameSpace ns (t :: ts) =
      if t.nameSpace = ns then t :: ofNameSpace ns ts else ofNameSpace ns ts := by
  simp [ofNameSpace, List.filter_cons]

theorem mem_ofNameSpace {ns : String} {t : Template} {ts : List Template} :
    t ∈ ofNameSpace ns ts ↔ t ∈ ts ∧ t.nameSpace = ns := by
  simp [ofNameSpace]

theorem ofNameSpace_eq_nil {ns : String} {ts : List Template}
    (h : ∀ u ∈ ts, u.nameSpace ≠ ns) : ofNameSpace ns ts = [] :=
  List.filter_eq_nil_iff.2 fun u hu => by simpa using h u hu

/-- An override acts on its own namespace as if the others were not there. -/
theorem ofNameSpace_merge_singleton (ns : String) (ts : List Template) (o : Template) :
    ofNameSpace ns (merge ts [o]).value =
      if o.nameSpace = ns then (merge (ofNameSpace ns ts) [o]).value
      else ofNameSpace ns ts := by
  rcases new_or_last o.nameSpace ts with hnew | ⟨before, t, after, rfl, ht, hafter⟩
  · rw [merge_singleton_of_new hnew, ofNameSpace_append, ofNameSpace_cons]
    split
    · next hns =>
      subst hns
      rw [ofNameSpace_eq_nil hnew, merge_singleton_of_new (by simp)]
      rfl
    · exact List.append_nil _
  · rw [merge_singleton_of_last ht hafter]
    simp only [ofNameSpace_append, ofNameSpace_cons, nameSpace_override, ht]
    split
    · next hns =>
      subst hns
      rw [ofNameSpace_eq_nil hafter, merge_singleton_of_last ht (by simp)]
    · rfl

/-- The merge works on each namespace alone. -/
theorem ofNameSpace_merge (ns : String) (base overrides : List Template) :
    ofNameSpace ns (merge base overrides).value =
      (merge (ofNameSpace ns base) (ofNameSpace ns overrides)).value := by
  induction overrides generalizing base with
  | nil => rw [merge_nil, ofNameSpace, ofNameSpace, List.filter_nil, merge_nil]
  | cons o overrides ih =>
    rw [merge_cons, ih, ofNameSpace_merge_singleton, ofNameSpace_cons]
    split
    · exact (merge_cons ..).symm
    · rfl

/-- The endpoints of templates, in order. -/
def endpointsOf (ts : List Template) : List Endpoint := ts.flatMap (·.endpoints)

/-- The template after override endpoints of its namespace. -/
def receive (t : Template) (os : List Endpoint) : Template :=
  { t with endpoints := Endpoint.overrideAll t.nameSpace t.endpoints os }

theorem receive_append (t : Template) (os os' : List Endpoint) :
    t.receive (os ++ os') = (t.receive os).receive os' := by
  simp [receive, Endpoint.overrideAll]

theorem value_override (t o : Template) : (t.override o).value = t.receive o.endpoints := by
  rw [receive, ← endpoints_override]
  rfl

/-- The last template receives all overrides of its namespace, and the others stay
    as they are. -/
theorem merge_receiver (earlier : List Template) {overrides : List Template} {t : Template}
    (h : ∀ o ∈ overrides, o.nameSpace = t.nameSpace) :
    (merge (earlier ++ [t]) overrides).value = earlier ++ [t.receive (endpointsOf overrides)] := by
  induction overrides generalizing t with
  | nil => exact merge_nil _
  | cons o overrides ih =>
    obtain ⟨ho, hrest⟩ := List.forall_mem_cons.1 h
    have hrest' : ∀ u ∈ overrides, u.nameSpace = (t.receive o.endpoints).nameSpace := hrest
    rw [merge_cons, merge_singleton_of_last ho.symm (by simp), value_override, ih hrest',
      ← receive_append]
    rfl

/-- The override endpoints of a namespace, in order. -/
def overridesOf (ns : String) (overrides : List Template) : List Endpoint :=
  endpointsOf (ofNameSpace ns overrides)

theorem ofNameSpace_merge_of_known {ns : String} {base overrides earlier : List Template}
    {t : Template} (h : ofNameSpace ns base = earlier ++ [t]) :
    ofNameSpace ns (merge base overrides).value =
      earlier ++ [t.receive (overridesOf ns overrides)] := by
  have ht : t.nameSpace = ns := by
    have hmem : t ∈ ofNameSpace ns base := by simp [h]
    exact (mem_ofNameSpace.1 hmem).2
  rw [ofNameSpace_merge, h]
  apply merge_receiver
  intro o ho
  rw [(mem_ofNameSpace.1 ho).2, ht]

theorem mem_merge_iff {ns : String} {base overrides earlier : List Template} {t v : Template}
    (h : ofNameSpace ns base = earlier ++ [t]) :
    v ∈ (merge base overrides).value ∧ v.nameSpace = ns ↔
      v ∈ earlier ∨ v = t.receive (overridesOf ns overrides) := by
  rw [← mem_ofNameSpace, ofNameSpace_merge_of_known h, List.mem_append, List.mem_singleton]

/-- The first override of a new namespace is the template that receives the others. -/
theorem ofNameSpace_merge_of_new {ns : String} {base overrides rest : List Template} {o : Template}
    (h : ofNameSpace ns base = []) (ho : ofNameSpace ns overrides = o :: rest) :
    ofNameSpace ns (merge base overrides).value = [o.receive (endpointsOf rest)] := by
  have hmem : ∀ u ∈ o :: rest, u.nameSpace = ns := by
    intro u hu
    rw [← ho] at hu
    exact (mem_ofNameSpace.1 hu).2
  obtain ⟨hns, hrest⟩ := List.forall_mem_cons.1 hmem
  rw [ofNameSpace_merge, h, ho, merge_cons, merge_singleton_of_new (by simp)]
  apply merge_receiver []
  intro u hu
  rw [hrest u hu, hns]

-- ---------------------------------------------------------------------------
-- Names
-- ---------------------------------------------------------------------------

/-- The endpoint names of templates, with repetitions. -/
def names (ts : List Template) : List String := Endpoint.names (endpointsOf ts)

theorem names_concat (ts : List Template) (t : Template) :
    names (ts ++ [t]) = names ts ++ Endpoint.names t.endpoints := by
  simp [names, endpointsOf, Endpoint.names]

theorem count_names_receive (x : String) (earlier : List Template) (t : Template)
    (os : List Endpoint) :
    (names (earlier ++ [t.receive os])).count x =
      (names earlier).count x +
        max ((Endpoint.names t.endpoints).count x - Endpoint.removals x os) (Endpoint.kept x os) := by
  rw [names_concat, List.count_append]
  exact congrArg _ (Endpoint.count_names_overrideAll t.nameSpace x t.endpoints os)

/-- Overrides repeat no name, unless they keep one that a template before the
    receiver has. -/
theorem nodup_names_receive (earlier : List Template) {t : Template} {os : List Endpoint}
    (hnodup : (names (earlier ++ [t])).Nodup)
    (hkept : ∀ x ∈ names earlier, Endpoint.kept x os = 0) :
    (names (earlier ++ [t.receive os])).Nodup := by
  rw [List.nodup_iff_count_le_one] at hnodup ⊢
  intro x
  have hone := hnodup x
  rw [names_concat, List.count_append] at hone
  rw [count_names_receive]
  by_cases hx : x ∈ names earlier
  · rw [hkept x hx]
    omega
  · have hzero := List.count_eq_zero.2 hx
    have hle := Endpoint.kept_le_one x os
    omega

/-- The templates whose endpoints enter a namespace unmerged: its base templates
    or, without any, its first override. -/
def entering (ns : String) (base overrides : List Template) : List Template :=
  if ofNameSpace ns base = [] then (ofNameSpace ns overrides).take 1 else ofNameSpace ns base

/-- The merge repeats no name in a namespace that no name enters twice. The last
    override of a name that a base template before the receiver has is to be a
    removal, as that template does not see it. -/
theorem nodup_names_merge {ns : String} {base overrides : List Template}
    (hentering : (names (entering ns base overrides)).Nodup)
    (hearlier : ∀ x ∈ names (ofNameSpace ns base).dropLast,
      ∀ o ∈ Endpoint.lastNamed? x (overridesOf ns overrides), o.ignore = true) :
    (names (ofNameSpace ns (merge base overrides).value)).Nodup := by
  unfold entering at hentering
  rcases List.eq_nil_or_concat' (ofNameSpace ns base) with hbase | ⟨earlier, t, hbase⟩
  · rw [if_pos hbase] at hentering
    cases ho : ofNameSpace ns overrides with
    | nil =>
      rw [ofNameSpace_merge, hbase, ho]
      exact List.nodup_nil
    | cons o rest =>
      rw [ofNameSpace_merge_of_new hbase ho]
      rw [ho] at hentering
      exact nodup_names_receive [] hentering fun x hx => absurd hx List.not_mem_nil
  · rw [if_neg (by simp [hbase]), hbase] at hentering
    rw [ofNameSpace_merge_of_known hbase]
    refine nodup_names_receive earlier hentering fun x hx => ?_
    rw [hbase, List.dropLast_concat] at hearlier
    exact Endpoint.kept_eq_zero (hearlier x hx)

/-- Overrides that remove, replace and append endpoints of one namespace, which has
    two base templates, and one of a namespace that is new. -/
theorem nodup_names_merge_shop :
    let base : List Template := [
      { nameSpace := "Shop", endpoints := [{ name := "List" }] },
      { nameSpace := "Shop", endpoints := [{ name := "Find" }, { name := "Put" }] }]
    let overrides : List Template := [
      { nameSpace := "Shop"
        endpoints := [{ name := "List" }, { name := "Find", ignore := true }, { name := "Put" }] },
      { nameSpace := "Users", endpoints := [{ name := "Find" }] },
      { nameSpace := "Shop", endpoints := [{ name := "Find" }, { name := "List", ignore := true }] }]
    (names (entering "Shop" base overrides)).Nodup ∧
      (∀ x ∈ names (ofNameSpace "Shop" base).dropLast,
        ∀ o ∈ Endpoint.lastNamed? x (overridesOf "Shop" overrides), o.ignore = true) ∧
      (names (ofNameSpace "Shop" (merge base overrides).value)).Nodup := by
  intro base overrides
  have hentering : (names (entering "Shop" base overrides)).Nodup := by decide
  have hearlier : ∀ x ∈ names (ofNameSpace "Shop" base).dropLast,
      ∀ o ∈ Endpoint.lastNamed? x (overridesOf "Shop" overrides), o.ignore = true := by decide
  exact ⟨hentering, hearlier, nodup_names_merge hentering hearlier⟩

/-- Without the conditions on what enters, names can repeat: the first override of a
    new namespace is added as it is. -/
theorem not_forall_nodup_names_merge :
    ¬ ∀ (baseTexts overrideTexts : List String) (base overrides : List Template),
      baseTexts.mapM parse = .ok base → overrideTexts.mapM parse = .ok overrides →
        ∀ ns, (names (ofNameSpace ns (merge base overrides).value)).Nodup := by
  intro h
  let text := "#namespace A\nendpoint void X:Impl\x7b\x7d\nendpoint void X:Impl\x7b\x7d"
  let t : Template :=
    { nameSpace := "A"
      endpoints := [{ name := "X", method := .impl }, { name := "X", method := .impl }] }
  have hparse : parse text = .ok t := Source.eq_ok_of_toOption (by decide +kernel)
  have hparses : [text].mapM parse = .ok [t] := by
    rw [List.mapM_cons, hparse]
    rfl
  have hnodup := h [] [text] [] [t] rfl hparses "A"
  exact absurd hnodup (by decide)

/-- After a removal as its last override, a name is gone exactly if no template but
    the receiver had it, and the receiver no more often than it was removed. -/
theorem not_mem_names_merge_iff {ns x : String} {base overrides : List Template} {o : Endpoint}
    (hbase : ∃ t ∈ base, t.nameSpace = ns)
    (hlast : Endpoint.lastNamed? x (overridesOf ns overrides) = some o) (hignore : o.ignore = true) :
    (∀ t ∈ (merge base overrides).value, t.nameSpace = ns → x ∉ Endpoint.names t.endpoints) ↔
      (∀ t ∈ (ofNameSpace ns base).dropLast, x ∉ Endpoint.names t.endpoints) ∧
        ∀ t ∈ (ofNameSpace ns base).getLast?,
          (Endpoint.names t.endpoints).count x ≤
            Endpoint.removals x (overridesOf ns overrides) := by
  have hkept : Endpoint.kept x (overridesOf ns overrides) = 0 := by
    apply Endpoint.kept_eq_zero
    rw [hlast]
    rintro _ ⟨⟩
    exact hignore
  obtain ⟨u, hu, hns⟩ := hbase
  rcases List.eq_nil_or_concat' (ofNameSpace ns base) with hnil | ⟨earlier, t, hbase⟩
  · have hmem : u ∈ ofNameSpace ns base := mem_ofNameSpace.2 ⟨hu, hns⟩
    rw [hnil] at hmem
    exact absurd hmem List.not_mem_nil
  · -- The last override keeps nothing, so the receiver loses one endpoint to each removal.
    have hcount := Endpoint.count_names_overrideAll t.nameSpace x t.endpoints
      (overridesOf ns overrides)
    rw [hkept, Nat.max_zero] at hcount
    rw [hbase, List.dropLast_concat, List.getLast?_concat]
    constructor
    · intro h
      refine ⟨fun v hv => ?_, ?_⟩
      · obtain ⟨hmem, hvns⟩ := (mem_merge_iff hbase).2 (.inl hv)
        exact h v hmem hvns
      · rintro _ ⟨⟩
        obtain ⟨hmem, hvns⟩ := (mem_merge_iff hbase).2 (.inr rfl)
        have hzero := List.count_eq_zero.2 (h _ hmem hvns)
        exact Nat.sub_eq_zero_iff_le.1 (hcount.symm.trans hzero)
    · rintro ⟨hearlier, hreceiver⟩ v hmem hvns
      rcases (mem_merge_iff hbase).1 ⟨hmem, hvns⟩ with hv | rfl
      · exact hearlier v hv
      · apply List.count_eq_zero.1
        exact hcount.trans (Nat.sub_eq_zero_of_le (hreceiver t rfl))

theorem not_mem_names_merge_iff_shop :
    let base : List Template := [
      { nameSpace := "Users", endpoints := [{ name := "Find" }] },
      { nameSpace := "Shop", endpoints := [{ name := "Put" }] },
      { nameSpace := "Shop", endpoints := [{ name := "Find" }, { name := "Find" }] }]
    let overrides : List Template := [
      { nameSpace := "Shop", endpoints := [{ name := "Find", ignore := true }, { name := "Find" }] },
      { nameSpace := "Users", endpoints := [{ name := "Find" }] },
      { nameSpace := "Shop", endpoints := [{ name := "Find", ignore := true }] }]
    (∃ t ∈ base, t.nameSpace = "Shop") ∧
      Endpoint.lastNamed? "Find" (overridesOf "Shop" overrides) =
        some { name := "Find", ignore := true } ∧
      ∀ t ∈ (merge base overrides).value, t.nameSpace = "Shop" →
        "Find" ∉ Endpoint.names t.endpoints := by
  intro base overrides
  have hbase : ∃ t ∈ base, t.nameSpace = "Shop" := by decide
  have hlast : Endpoint.lastNamed? "Find" (overridesOf "Shop" overrides) =
      some { name := "Find", ignore := true } := by decide
  exact ⟨hbase, hlast, (not_mem_names_merge_iff hbase hlast rfl).2 (by decide)⟩

end Template

end ApiStubs
