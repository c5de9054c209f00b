-- SUMMARY: What sorting the parameters of an endpoint yields, said without going through the lines.
import ApiStubs.Proofs.Buckets

/-!
# Sorted parameters

Sorting goes through the lines once and changes several lists on the way. What it yields can
be said without them. The lines without a condition declare parameters, and the first one of
every identifier is kept, with the kind and the group of its line. `Param.required` and
`Param.optional` are made from the kept ones alone, from the order of the groups and from
the groups that have a line without parameters.

`Buckets.Mirrors` says of the buckets on the way what they hold, and
`Buckets.mirrors_ofParams` that they do so in the end.
-/

namespace ApiStubs

-- ---------------------------------------------------------------------------
-- Keeping the first of each kind
-- ---------------------------------------------------------------------------

section KeepFirst

variable {α κ : Type} [DecidableEq κ] (key : α → κ)

/-- The items whose key differs from the keys of all that are kept before them. -/
def keepFirst (as : List α) : List α :=
  as.foldl (fun kept a => if key a ∈ kept.map key then kept else kept ++ [a]) []

theorem keepFirst_concat (as : List α) (a : α) :
    keepFirst key (as ++ [a]) =
      if key a ∈ (keepFirst key as).map key then keepFirst key as else keepFirst key as ++ [a] :=
  List.foldl_concat _ _ _ _

theorem nodup_keepFirst (as : List α) : ((keepFirst key as).map key).Nodup := by
  induction as using List.reverseRecOn with
  | nil => exact .nil
  | append_singleton as a ih =>
    rw [keepFirst_concat]
    split
    · exact ih
    · next hnew =>
      rw [List.map_append, List.map_singleton, ← List.concat_eq_append]
      exact ih.concat hnew

/-- For every key the first item that has it is kept. -/
theorem find?_keepFirst (as : List α) (x : κ) :
    (keepFirst key as).find? (key · = x) = as.find? (key · = x) := by
  induction as using List.reverseRecOn with
  | nil => rfl
  | append_singleton as a ih =>
    rw [keepFirst_concat, List.find?_append, ← ih]
    split
    · next hold =>
      -- An item with the key of the last one is found before it.
      obtain ⟨b, hb, hkey⟩ := List.mem_map.1 hold
      cases hfind : (keepFirst key as).find? (key · = x) with
      | some c => rfl
      | none =>
        have hb : ¬ key b = x := by simpa using List.find?_eq_none.1 hfind b hb
        have ha : ¬ key a = x := hkey ▸ hb
        simp [ha]
    · rw [List.find?_append]

theorem mem_keys_keepFirst (as : List α) (x : κ) :
    x ∈ (keepFirst key as).map key ↔ x ∈ as.map key := by
  have hiff (bs : List α) : x ∈ bs.map key ↔ (bs.find? (key · = x)).isSome := by simp
  rw [hiff, hiff, find?_keepFirst]

theorem keepFirst_sublist (as : List α) : (keepFirst key as).Sublist as := by
  induction as using List.reverseRecOn with
  | nil => exact .refl _
  | append_singleton as a ih =>
    rw [keepFirst_concat]
    split
    · exact ih.trans (List.sublist_append_left as [a])
    · exact ih.append_right [a]

end KeepFirst

-- ---------------------------------------------------------------------------
-- Declarations
-- ---------------------------------------------------------------------------

/-- A parameter with the kind and the group of the line that declares it. -/
structure Declaration where
  kind : ParamKind
  group : Nat
  param : TypedName
deriving DecidableEq, Repr

namespace Declaration

def identifier (d : Declaration) : String := d.param.identifier

/-- Whether an `either` line of the group declares the parameter. -/
def isUnder (group : Nat) (d : Declaration) : Bool := d.kind = .either && d.group = group

theorem isUnder_iff {group : Nat} {d : Declaration} :
    d.isUnder group ↔ d.kind = .either ∧ d.group = group := by
  simp [isUnder]

/-- The parameters of a kind. -/
def ofKind (kind : ParamKind) (ds : List Declaration) : List TypedName :=
  (ds.filter (·.kind = kind)).map (·.param)

/-- The parameters of a group. -/
def ofGroup (group : Nat) (ds : List Declaration) : List TypedName :=
  (ds.filter (·.isUnder group)).map (·.param)

theorem ofKind_concat (kind : ParamKind) (ds : List Declaration) (d : Declaration) :
    ofKind kind (ds ++ [d]) =
      if d.kind = kind then ofKind kind ds ++ [d.param] else ofKind kind ds := by
  unfold ofKind
  rw [List.filter_append, List.map_append, List.filter_singleton]
  split <;> simp [*]

theorem ofGroup_concat (group : Nat) (ds : List Declaration) (d : Declaration) :
    ofGroup group (ds ++ [d]) =
      if d.isUnder group then ofGroup group ds ++ [d.param] else ofGroup group ds := by
  unfold ofGroup
  rw [List.filter_append, List.map_append, List.filter_singleton]
  split <;> simp [*]

end Declaration

namespace Param

open Declaration

/-- The lines without a condition. -/
def unguarded (params : List Param) : List Param := params.filter (·.guard.isNone)

/-- What the lines without a condition declare, in order. -/
def declarations (params : List Param) : List Declaration :=
  (unguarded params).flatMap fun line => line.pairs.map (⟨line.kind, line.group, ·⟩)

/-- The declarations that are kept: the first one of every identifier. -/
def kept (params : List Param) : List Declaration :=
  keepFirst (·.identifier) (declarations params)

/-- The groups, in the order of their first lines. -/
def groups (params : List Param) : List Nat :=
  keepFirst id (((unguarded params).filter (·.kind = .either)).map (·.group))

/-- Whether the group has a line without parameters. -/
def isOpen (params : List Param) (group : Nat) : Bool :=
  (unguarded params).any fun line =>
    line.kind = .either && line.group = group && line.pairs.isEmpty

/-- Whether the group leaves no choice: it has a single parameter and is not open. -/
def isForced (params : List Param) (group : Nat) : Bool :=
  (ofGroup group (kept params)).length = 1 && !isOpen params group

/-- The parameters that have to be given: the required ones, then those of the groups that
    leave no choice. -/
def required (params : List Param) : List TypedName :=
  ofKind .required (kept params) ++
    ((groups params).filter (isForced params)).flatMap fun group => ofGroup group (kept params)

/-- The parameters that may be given: those of all other groups, then the optional ones. -/
def optional (params : List Param) : List TypedName :=
  (((groups params).filter (!isForced params ·)).flatMap fun group => ofGroup group (kept params)) ++
    ofKind .optional (kept params)

theorem unguarded_concat {line : Param} (h : line.guard = none) (params : List Param) :
    unguarded (params ++ [line]) = unguarded params ++ [line] := by
  simp [unguarded, h]

theorem unguarded_concat_of_guard {line : Param} (h : line.guard.isSome) (params : List Param) :
    unguarded (params ++ [line]) = unguarded params := by
  simp [unguarded, Option.isSome_iff_ne_none.1 h]

section Concat

variable {line : Param} (h : line.guard = none) (params : List Param)
include h

theorem declarations_concat :
    declarations (params ++ [line]) =
      declarations params ++ line.pairs.map (⟨line.kind, line.group, ·⟩) := by
  unfold declarations
  rw [unguarded_concat h, List.flatMap_append, List.flatMap_singleton]

theorem groups_concat :
    groups (params ++ [line]) =
      if line.kind = .either ∧ line.group ∉ groups params then groups params ++ [line.group]
      else groups params := by
  unfold groups
  rw [unguarded_concat h, List.filter_append, List.map_append, List.filter_singleton]
  by_cases hkind : line.kind = .either
  · simp only [hkind, decide_true, cond_true, List.map_singleton, keepFirst_concat, List.map_id, id,
      true_and, ite_not]
  · simp [hkind]

theorem isOpen_concat :
    isOpen (params ++ [line]) = fun group =>
      isOpen params group ||
        (line.kind = .either && line.group = group && line.pairs.isEmpty) := by
  funext group
  unfold isOpen
  rw [unguarded_concat h, List.any_append, List.any_cons, List.any_nil, Bool.or_false]

end Concat

theorem nodup_groups (params : List Param) : (groups params).Nodup := by
  have hnodup := nodup_keepFirst id (((unguarded params).filter (·.kind = .either)).map (·.group))
  rwa [List.map_id] at hnodup

theorem mem_groups {params : List Param} {group : Nat} :
    group ∈ groups params ↔ ∃ line ∈ unguarded params, line.kind = .either ∧ line.group = group := by
  have hkeys := mem_keys_keepFirst id
    (((unguarded params).filter (·.kind = .either)).map (·.group)) group
  rw [List.map_id, List.map_id] at hkeys
  exact hkeys.trans (by simp [and_assoc])

theorem mem_declarations {params : List Param} {d : Declaration} :
    d ∈ declarations params ↔
      ∃ line ∈ unguarded params, line.kind = d.kind ∧ line.group = d.group ∧ d.param ∈ line.pairs := by
  unfold declarations
  simp only [List.mem_flatMap, List.mem_map]
  constructor
  · rintro ⟨line, hline, p, hp, rfl⟩
    exact ⟨line, hline, rfl, rfl, hp⟩
  · rintro ⟨line, hline, hkind, hgroup, hp⟩
    exact ⟨line, hline, d.param, hp, by rw [hkind, hgroup]⟩

theorem mem_declarations_of_mem_kept {params : List Param} {d : Declaration} (h : d ∈ kept params) :
    d ∈ declarations params :=
  (keepFirst_sublist _ _).subset h

theorem mem_groups_of_isUnder {params : List Param} {group : Nat} {d : Declaration}
    (hd : d ∈ declarations params) (hunder : d.isUnder group) : group ∈ groups params := by
  obtain ⟨line, hline, hkind, hgroup, -⟩ := mem_declarations.1 hd
  obtain ⟨heither, hunder⟩ := isUnder_iff.1 hunder
  exact mem_groups.2 ⟨line, hline, hkind.trans heither, hgroup.trans hunder⟩

theorem ofGroup_of_new {params : List Param} {group : Nat} (h : group ∉ groups params) :
    ofGroup group (kept params) = [] := by
  unfold ofGroup
  rw [List.map_eq_nil_iff, List.filter_eq_nil_iff]
  exact fun d hd hunder => h (mem_groups_of_isUnder (mem_declarations_of_mem_kept hd) hunder)

theorem isOpen_of_new {params : List Param} {group : Nat} (h : group ∉ groups params) :
    isOpen params group = false := by
  rw [isOpen, List.any_eq_false]
  intro line hline hopen
  simp only [Bool.and_eq_true, decide_eq_true_eq] at hopen
  exact h (mem_groups.2 ⟨line, hline, hopen.1.1, hopen.1.2⟩)

end Param

-- ---------------------------------------------------------------------------
-- Groups on the way
-- ---------------------------------------------------------------------------

/-- Changing the group of an index, where groups are given by their indices. -/
theorem EitherGroup.update_map {order : List Nat} (hnodup : order.Nodup)
    {group : Nat → EitherGroup} (hindex : ∀ g, (group g).index = g) {index : Nat}
    (hnew : index ∉ order → group index = ⟨index, [], false⟩) (f : EitherGroup → EitherGroup) :
    update index f (order.map group) =
      (if index ∈ order then order else order ++ [index]).map
        fun g => if g = index then f (group g) else group g := by
  induction order with
  | nil => simp [update, hnew]
  | cons g gs ih =>
    obtain ⟨hg, hgs⟩ := List.nodup_cons.1 hnodup
    rw [List.map_cons, update, hindex]
    by_cases heq : g = index
    · subst heq
      have hsame : gs.map group = gs.map fun g' => if g' = g then f (group g') else group g' :=
        List.map_congr_left fun g' hg' => (if_neg (ne_of_mem_of_not_mem hg' hg)).symm
      rw [if_pos rfl, if_pos List.mem_cons_self, List.map_cons, if_pos rfl, hsame]
    · have hmem : index ∈ g :: gs ↔ index ∈ gs := by simp [Ne.symm heq]
      rw [if_neg heq, ih hgs fun h => hnew (mt hmem.1 h)]
      simp only [hmem]
      split <;> simp [heq]

namespace Buckets

open Declaration

/-- The buckets hold what is kept so far, and one group for each index in `order`. -/
structure Mirrors (b : Buckets) (ds : List Declaration) (order : List Nat)
    (isOpen : Nat → Bool) : Prop where
  kept : b.kept = ds.map (·.param)
  required : b.required = ofKind .required ds
  optional : b.optional = ofKind .optional ds
  groups : b.groups = order.map fun g => ⟨g, ofGroup g ds, isOpen g⟩

namespace Mirrors

variable {b : Buckets} {ds : List Declaration} {order : List Nat} {isOpen : Nat → Bool}

theorem add (h : Mirrors b ds order isOpen) (hnodup : order.Nodup) {d : Declaration}
    (hd : d.kind = .either → d.group ∈ order) :
    Mirrors (b.add d.kind d.group d.param) (ds ++ [d]) order isOpen := by
  have hkept : (b.add d.kind d.group d.param).kept = (ds ++ [d]).map (·.param) := by
    rw [kept_add, h.kept, List.map_append, List.map_singleton]
  obtain ⟨kind, group, p⟩ := d
  cases kind with
  | required =>
    refine ⟨hkept, ?_, ?_, ?_⟩
    · rw [ofKind_concat, if_pos rfl, ← h.required]; rfl
    · rw [ofKind_concat, if_neg (by simp), ← h.optional]; rfl
    · simp only [ofGroup_concat]; exact h.groups
  | optional =>
    refine ⟨hkept, ?_, ?_, ?_⟩
    · rw [ofKind_concat, if_neg (by simp), ← h.required]; rfl
    · rw [ofKind_concat, if_pos rfl, ← h.optional]; rfl
    · simp only [ofGroup_concat]; exact h.groups
  | either =>
    refine ⟨hkept, ?_, ?_, ?_⟩
    · rw [ofKind_concat, if_neg (by simp), ← h.required]; rfl
    · rw [ofKind_concat, if_neg (by simp), ← h.optional]; rfl
    · change EitherGroup.update group (·.add p) b.groups = _
      rw [h.groups, EitherGroup.update_map hnodup (fun _ => rfl) fun hnew => absurd (hd rfl) hnew,
        if_pos (hd rfl)]
      refine List.map_congr_left fun g _ => ?_
      rw [ofGroup_concat]
      by_cases hg : g = group
      · simp [isUnder, hg, EitherGroup.add]
      · simp [isUnder, hg, Ne.symm hg]

/-- One more parameter is declared. -/
theorem keep (h : Mirrors b (keepFirst (·.identifier) ds) order isOpen) (hnodup : order.Nodup)
    (label : String) {d : Declaration} (hd : d.kind = .either → d.group ∈ order) :
    Mirrors (keep label d.kind d.group b d.param).value
      (keepFirst (·.identifier) (ds ++ [d])) order isOpen := by
  have htakes : b.takes d.param.identifier = true ↔
      d.identifier ∈ (keepFirst (·.identifier) ds).map (·.identifier) := by
    rw [takes_iff, h.kept, List.map_map]
    rfl
  rw [value_keep, keepFirst_concat]
  simp only [htakes]
  split
  · exact h
  · exact h.add hnodup hd

theorem keepAll (h : Mirrors b (keepFirst (·.identifier) ds) order isOpen) (hnodup : order.Nodup)
    (label : String) {kind : ParamKind} {group : Nat} (hgroup : kind = .either → group ∈ order)
    (ps : List TypedName) :
    Mirrors (ps.foldlM (Buckets.keep label kind group) b).value
      (keepFirst (·.identifier) (ds ++ ps.map (⟨kind, group, ·⟩))) order isOpen := by
  induction ps generalizing b ds with
  | nil => simpa using h
  | cons p ps ih =>
    rw [List.foldlM_cons, Logged.value_bind, List.map_cons, List.append_cons]
    exact ih (h.keep hnodup label (d := ⟨kind, group, p⟩) hgroup)

/-- An `either` line may begin a group or open it. -/
theorem meetGroup (h : Mirrors b ds order isOpen) (hnodup : order.Nodup) (line : Param)
    (hnew : line.group ∉ order → ofGroup line.group ds = [] ∧ isOpen line.group = false) :
    Mirrors (b.meetGroup line) ds
      (if line.kind = .either ∧ line.group ∉ order then order ++ [line.group] else order)
      (fun g => isOpen g || (line.kind = .either && line.group = g && line.pairs.isEmpty)) := by
  unfold Buckets.meetGroup
  by_cases hkind : line.kind = .either
  · rw [if_pos hkind]
    refine ⟨h.kept, h.required, h.optional, ?_⟩
    have hgroup (hnot : line.group ∉ order) :
        (⟨line.group, ofGroup line.group ds, isOpen line.group⟩ : EitherGroup) =
          ⟨line.group, [], false⟩ := by
      rw [(hnew hnot).1, (hnew hnot).2]
    dsimp only
    rw [h.groups, EitherGroup.update_map hnodup (fun _ => rfl) hgroup]
    have horder : (if line.kind = .either ∧ line.group ∉ order then order ++ [line.group] else order) =
        if line.group ∈ order then order else order ++ [line.group] := by
      simp only [hkind, true_and, ite_not]
    rw [horder]
    refine List.map_congr_left fun g _ => ?_
    by_cases hg : g = line.group
    · subst hg
      cases hempty : line.pairs.isEmpty <;> simp [hkind, EitherGroup.setOpen]
    · simp [hg, Ne.symm hg]
  · simp only [hkind, if_false, false_and, decide_false, Bool.false_and, Bool.or_false]
    exact h

end Mirrors

/-- The buckets after some lines. -/
theorem mirrors_ofParams (label : String) (params : List Param) :
    Mirrors (ofParams label params).value (Param.kept params) (Param.groups params)
      (Param.isOpen params) := by
  induction params using List.reverseRecOn with
  | nil => exact ⟨rfl, rfl, rfl, rfl⟩
  | append_singleton params line ih =>
    have hvalue : (ofParams label (params ++ [line])).value =
        (addLine label (ofParams label params).value line).value := by
      unfold ofParams
      rw [List.foldlM_append]
      simp
    rw [hvalue, addLine]
    split
    · next hguard =>
      have hsame := Param.unguarded_concat_of_guard hguard params
      unfold Param.kept Param.declarations Param.groups Param.isOpen
      rw [hsame]
      exact ih
    · next hguard =>
      have hguard : line.guard = none := by simpa using hguard
      have hmeet := ih.meetGroup (Param.nodup_groups params) line fun hnew =>
        ⟨Param.ofGroup_of_new hnew, Param.isOpen_of_new hnew⟩
      rw [← Param.groups_concat hguard, ← Param.isOpen_concat hguard] at hmeet
      rw [Param.kept, Param.declarations_concat hguard]
      refine hmeet.keepAll (Param.nodup_groups _) label (fun hkind => ?_) line.pairs
      refine Param.mem_groups.2 ⟨line, ?_, hkind, rfl⟩
      rw [Param.unguarded_concat hguard]
      exact List.mem_append_right _ List.mem_cons_self

-- ---------------------------------------------------------------------------
-- Required and optional parameters
-- ---------------------------------------------------------------------------

theorem allRequired_ofParams (label : String) (params : List Param) :
    (ofParams label params).value.allRequired = Param.required params := by
  have h := mirrors_ofParams label params
  unfold allRequired Param.required
  rw [h.required, h.groups, List.filter_map, List.flatMap_map]
  rfl

theorem allOptional_ofParams (label : String) (params : List Param) :
    (ofParams label params).value.allOptional = Param.optional params := by
  have h := mirrors_ofParams label params
  unfold allOptional Param.optional
  rw [h.optional, h.groups, List.filter_map, List.flatMap_map]
  rfl

/-- A line with a condition is passed over in silence. -/
theorem ofParams_unguarded (label : String) (params : List Param) :
    ofParams label (Param.unguarded params) = ofParams label params := by
  unfold ofParams Param.unguarded
  generalize ({} : Buckets) = b
  induction params generalizing b with
  | nil => rfl
  | cons line params ih =>
    rw [List.filter_cons, List.foldlM_cons]
    cases hguard : line.guard with
    | none => simp [ih]
    | some guard => simp [addLine, hguard, ih]

/-- Sorting the parameters of an endpoint yields the required and the optional ones as they
    are declared. Every kept parameter is in one of the two lists, and only there, and lines
    with a condition do not count. -/
theorem ofParams_sorted_as_declared (label : String) (params : List Param) :
    let b := (ofParams label params).value
    b.allRequired = Param.required params ∧ b.allOptional = Param.optional params ∧
      (∀ p, (b.allRequired ++ b.allOptional).count p =
        if p ∈ (Param.kept params).map (·.param) then 1 else 0) ∧
      ofParams label (Param.unguarded params) = ofParams label params := by
  intro b
  refine ⟨allRequired_ofParams label params, allOptional_ofParams label params, fun p => ?_,
    ofParams_unguarded label params⟩
  have hsorts := sorts_ofParams label params
  have hnodup : b.kept.Nodup := hsorts.distinct.of_map _
  rw [((perm_members b).trans hsorts.members).count_eq, hnodup.count,
    (mirrors_ofParams label params).kept]

end Buckets

/-- A group with a single parameter, and an open one. The last parameter is declared before. -/
example :
    let params : List Param := [
      { kind := .either, pairs := [⟨"long", "id"⟩], group := 1 },
      { kind := .either, pairs := [⟨"string", "name"⟩] },
      { kind := .either },
      { kind := .required, pairs := [⟨"string", "text"⟩, ⟨"string", "id"⟩] }]
    Param.required params = [⟨"string", "text"⟩, ⟨"long", "id"⟩] ∧
      Param.optional params = [⟨"string", "name"⟩] := by
  decide +kernel

end ApiStubs
