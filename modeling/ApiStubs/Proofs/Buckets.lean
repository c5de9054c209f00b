-- SUMMARY: Which declared parameters are kept, and that sorting them loses none.
import ApiStubs.Proofs.Merge
import ApiStubs.Resolved.Buckets

/-!
# Kept parameters

Parameters are sorted line by line. Of the parameters that the unguarded lines declare with
one identifier the first one is kept, and the kept ones are those in the buckets.
`Buckets.Sorts` says this of the buckets after some lines, and `Buckets.sorts_ofParams` that
it holds after all of them.
-/

namespace ApiStubs

/-- The identifier of a parameter in generated code. -/
def TypedName.identifier (p : TypedName) : String := Naming.identifier p.name

/-- The parameters that a line declares without a condition. -/
def Param.declared (param : Param) : List TypedName :=
  if param.guard.isSome then [] else param.pairs

/-- The parameters that all lines declare without a condition, in order. -/
def Param.declaredBy (params : List Param) : List TypedName := params.flatMap (·.declared)

-- ---------------------------------------------------------------------------
-- Groups
-- ---------------------------------------------------------------------------

namespace EitherGroup

/-- A change that keeps the members of every group keeps the members of all. -/
theorem members_update_of_same {f : EitherGroup → EitherGroup}
    (hf : ∀ g, (f g).members = g.members) (index : Nat) (gs : List EitherGroup) :
    (update index f gs).flatMap (·.members) = gs.flatMap (·.members) := by
  induction gs with
  | nil => simp [update, hf]
  | cons g gs ih =>
    rw [update]
    split
    · rw [List.flatMap_cons, List.flatMap_cons, hf]
    · rw [List.flatMap_cons, List.flatMap_cons, ih]

theorem members_update_add (index : Nat) (p : TypedName) (gs : List EitherGroup) :
    ((update index (·.add p) gs).flatMap (·.members)).Perm (p :: gs.flatMap (·.members)) := by
  induction gs with
  | nil => exact .refl _
  | cons g gs ih =>
    rw [update]
    split
    · rw [List.flatMap_cons, List.flatMap_cons, add, List.append_assoc]
      exact List.perm_middle
    · rw [List.flatMap_cons, List.flatMap_cons]
      exact (ih.append_left g.members).trans List.perm_middle

end EitherGroup

-- ---------------------------------------------------------------------------
-- Buckets
-- ---------------------------------------------------------------------------

namespace Buckets

/-- Everything in the buckets. -/
def members (b : Buckets) : List TypedName :=
  b.required ++ (b.groups.flatMap (·.members) ++ b.optional)

/-- Whether a group is forced only decides where its members go. -/
theorem perm_members (b : Buckets) : (b.allRequired ++ b.allOptional).Perm b.members := by
  unfold allRequired allOptional members
  rw [List.append_assoc]
  refine List.Perm.append_left _ ?_
  rw [← List.append_assoc, ← List.flatMap_append]
  exact ((List.filter_append_perm (·.isForced) b.groups).flatMap_right _).append_right _

/-- The buckets hold what is kept of the declared parameters: the first one of every
    identifier. -/
structure Sorts (b : Buckets) (declared : List TypedName) : Prop where
  distinct : (b.kept.map (·.identifier)).Nodup
  first : ∀ attr, b.kept.find? (·.identifier = attr) = declared.find? (·.identifier = attr)
  members : b.members.Perm b.kept

theorem takes_iff {b : Buckets} {attr : String} :
    b.takes attr = true ↔ attr ∈ b.kept.map (·.identifier) := by
  simp [takes, TypedName.identifier]

/-- A repeated parameter and one whose identifier is in use are both passed over. -/
theorem value_keep (label : String) (kind : ParamKind) (group : Nat) (b : Buckets)
    (p : TypedName) :
    (keep label kind group b p).value =
      if b.takes p.identifier then b else b.add kind group p := by
  unfold keep
  split
  · next hrepeated =>
    have htakes : b.takes p.identifier = true :=
      takes_iff.2 (List.mem_map_of_mem (List.contains_iff_mem.1 hrepeated))
    rw [if_pos htakes]
    rfl
  · change (if b.takes p.identifier then _ else _ : Logged Buckets).value = _
    split <;> rfl

theorem kept_add (b : Buckets) (kind : ParamKind) (group : Nat) (p : TypedName) :
    (b.add kind group p).kept = b.kept ++ [p] := by
  cases kind <;> rfl

theorem members_add (b : Buckets) (kind : ParamKind) (group : Nat) (p : TypedName) :
    (b.add kind group p).members.Perm (p :: b.members) := by
  cases kind with
  | required =>
    have hrequired : (b.required ++ [p]).Perm (p :: b.required) := List.perm_append_singleton _ _
    exact hrequired.append_right _
  | optional =>
    have hoptional : (b.optional ++ [p]).Perm (p :: b.optional) := List.perm_append_singleton _ _
    have hgroups := (hoptional.append_left (b.groups.flatMap (·.members))).trans List.perm_middle
    exact (hgroups.append_left b.required).trans List.perm_middle
  | either =>
    have hgroups := (EitherGroup.members_update_add group p b.groups).append_right b.optional
    exact (hgroups.append_left b.required).trans List.perm_middle

namespace Sorts

variable {b : Buckets} {declared : List TypedName}

theorem empty : Sorts {} [] :=
  ⟨List.nodup_nil, fun _ => rfl, .refl _⟩

/-- One more parameter is declared. -/
theorem keep (h : Sorts b declared) (label : String) (kind : ParamKind) (group : Nat)
    (p : TypedName) : Sorts (keep label kind group b p).value (declared ++ [p]) := by
  rw [value_keep]
  split
  · next htakes =>
    refine ⟨h.distinct, fun attr => ?_, h.members⟩
    rw [List.find?_append, ← h.first]
    -- A parameter with the identifier of the new one is found before it.
    cases hfind : b.kept.find? (·.identifier = attr) with
    | some q => rfl
    | none =>
      obtain ⟨q, hq, heq⟩ := List.mem_map.1 (takes_iff.1 htakes)
      have hne : q.identifier ≠ attr := by simpa using List.find?_eq_none.1 hfind q hq
      have hp : ¬ p.identifier = attr := heq ▸ hne
      simp [hp]
  · next htakes =>
    have hfresh : p.identifier ∉ b.kept.map (·.identifier) := mt takes_iff.2 htakes
    refine ⟨?_, fun attr => ?_, ?_⟩
    · rw [kept_add, List.map_append, List.map_singleton, ← List.concat_eq_append]
      exact h.distinct.concat hfresh
    · rw [kept_add, List.find?_append, List.find?_append, h.first]
    · rw [kept_add]
      exact ((members_add b kind group p).trans (h.members.cons p)).trans
        (List.perm_append_singleton p b.kept).symm

/-- An `either` line may open a group, but its members stay. -/
theorem meetGroup (h : Sorts b declared) (param : Param) :
    Sorts (b.meetGroup param) declared := by
  unfold Buckets.meetGroup
  split
  · have hgroups := EitherGroup.members_update_of_same
      (f := if param.pairs.isEmpty then EitherGroup.setOpen else id) (by intro g; split <;> rfl)
      param.group b.groups
    refine ⟨h.distinct, h.first, ?_⟩
    unfold Buckets.members
    rw [hgroups]
    exact h.members
  · exact h

theorem keepAll (h : Sorts b declared) (label : String) (kind : ParamKind) (group : Nat)
    (ps : List TypedName) :
    Sorts (ps.foldlM (Buckets.keep label kind group) b).value (declared ++ ps) := by
  induction ps generalizing b declared with
  | nil => simpa using h
  | cons p ps ih =>
    rw [List.foldlM_cons, Logged.value_bind, List.append_cons]
    exact ih (h.keep label kind group p)

theorem addLine (h : Sorts b declared) (label : String) (param : Param) :
    Sorts (addLine label b param).value (declared ++ param.declared) := by
  unfold Buckets.addLine Param.declared
  split
  · simpa using h
  · exact (h.meetGroup param).keepAll label param.kind param.group param.pairs

end Sorts

/-- Sorting all lines keeps the first parameter of every identifier. -/
theorem sorts_ofParams (label : String) (params : List Param) :
    Sorts (ofParams label params).value (Param.declaredBy params) := by
  have hlines {b : Buckets} {declared : List TypedName} (h : Sorts b declared) :
      Sorts (params.foldlM (addLine label) b).value (declared ++ Param.declaredBy params) := by
    induction params generalizing b declared with
    | nil => simpa [Param.declaredBy] using h
    | cons param params ih =>
      rw [List.foldlM_cons, Logged.value_bind, Param.declaredBy, List.flatMap_cons,
        ← List.append_assoc]
      exact ih (h.addLine label param)
  exact hlines .empty

end Buckets

end ApiStubs
