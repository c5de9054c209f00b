-- SUMMARY: What making directories and writing files does to a tree, location by location.
import ApiStubs.Files.Tree
import Mathlib.Logic.Function.Basic

/-!
# Writing

A tree is known by what stands at each location. Paths are followed by that alone, and every
change puts one file or one empty directory at one location where no directory stands, so
that all other locations stay as they are.

`makeDirectories_readies`, `openEmpty_puts` and `fill_puts` say what making directories, opening
a file and writing to it do.
-/

namespace ApiStubs.Files

-- ---------------------------------------------------------------------------
-- What stands at a location
-- ---------------------------------------------------------------------------

/-- What stands at a location. -/
inductive Occupant where
  | nothing
  | directory
  | file (octets : List UInt8)
deriving DecidableEq, Repr

namespace Occupant

def ofEntry : Entry → Occupant
  | .directory _ => .directory
  | .file octets => .file octets

/-- The octets, if a file stands there. -/
def octets? : Occupant → Option (List UInt8)
  | .file octets => some octets
  | .directory => none
  | .nothing => none

theorem ofEntry_ne_nothing (e : Entry) : ofEntry e ≠ .nothing := by cases e <;> nofun

end Occupant

namespace Entry

def occupant (e : Entry) (location : Location) : Occupant :=
  (e.get? location).elim .nothing .ofEntry

theorem get?_append (e : Entry) (front back : Location) :
    e.get? (front ++ back) = (e.get? front).bind (·.get? back) := by
  induction front generalizing e with
  | nil => cases e <;> rfl
  | cons name names ih =>
    cases e with
    | file octets => rfl
    | directory entries =>
      rw [List.cons_append, get?, get?]
      cases entries.lookup name with
      | none => rfl
      | some child => exact ih child

theorem occupant_nil (e : Entry) : e.occupant [] = .ofEntry e := by cases e <;> rfl

theorem occupant_directory_cons (entries : List (String × Entry)) (name : String)
    (names : Location) :
    (directory entries).occupant (name :: names) =
      (entries.lookup name).elim .nothing (·.occupant names) := by
  rw [occupant, get?]
  cases entries.lookup name with
  | none => rfl
  | some child => rfl

theorem get?_of_occupant {e : Entry} {location : Location} (h : e.occupant location = .directory) :
    ∃ entries, e.get? location = some (.directory entries) := by
  unfold occupant at h
  cases he : e.get? location with
  | none => rw [he] at h; cases h
  | some child =>
    rw [he] at h
    cases child with
    | file octets => cases h
    | directory entries => exact ⟨entries, rfl⟩

/-- Only directories have something below them. -/
theorem occupant_below {e : Entry} {location : Location} (h : e.occupant location ≠ .directory)
    (name : String) (names : Location) : e.occupant (location ++ name :: names) = .nothing := by
  unfold occupant at h ⊢
  rw [get?_append]
  cases he : e.get? location with
  | none => rfl
  | some child =>
    rw [he] at h
    cases child with
    | file octets => rfl
    | directory entries => exact absurd rfl h

theorem occupant_dropLast {e : Entry} {location : Location} (h : e.occupant location = .directory) :
    e.occupant location.dropLast = .directory := by
  rcases List.eq_nil_or_concat location with rfl | ⟨names, name, rfl⟩
  · exact h
  · rw [List.concat_eq_append] at h ⊢
    rw [List.dropLast_concat]
    refine Classical.byContradiction fun hne => ?_
    rw [occupant_below hne name []] at h
    cases h

theorem lookup_cons (other name : String) (e : Entry) (entries : List (String × Entry)) :
    ((name, e) :: entries).lookup other =
      if other = name then some e else entries.lookup other := by
  rw [List.lookup_cons]
  by_cases hname : other = name
  · rw [if_pos hname, hname, beq_self_eq_true]
  · rw [if_neg hname, beq_false_of_ne hname]

theorem lookup_put (name other : String) (e : Entry) (entries : List (String × Entry)) :
    (put name e entries).lookup other = if other = name then some e else entries.lookup other := by
  induction entries with
  | nil => exact lookup_cons other name e []
  | cons first rest ih =>
    obtain ⟨key, f⟩ := first
    unfold put
    by_cases hkey : key = name
    · rw [if_pos hkey, lookup_cons, lookup_cons, hkey]
      split <;> rfl
    · rw [if_neg hkey, lookup_cons, lookup_cons, ih]
      by_cases hother : other = key
      · rw [if_pos hother, if_pos hother, if_neg (hother ▸ hkey)]
      · rw [if_neg hother, if_neg hother]

/-- Nothing stands below the entry. -/
def IsLeaf (e : Entry) : Prop := ∀ name names, e.occupant (name :: names) = .nothing

theorem isLeaf_file (octets : List UInt8) : (file octets).IsLeaf := fun _ _ => rfl

theorem isLeaf_directory : (directory []).IsLeaf := fun _ _ => rfl

/-- A leaf that is put into a directory, but not in place of a directory, changes one
    location. -/
theorem occupant_set {e root : Entry} {directory : Location} {name : String} (hleaf : e.IsLeaf)
    (hdirectory : root.occupant directory = .directory)
    (hplace : root.occupant (directory ++ [name]) ≠ .directory) (location : Location) :
    (set e (directory ++ [name]) root).occupant location =
      if location = directory ++ [name] then .ofEntry e else root.occupant location := by
  induction directory generalizing root location with
  | nil =>
    obtain ⟨entries, hroot⟩ := get?_of_occupant hdirectory
    obtain rfl : root = .directory entries := by cases root <;> exact Option.some.inj hroot
    change (Entry.directory (put name _ entries)).occupant location = _
    cases location with
    | nil => rfl
    | cons other names =>
      rw [occupant_directory_cons, occupant_directory_cons, lookup_put]
      by_cases hother : other = name
      · subst hother
        rw [if_pos rfl]
        cases names with
        | nil => exact (occupant_nil e).trans (if_pos rfl).symm
        | cons next names =>
          -- What was there before was no directory, so that nothing stood below it.
          have hbelow := occupant_below hplace next names
          rw [List.nil_append, List.singleton_append, occupant_directory_cons] at hbelow
          rw [if_neg (by simp), hbelow]
          exact hleaf next names
      · rw [if_neg hother, if_neg (by simp [hother])]
  | cons first rest ih =>
    cases root with
    | file octets => cases hdirectory
    | directory entries =>
      rw [List.cons_append, occupant_directory_cons] at hplace
      rw [occupant_directory_cons] at hdirectory
      cases hlookup : entries.lookup first with
      | none => rw [hlookup] at hdirectory; cases hdirectory
      | some child =>
        rw [hlookup] at hdirectory hplace
        rw [List.cons_append, set, hlookup, Option.getD_some]
        cases location with
        | nil => rfl
        | cons other names =>
          rw [occupant_directory_cons, occupant_directory_cons, lookup_put]
          by_cases hother : other = first
          · subst hother
            rw [if_pos rfl, hlookup, Option.elim_some, Option.elim_some,
              ih hdirectory hplace names]
            simp
          · rw [if_neg hother, if_neg (by simp [hother])]

end Entry

-- ---------------------------------------------------------------------------
-- Following a path
-- ---------------------------------------------------------------------------

namespace Workspace

variable {w w' : Workspace} {p : Path}

def occupant (w : Workspace) (location : Location) : Occupant := w.root.occupant location

/-- The octets of the file at a location. -/
def octetsAt? (w : Workspace) (location : Location) : Option (List UInt8) :=
  (w.occupant location).octets?

/-- One step of a path depends only on what stands where. -/
theorem enter_eq (w : Workspace) (location : Location) (part : String) :
    w.enter location part =
      match w.occupant location with
      | .nothing => .error .notFound
      | .file _ => .error .notDirectory
      | .directory =>
        if part = ".." then .ok location.dropLast
        else if maxNameSize < part.utf8ByteSize then .error .tooLong
        else if w.occupant (location ++ [part]) = .nothing then .error .notFound
        else .ok (location ++ [part]) := by
  unfold enter
  cases hget : w.root.get? location with
  | none => rw [occupant, Entry.occupant, hget]; rfl
  | some e =>
    have hhere : w.occupant location = .ofEntry e := by rw [occupant, Entry.occupant, hget]; rfl
    have hnext : w.occupant (location ++ [part]) = e.occupant [part] := by
      rw [occupant, Entry.occupant, Entry.get?_append, hget]
      rfl
    rw [hhere, hnext]
    cases e with
    | file octets => rfl
    | directory entries =>
      have hmissing : (Entry.directory entries).occupant [part] = .nothing ↔
          ¬ (entries.lookup part).isSome = true := by
        rw [Entry.occupant_directory_cons]
        cases entries.lookup part with
        | none => simp
        | some child => simp [Entry.occupant_nil, Occupant.ofEntry_ne_nothing]
      simp only [hmissing, ite_not]
      rfl

theorem enter_eq_ok_iff {location next : Location} {part : String} :
    w.enter location part = .ok next ↔
      w.occupant location = .directory ∧
        (part = ".." ∧ next = location.dropLast ∨
          part ≠ ".." ∧ part.utf8ByteSize ≤ maxNameSize ∧
            w.occupant (location ++ [part]) ≠ .nothing ∧ next = location ++ [part]) := by
  rw [enter_eq]
  cases w.occupant location with
  | nothing => simp
  | file octets => simp
  | directory =>
    dsimp only
    split
    · next hpart => simp [hpart, eq_comm]
    · next hpart =>
      split
      · next hsize => simp [hpart, hsize, Nat.not_le.2]
      · next hsize =>
        split
        · next hnothing => simp [hpart, hnothing]
        · next hsome => simp [hpart, Nat.not_lt.1 hsize, hsome, eq_comm]

theorem enter_eq_notFound {location : Location} {part : String}
    (hdirectory : w.occupant location = .directory)
    (h : w.enter location part = .error .notFound) :
    part ≠ ".." ∧ part.utf8ByteSize ≤ maxNameSize ∧
      w.occupant (location ++ [part]) = .nothing := by
  rw [enter_eq, hdirectory] at h
  dsimp only at h
  split at h
  · cases h
  · next hpart =>
    split at h
    · cases h
    · next hsize =>
      split at h
      · next hnothing => exact ⟨hpart, Nat.not_lt.1 hsize, hnothing⟩
      · cases h

theorem resolve_eq_ok_iff {location : Location} :
    w.resolve p = .ok location ↔
      p.obstacle? = none ∧ p.parts.foldlM w.enter (w.origin p) = .ok location := by
  unfold resolve
  cases p.obstacle? with
  | none => simp
  | some kind => simp

theorem parts_eq (h : p.parts ≠ []) : p.parts = p.parent.parts ++ [p.name] := by
  rw [Path.name, List.getLast?_eq_some_getLast h, Option.getD_some]
  exact (List.dropLast_concat_getLast h).symm

/-- A path goes one step further than the path without its last part. -/
theorem resolve_of_parent {directory : Location} (hparts : p.parts ≠ []) (hp : p.obstacle? = none)
    (h : w.resolve p.parent = .ok directory) : w.resolve p = w.enter directory p.name := by
  obtain ⟨-, hfold⟩ := resolve_eq_ok_iff.1 h
  have horigin : w.origin p = w.origin p.parent := rfl
  unfold resolve
  rw [hp]
  dsimp only
  rw [horigin, parts_eq hparts, List.foldlM_append, hfold]
  change w.enter directory p.name >>= pure = _
  exact bind_pure _

theorem entry_eq_ok {e : Entry} (h : w.entry p = .ok e) :
    ∃ location, w.resolve p = .ok location ∧ w.occupant location = .ofEntry e := by
  unfold entry at h
  split at h
  · cases h
  · next location hresolve =>
    split at h <;> cases h
    next hget =>
    refine ⟨location, hresolve, ?_⟩
    rw [occupant, Entry.occupant, hget, Option.elim_some]

theorem isDirectory_eq_true_iff :
    w.isDirectory p = .ok true ↔
      ∃ location, w.resolve p = .ok location ∧ w.occupant location = .directory := by
  unfold isDirectory ask
  constructor
  · intro h
    cases hentry : w.entry p with
    | error kind => rw [hentry] at h; cases kind <;> cases h
    | ok e =>
      rw [hentry] at h
      obtain ⟨location, hresolve, hoccupant⟩ := entry_eq_ok hentry
      cases e with
      | file octets => cases h
      | directory entries => exact ⟨location, hresolve, hoccupant⟩
  · rintro ⟨location, hresolve, hoccupant⟩
    obtain ⟨entries, hget⟩ := Entry.get?_of_occupant hoccupant
    have hentry : w.entry p = .ok (.directory entries) := by
      unfold entry
      rw [hresolve]
      dsimp only
      rw [hget]
    rw [hentry]
    rfl

-- ---------------------------------------------------------------------------
-- Changes
-- ---------------------------------------------------------------------------

/-- What `w` has is also in `w'`, and its directories are directories there. -/
structure Extends (w w' : Workspace) : Prop where
  current : w'.current = w.current
  directory : ∀ location, w.occupant location = .directory → w'.occupant location = .directory
  occupied : ∀ location, w.occupant location ≠ .nothing → w'.occupant location ≠ .nothing

theorem Extends.enter (h : Extends w w') {location next : Location} {part : String}
    (henter : w.enter location part = .ok next) : w'.enter location part = .ok next := by
  obtain ⟨hdirectory, hstep⟩ := enter_eq_ok_iff.1 henter
  refine enter_eq_ok_iff.2 ⟨h.directory _ hdirectory, hstep.imp_right ?_⟩
  rintro ⟨hpart, hsize, hoccupied, hnext⟩
  exact ⟨hpart, hsize, h.occupied _ hoccupied, hnext⟩

theorem Extends.enterAll (h : Extends w w') {location next : Location} {parts : List String}
    (hfold : parts.foldlM w.enter location = .ok next) :
    parts.foldlM w'.enter location = .ok next := by
  induction parts generalizing location with
  | nil => exact hfold
  | cons part parts ih =>
    rw [List.foldlM_cons] at hfold ⊢
    cases henter : w.enter location part with
    | error kind => rw [henter] at hfold; cases hfold
    | ok middle =>
      rw [henter] at hfold
      rw [h.enter henter]
      exact ih hfold

/-- Paths lead where they led before. -/
theorem Extends.resolve (h : Extends w w') {location : Location}
    (hresolve : w.resolve p = .ok location) : w'.resolve p = .ok location := by
  obtain ⟨hp, hfold⟩ := resolve_eq_ok_iff.1 hresolve
  have horigin : w'.origin p = w.origin p := by unfold origin; rw [h.current]
  exact resolve_eq_ok_iff.2 ⟨hp, horigin ▸ h.enterAll hfold⟩

theorem Extends.isDirectory (h : Extends w w') (hp : w.isDirectory p = .ok true) :
    w'.isDirectory p = .ok true := by
  obtain ⟨location, hresolve, hoccupant⟩ := isDirectory_eq_true_iff.1 hp
  exact isDirectory_eq_true_iff.2 ⟨location, h.resolve hresolve, h.directory _ hoccupant⟩

/-- `w'` differs from `w` in what stands at one location, and no directory is replaced. -/
structure Puts (w : Workspace) (location : Location) (new : Occupant) (w' : Workspace) : Prop where
  current : w'.current = w.current
  occupant : w'.occupant = Function.update w.occupant location new
  present : new ≠ .nothing
  place : w.occupant location ≠ .directory

section Puts

variable {location : Location} {new : Occupant}

theorem Puts.extends (h : Puts w location new w') : Extends w w' where
  current := h.current
  directory other hother := by
    have hne : other ≠ location := fun heq => h.place (heq ▸ hother)
    rw [h.occupant, Function.update_of_ne hne, hother]
  occupied other hother := by
    rw [h.occupant]
    by_cases heq : other = location
    · rw [heq, Function.update_self]
      exact h.present
    · rwa [Function.update_of_ne heq]

theorem Puts.octetsAt? (h : Puts w location new w') :
    w'.octetsAt? = Function.update w.octetsAt? location new.octets? := by
  change Occupant.octets? ∘ w'.occupant = Function.update (Occupant.octets? ∘ w.occupant) _ _
  rw [h.occupant, Function.comp_update]

/-- Of two changes at one location the second one counts. -/
theorem Puts.trans {w'' : Workspace} {newer : Occupant} (h : Puts w location new w')
    (h' : Puts w' location newer w'') : Puts w location newer w'' where
  current := h'.current.trans h.current
  occupant := by rw [h'.occupant, h.occupant, Function.update_idem]
  present := h'.present
  place := h.place

theorem set_puts {e : Entry} {directory : Location} {name : String} (hleaf : e.IsLeaf)
    (hdirectory : w.occupant directory = .directory)
    (hplace : w.occupant (directory ++ [name]) ≠ .directory) :
    Puts w (directory ++ [name]) (.ofEntry e) (w.set (directory ++ [name]) e) where
  current := rfl
  occupant := by
    funext other
    rw [Function.update_apply]
    exact Entry.occupant_set hleaf hdirectory hplace other
  present := Occupant.ofEntry_ne_nothing e
  place := hplace

end Puts

theorem obstacle?_of_notFound (h : w.resolve p = .error .notFound) : p.obstacle? = none := by
  unfold resolve at h
  split at h
  · next kind hobstacle =>
    cases h
    unfold Path.obstacle? at hobstacle
    split at hobstacle
    · cases hobstacle
    · split at hobstacle <;> cases hobstacle
  · assumption

theorem parent_of_parts (h : p.parts = []) : p.parent = p := by
  obtain ⟨root, parts⟩ := p
  subst h
  rfl

/-- A free place is in a directory, and the path lacks only its last step. -/
theorem place_eq_free {location : Location} (h : w.place p = .ok (.free location)) :
    ∃ directory, w.resolve p.parent = .ok directory ∧ w.occupant directory = .directory ∧
      location = directory ++ [p.name] ∧ w.resolve p = .error .notFound := by
  unfold Workspace.place at h
  cases hresolve : w.resolve p with
  | ok taken => rw [hresolve] at h; cases h
  | error kind =>
    rw [hresolve] at h
    dsimp only at h
    split at h
    · next entries hentry =>
      obtain ⟨directory, hparent, hdirectory⟩ := entry_eq_ok hentry
      rw [hparent] at h
      cases h
      exact ⟨directory, hparent, hdirectory, rfl, rfl⟩
    · cases h

/-- A leaf at the free place that a path leads to can be reached by the path. -/
theorem puts_free {location : Location} {e : Entry} (hleaf : e.IsLeaf)
    (h : w.place p = .ok (.free location)) :
    w.occupant location = .nothing ∧ Puts w location (.ofEntry e) (w.set location e) ∧
      (w.set location e).resolve p = .ok location := by
  obtain ⟨directory, hparent, hdirectory, rfl, hresolve⟩ := place_eq_free h
  have hparts : p.parts ≠ [] := by
    intro hparts
    rw [parent_of_parts hparts, hresolve] at hparent
    cases hparent
  have hp := obstacle?_of_notFound hresolve
  rw [resolve_of_parent hparts hp hparent] at hresolve
  obtain ⟨hname, hsize, hnothing⟩ := enter_eq_notFound hdirectory hresolve
  have hplace : w.occupant (directory ++ [p.name]) ≠ .directory := by rw [hnothing]; nofun
  have hputs := set_puts hleaf hdirectory hplace
  refine ⟨hnothing, hputs, ?_⟩
  rw [resolve_of_parent hparts hp (hputs.extends.resolve hparent)]
  refine enter_eq_ok_iff.2 ⟨hputs.extends.directory _ hdirectory, .inr ⟨hname, hsize, ?_, rfl⟩⟩
  rw [hputs.occupant, Function.update_self]
  exact hputs.present

theorem resolve_of_taken {location : Location} (h : w.place p = .ok (.taken location)) :
    w.resolve p = .ok location := by
  unfold Workspace.place at h
  cases hresolve : w.resolve p with
  | ok taken =>
    rw [hresolve] at h
    cases h
    rfl
  | error kind =>
    rw [hresolve] at h
    dsimp only at h
    split at h
    · split at h <;> cases h
    · cases h

/-- A path to a file leads to the leaf that takes its place. -/
theorem puts_taken {location : Location} {e : Entry} (hleaf : e.IsLeaf)
    (hparent : w.isDirectory p.parent = .ok true) (h : w.resolve p = .ok location)
    (hplace : w.occupant location ≠ .directory) :
    Puts w location (.ofEntry e) (w.set location e) ∧
      (w.set location e).resolve p = .ok location := by
  obtain ⟨directory, hdirectory, hoccupant⟩ := isDirectory_eq_true_iff.1 hparent
  have hparts : p.parts ≠ [] := by
    intro hparts
    rw [parent_of_parts hparts, h] at hdirectory
    cases hdirectory
    exact hplace hoccupant
  have hlast := h
  rw [resolve_of_parent hparts (resolve_eq_ok_iff.1 h).1 hdirectory] at hlast
  rcases (enter_eq_ok_iff.1 hlast).2 with ⟨-, rfl⟩ | ⟨-, -, -, rfl⟩
  · exact absurd (Entry.occupant_dropLast hoccupant) hplace
  · have hputs := set_puts (w := w) hleaf hoccupant hplace
    exact ⟨hputs, hputs.extends.resolve h⟩

-- ---------------------------------------------------------------------------
-- Operations
-- ---------------------------------------------------------------------------

theorem makeDirectory_puts (h : w.makeDirectory p = .ok w') :
    ∃ location, w.occupant location = .nothing ∧ Puts w location .directory w' ∧
      w'.resolve p = .ok location := by
  unfold makeDirectory at h
  split at h <;> cases h
  next location hplace => exact ⟨location, puts_free Entry.isLeaf_directory hplace⟩

/-- A directory is there, and the files are as before. -/
structure Readies (w : Workspace) (p : Path) (w' : Workspace) : Prop where
  files : w'.octetsAt? = w.octetsAt?
  isDirectory : w'.isDirectory p = .ok true

theorem readies_of_makeDirectory (h : w.makeDirectory p = .ok w') : Readies w p w' := by
  obtain ⟨location, hnothing, hputs, hresolve⟩ := makeDirectory_puts h
  constructor
  · have hnone : none = w.octetsAt? location := by rw [octetsAt?, hnothing]; rfl
    rw [hputs.octetsAt?]
    exact Function.update_eq_self_iff.2 hnone
  · refine isDirectory_eq_true_iff.2 ⟨location, hresolve, ?_⟩
    rw [hputs.occupant, Function.update_self]

theorem readies_of_unlessDirectory {kind : FailureKind}
    (h : w.unlessDirectory p kind = .ok ()) : Readies w p w := by
  unfold unlessDirectory at h
  split at h <;> cases h
  next hdirectory => exact ⟨rfl, hdirectory⟩

theorem readies_of_ensureDirectory (h : w.ensureDirectory p = .ok w') : Readies w p w' := by
  unfold ensureDirectory at h
  split at h
  · next hmake =>
    cases h
    exact readies_of_makeDirectory hmake
  · next kind hmake =>
    cases hunless : w.unlessDirectory p kind with
    | error failure => rw [hunless] at h; cases h
    | ok =>
      rw [hunless] at h
      cases h
      exact readies_of_unlessDirectory hunless

/-- Making directories changes no file, and unless it fails the directory is there. -/
theorem makeDirectories_readies (w : Workspace) (p : Path) :
    (w.makeDirectories p).2.octetsAt? = w.octetsAt? ∧
      ((w.makeDirectories p).1 = .ok () → Readies w p (w.makeDirectories p).2) := by
  fun_induction makeDirectories w p with
  | case1 p w' hmake =>
    have hready := readies_of_makeDirectory hmake
    exact ⟨hready.files, fun _ => hready⟩
  | case2 p hmake hparts => exact ⟨rfl, nofun⟩
  | case3 p hmake hparts failure w' hrest ih =>
    rw [hrest] at ih
    exact ⟨ih.1, nofun⟩
  | case4 p hmake hparts w' hrest w'' hensure ih =>
    -- The directories above are there, and files are as before in both steps.
    rw [hrest] at ih
    have hready := readies_of_ensureDirectory hensure
    have hfiles : w''.octetsAt? = w.octetsAt? := hready.files.trans ih.1
    exact ⟨hfiles, fun _ => ⟨hfiles, hready.isDirectory⟩⟩
  | case5 p hmake hparts w' hrest failure hensure ih =>
    rw [hrest] at ih
    exact ⟨ih.1, nofun⟩
  | case6 p kind hkind hmake => exact ⟨rfl, readies_of_unlessDirectory⟩

/-- Opening a file changes this file only, and the path leads to it. -/
theorem openEmpty_puts {location : Location} (hparent : w.isDirectory p.parent = .ok true)
    (h : w.openEmpty p = .ok (location, w')) :
    Puts w location (.file []) w' ∧ w'.resolve p = .ok location := by
  unfold openEmpty at h
  split at h
  · cases h
  · next hplace =>
    cases h
    exact (puts_free (Entry.isLeaf_file []) hplace).2
  · next hplace =>
    split at h
    · cases h
    · next hfile =>
      cases h
      refine puts_taken (Entry.isLeaf_file []) hparent (resolve_of_taken hplace) ?_
      intro hoccupant
      obtain ⟨entries, hget⟩ := Entry.get?_of_occupant hoccupant
      exact hfile entries hget

/-- Opening a file and writing to it changes this file only. -/
theorem fill_puts {location : Location} (hparent : w.isDirectory p.parent = .ok true)
    (h : w.openEmpty p = .ok (location, w')) (octets : List UInt8) :
    Puts w location (.file octets) (w'.fill location octets) ∧
      (w'.fill location octets).resolve p = .ok location := by
  obtain ⟨hopen, hresolve⟩ := openEmpty_puts hparent h
  have hempty : w'.occupant location ≠ .directory := by
    rw [hopen.occupant, Function.update_self]
    nofun
  obtain ⟨hfill, hfilled⟩ := puts_taken (Entry.isLeaf_file octets)
    (hopen.extends.isDirectory hparent) hresolve hempty
  exact ⟨hopen.trans hfill, hfilled⟩

end Workspace

end ApiStubs.Files
