-- SUMMARY: What loading a directory of templates tries, in order, and what it sees of the files.
import ApiStubs.Loading
import Mathlib.Data.List.Sort

/-!
# Loading a directory

Loading the templates of a directory makes a list of attempts: one for each template
file in the order of their names, or a single one that fails if the directory cannot be
listed. `value_loadTemplates` says that loading settles them, with the first error or
with all templates.

The attempts depend on little. `Files.SameTemplates` says when two workspaces agree on
it, and `attempts_congr` that they then make the same attempts.
-/

namespace ApiStubs

open Files Text

-- ---------------------------------------------------------------------------
-- Values of loadings
-- ---------------------------------------------------------------------------

namespace Loading

variable {α β : Type}

/-- The value or the error of a loading, without its log. -/
def value (x : Loading α) : Except LoadError α := (ExceptT.run x).value

theorem value_bind (x : Loading α) (f : α → Loading β) :
    value (x >>= f) = value x >>= fun a => value (f a) := by
  change (ExceptT.run (x >>= f)).value = _
  rw [ExceptT.run_bind, Logged.value_bind]
  cases hx : (ExceptT.run x).value with
  | ok a =>
    have hvalue : value x = .ok a := hx
    rw [hvalue]
    rfl
  | error e =>
    have hvalue : value x = .error e := hx
    rw [hvalue]
    rfl

theorem value_map (f : α → β) (x : Loading α) : value (f <$> x) = (value x).map f := by
  rw [map_eq_pure_bind, value_bind]
  cases value x with
  | ok a => rfl
  | error e => rfl

end Loading

-- ---------------------------------------------------------------------------
-- Attempts
-- ---------------------------------------------------------------------------

section Attempts

variable {ε α β : Type}

/-- The first error among attempts. -/
def firstError? (attempts : List (Except ε α)) : Option ε :=
  attempts.findSome? fun
    | .error e => some e
    | .ok _ => none

/-- The values of the attempts that succeed. -/
def successes (attempts : List (Except ε α)) : List α := attempts.filterMap (·.toOption)

/-- All values, or the first error. -/
def settle (attempts : List (Except ε α)) : Except ε (List α) :=
  match firstError? attempts with
  | some e => .error e
  | none => .ok (successes attempts)

theorem settle_cons_ok (a : α) (attempts : List (Except ε α)) :
    settle (.ok a :: attempts) = (settle attempts).map (a :: ·) := by
  have hfirst : firstError? (.ok a :: attempts) = firstError? attempts := rfl
  unfold settle
  rw [hfirst]
  cases firstError? attempts with
  | none => rfl
  | some e => rfl

theorem value_mapM (f : α → Loading β) (as : List α) :
    Loading.value (as.mapM f) = settle (as.map fun a => Loading.value (f a)) := by
  induction as with
  | nil => rfl
  | cons a as ih =>
    rw [List.mapM_cons, Loading.value_bind, List.map_cons]
    cases Loading.value (f a) with
    | error e => rfl
    | ok b =>
      rw [settle_cons_ok, ← ih]
      change Loading.value (as.mapM f >>= fun bs => pure (b :: bs)) = _
      rw [Loading.value_bind]
      cases Loading.value (as.mapM f) with
      | error e => rfl
      | ok bs => rfl

end Attempts

-- ---------------------------------------------------------------------------
-- The template files of a directory
-- ---------------------------------------------------------------------------

/-- The template in the octets of a file. -/
def Template.ofOctets (path : String) (octets : List UInt8) : Except LoadError Template :=
  match Utf8.decode octets with
  | .error failure => .error (.undecodable path failure)
  | .ok text => Template.ofText path (unifyLineEnds text)

/-- The octets of a regular file in a directory. -/
def Files.Workspace.file? (w : Workspace) (directory : Path) (name : String) :
    Option (List UInt8) :=
  match w.entry (directory.child name) with
  | .ok (.file octets) => some octets
  | _ => none

/-- The error of an entry of a directory about which nothing can be asked. -/
def Files.Workspace.obstacle? (w : Workspace) (directory : Path) (name : String) :
    Option LoadError :=
  match w.isFile (directory.child name) with
  | .error failure => some (.unreachable failure)
  | .ok _ => none

/-- The regular files among some entries of a directory that are not denied, with their
    octets. -/
def templatesAmong (w : Workspace) (directory : Path) (denyList names : List String) :
    List (String × List UInt8) :=
  names.filterMap fun name =>
    if denyList.contains name then none else (w.file? directory name).map (name, ·)

/-- The template files of a directory with their octets, in the order of their names. -/
def listing (w : Workspace) (directory : Path) (denyList : List String) :
    Except LoadError (List (String × List UInt8)) :=
  match w.names directory with
  | .error failure => .error (.ofFailure failure)
  | .ok names =>
    match names.findSome? (w.obstacle? directory) with
    | some e => .error e
    | none => .ok (templatesAmong w directory denyList names)

/-- What loading the templates of a directory tries, in order. -/
def attempts (w : Workspace) (directory : Path) (denyList : List String) :
    List (Except LoadError Template) :=
  match listing w directory denyList with
  | .error e => [.error e]
  | .ok files =>
    files.map fun (name, octets) => Template.ofOctets (directory.child name).render octets

theorem name_child (directory : Path) (name : String) : (directory.child name).name = name := by
  simp [Path.child, Path.name]

theorem isFile_eq_true_iff {w : Workspace} {directory : Path} {name : String} :
    w.isFile (directory.child name) = .ok true ↔ (w.file? directory name).isSome = true := by
  unfold Workspace.isFile Workspace.ask Workspace.file?
  cases w.entry (directory.child name) with
  | ok e => cases e <;> simp [Entry.isDirectory]
  | error kind => cases kind <;> simp

theorem value_loadTemplate {w : Workspace} {directory : Path} {name : String}
    {octets : List UInt8} (h : w.file? directory name = some octets) :
    Loading.value (loadTemplate w (directory.child name)) =
      Template.ofOctets (directory.child name).render octets := by
  have hread : w.read (directory.child name) = .ok octets := by
    unfold Workspace.file? at h
    unfold Workspace.read
    split at h <;> cases h
    next hentry => rw [hentry]
  unfold loadTemplate Template.ofOctets
  rw [hread]
  dsimp only
  cases Utf8.decode octets with
  | error failure => rfl
  | ok text => rfl

/-- Of some entries of a directory the regular ones that are not denied are allowed, unless
    there is one about which nothing can be asked. -/
theorem value_allowed (w : Workspace) (directory : Path) (denyList names : List String) :
    Loading.value (allowed w denyList (names.map directory.child)) =
      match names.findSome? (w.obstacle? directory) with
      | some e => .error e
      | none => .ok ((templatesAmong w directory denyList names).map (directory.child ·.1)) := by
  induction names with
  | nil => rfl
  | cons name names ih =>
    rw [List.map_cons, List.findSome?_cons]
    unfold allowed
    have hobstacle : w.obstacle? directory name = match w.isFile (directory.child name) with
      | .error failure => some (.unreachable failure)
      | .ok _ => none := rfl
    rw [hobstacle]
    cases hfile : w.isFile (directory.child name) with
    | error failure => rfl
    | ok regular =>
      cases regular with
      | false =>
        have hnone : w.file? directory name = none := by
          cases hsome : w.file? directory name with
          | none => rfl
          | some octets =>
            have htrue := isFile_eq_true_iff.2 (Option.isSome_of_eq_some hsome)
            rw [hfile] at htrue
            cases htrue
        have hskip : templatesAmong w directory denyList (name :: names) =
            templatesAmong w directory denyList names := by
          simp [templatesAmong, hnone]
        rw [hskip]
        exact ih
      | true =>
        obtain ⟨octets, hoctets⟩ := Option.isSome_iff_exists.1 (isFile_eq_true_iff.1 hfile)
        dsimp only
        rw [name_child]
        split
        · next hdeny =>
          have hskip : templatesAmong w directory denyList (name :: names) =
              templatesAmong w directory denyList names := by
            simp only [templatesAmong, List.filterMap_cons, if_pos hdeny]
          rw [hskip, Loading.value_bind]
          exact ih
        · next hdeny =>
          have hkeep : templatesAmong w directory denyList (name :: names) =
              (name, octets) :: templatesAmong w directory denyList names := by
            simp only [templatesAmong, List.filterMap_cons, if_neg hdeny, hoctets,
              Option.map_some]
          rw [hkeep, Loading.value_bind, ih]
          cases names.findSome? (w.obstacle? directory) with
          | some e => rfl
          | none => rfl

theorem mem_templatesAmong {w : Workspace} {directory : Path}
    {denyList names : List String} {file : String × List UInt8} :
    file ∈ templatesAmong w directory denyList names ↔
      file.1 ∈ names ∧ file.1 ∉ denyList ∧ w.file? directory file.1 = some file.2 := by
  obtain ⟨name, octets⟩ := file
  simp only [templatesAmong, List.mem_filterMap, List.contains_eq_mem, decide_eq_true_eq,
    Option.ite_none_left_eq_some, Option.map_eq_some_iff, Prod.mk.injEq]
  constructor
  · rintro ⟨_, hname, hdeny, _, hfile, rfl, rfl⟩
    exact ⟨hname, hdeny, hfile⟩
  · rintro ⟨hname, hdeny, hfile⟩
    exact ⟨name, hname, hdeny, octets, hfile, rfl, rfl⟩

/-- Loading the templates of a directory settles its attempts. -/
theorem value_loadTemplates (w : Workspace) (directory : Path) (denyList : List String) :
    Loading.value (loadTemplates w directory denyList) =
      settle (attempts w directory denyList) := by
  unfold loadTemplates templateFiles attempts listing
  rw [Loading.value_bind]
  cases w.names directory with
  | error failure => rfl
  | ok names =>
    dsimp only
    rw [value_allowed]
    cases names.findSome? (w.obstacle? directory) with
    | some e => rfl
    | none =>
      change Loading.value (List.mapM _ _) = _
      rw [value_mapM, List.map_map]
      refine congrArg settle (List.map_congr_left fun file hfile => ?_)
      exact value_loadTemplate (mem_templatesAmong.1 hfile).2.2

-- ---------------------------------------------------------------------------
-- What loading sees
-- ---------------------------------------------------------------------------

theorem nodup_eraseDups (names : List String) : names.eraseDups.Nodup := by
  match names with
  | [] => exact .nil
  | name :: names =>
    rw [List.eraseDups_cons, List.nodup_cons]
    refine ⟨fun hmem => ?_, nodup_eraseDups _⟩
    simp [List.mem_eraseDups] at hmem
termination_by names.length
decreasing_by
  have := List.length_filter_le (fun other => !other == name) names
  simp only [List.length_cons]
  omega

/-- The names in a directory are in order, and none is there twice. -/
theorem pairwise_names {w : Workspace} {directory : Path} {names : List String}
    (h : w.names directory = .ok names) : names.Pairwise (· < ·) := by
  unfold Workspace.names at h
  split at h <;> cases h
  next list _ =>
  have hle (a b : String) : (!decide (b < a)) = true ↔ a ≤ b := by
    rw [Bool.not_eq_true', decide_eq_false_iff_not, String.not_lt]
  have htrans (a b c : String) (hab : (!decide (b < a)) = true) (hbc : (!decide (c < b)) = true) :
      (!decide (c < a)) = true :=
    (hle a c).2 (String.le_trans ((hle a b).1 hab) ((hle b c).1 hbc))
  have htotal (a b : String) : (!decide (b < a) || !decide (a < b)) = true := by
    rw [Bool.or_eq_true, hle, hle]
    exact String.le_total a b
  have hsorted := List.pairwise_mergeSort htrans htotal (list.map (·.1)).eraseDups
  have hnodup := (List.mergeSort_perm _ fun a b : String => !decide (b < a)).nodup_iff.2
    (nodup_eraseDups (list.map (·.1)))
  refine (hsorted.and hnodup).imp fun {a b} ⟨hab, hne⟩ => ?_
  exact Classical.byContradiction fun hlt =>
    hne (String.le_antisymm ((hle a b).1 hab) (String.not_lt.1 hlt))

theorem pairwise_templatesAmong {w : Workspace} {directory : Path} {denyList names : List String}
    (h : names.Pairwise (· < ·)) :
    (templatesAmong w directory denyList names).Pairwise (·.1 < ·.1) := by
  refine List.pairwise_filterMap.2 (h.imp fun {name other} hlt file hfile file' hfile' => ?_)
  obtain ⟨-, octets, -, rfl⟩ := by
    simpa only [Option.ite_none_left_eq_some, Option.map_eq_some_iff] using hfile
  obtain ⟨-, octets', -, rfl⟩ := by
    simpa only [Option.ite_none_left_eq_some, Option.map_eq_some_iff] using hfile'
  exact hlt

section Sight

variable (w w' : Workspace) (directory : Path)

/-- The names of the entries of a directory, in any order. -/
def Files.Workspace.listed? : Option (List String) :=
  match w.entry directory with
  | .ok (.directory entries) => some (entries.map (·.1))
  | _ => none

/-- The directory has an entry of this name. -/
def Files.Workspace.Lists (name : String) : Prop :=
  ∃ listed, w.listed? directory = some listed ∧ name ∈ listed

/-- The directory has a regular file of this name, with these octets. -/
def Files.Workspace.Holds (name : String) (octets : List UInt8) : Prop :=
  w.Lists directory name ∧ w.file? directory name = some octets

/-- The directory has an entry of this name whose path is too long to be followed. -/
def Files.Workspace.Hides (name : String) : Prop :=
  w.Lists directory name ∧ (w.obstacle? directory name).isSome = true

/-- Two workspaces agree on a directory, as far as loading templates goes. -/
structure SameTemplates (denyList : List String) : Prop where
  /-- Both open it, or both fail alike. -/
  opening : (w.names directory).map (fun _ => ()) = (w'.names directory).map (fun _ => ())
  files : ∀ name, name ∉ denyList →
    ∀ octets, w.Holds directory name octets ↔ w'.Holds directory name octets
  hidden : ∀ name, w.Hides directory name ↔ w'.Hides directory name

end Sight

theorem eq_of_obstacle? {w : Workspace} {directory : Path} {name : String} {e : LoadError}
    (h : w.obstacle? directory name = some e) :
    e = .unreachable ⟨.tooLong, directory.child name⟩ := by
  unfold Workspace.obstacle? Workspace.isFile Workspace.ask at h
  split at h
  · next failure hask =>
    cases h
    split at hask <;> cases hask
    rfl
  · cases h

/-- The first entry about which nothing can be asked decides the error. -/
theorem findSome?_obstacle? (w : Workspace) (directory : Path) (names : List String) :
    names.findSome? (w.obstacle? directory) =
      (names.filter fun name => (w.obstacle? directory name).isSome).head?.map fun name =>
        .unreachable ⟨.tooLong, directory.child name⟩ := by
  induction names with
  | nil => rfl
  | cons name names ih =>
    rw [List.findSome?_cons, List.filter_cons]
    cases hname : w.obstacle? directory name with
    | none => exact ih
    | some e =>
      rw [eq_of_obstacle? hname]
      rfl

section Congr

variable {w w' : Workspace} {directory : Path} {denyList : List String}

theorem lists_iff_mem {names : List String} (h : w.names directory = .ok names) (name : String) :
    w.Lists directory name ↔ name ∈ names := by
  unfold Workspace.Lists Workspace.listed?
  unfold Workspace.names at h
  split at h <;> cases h
  next entries hentry =>
    rw [hentry]
    simp [List.mem_mergeSort, List.mem_eraseDups]

theorem names_of_listed? {listed : List String} (h : w.listed? directory = some listed) :
    ∃ names, w.names directory = .ok names := by
  unfold Workspace.listed? at h
  unfold Workspace.names
  split at h <;> cases h
  next hentry => exact ⟨_, by rw [hentry]⟩

/-- Names in order that are those of the entries are the names in the directory. -/
theorem names_eq_ok {names listed : List String} (hlisted : w.listed? directory = some listed)
    (hperm : names.Perm listed) (hsorted : names.Pairwise (· < ·)) :
    w.names directory = .ok names := by
  obtain ⟨names', hnames'⟩ := names_of_listed? hlisted
  -- Both are in order and without repetitions, so their members decide.
  rw [hnames']
  refine congrArg Except.ok ((pairwise_names hnames').eq_of_mem_iff hsorted fun name => ?_)
  rw [← lists_iff_mem hnames', hperm.mem_iff, Workspace.Lists, hlisted]
  simp

theorem listing_eq_ok {files : List (String × List UInt8)}
    (h : listing w directory denyList = .ok files) :
    ∃ names, w.names directory = .ok names ∧ names.findSome? (w.obstacle? directory) = none ∧
      files = templatesAmong w directory denyList names := by
  unfold listing at h
  cases hnames : w.names directory with
  | error failure => rw [hnames] at h; cases h
  | ok names =>
    rw [hnames] at h
    dsimp only at h
    split at h <;> cases h
    next hnone => exact ⟨names, rfl, hnone, rfl⟩

theorem listing_of_names {names : List String} (hnames : w.names directory = .ok names)
    (hreach : names.findSome? (w.obstacle? directory) = none) :
    listing w directory denyList = .ok (templatesAmong w directory denyList names) := by
  unfold listing
  rw [hnames]
  dsimp only
  rw [hreach]

/-- The template files of a directory are in the order of their names. -/
theorem pairwise_listing {files : List (String × List UInt8)}
    (h : listing w directory denyList = .ok files) : files.Pairwise (·.1 < ·.1) := by
  obtain ⟨names, hnames, -, rfl⟩ := listing_eq_ok h
  exact pairwise_templatesAmong (pairwise_names hnames)

theorem mem_listing {files : List (String × List UInt8)}
    (h : listing w directory denyList = .ok files) (name : String) (octets : List UInt8) :
    (name, octets) ∈ files ↔ name ∉ denyList ∧ w.Holds directory name octets := by
  obtain ⟨names, hnames, -, rfl⟩ := listing_eq_ok h
  rw [mem_templatesAmong, ← lists_iff_mem hnames, Workspace.Holds]
  exact and_left_comm

theorem not_hides_of_listing {files : List (String × List UInt8)}
    (h : listing w directory denyList = .ok files) (name : String) : ¬ w.Hides directory name := by
  obtain ⟨names, hnames, hnone, -⟩ := listing_eq_ok h
  rintro ⟨hlisted, hhidden⟩
  rw [List.findSome?_eq_none_iff.1 hnone name ((lists_iff_mem hnames name).1 hlisted)] at hhidden
  cases hhidden

/-- An entry whose path is too long makes a directory impossible to list. -/
theorem listing_of_hides {name : String} (denyList : List String) (h : w.Hides directory name) :
    ∃ path, listing w directory denyList = .error (.unreachable ⟨.tooLong, path⟩) := by
  cases hlisting : listing w directory denyList with
  | ok files => exact absurd h (not_hides_of_listing hlisting name)
  | error e =>
    obtain ⟨⟨listed, hlisted, -⟩, -⟩ := h
    obtain ⟨names, hnames⟩ := names_of_listed? hlisted
    unfold listing at hlisting
    rw [hnames] at hlisting
    dsimp only at hlisting
    rw [findSome?_obstacle?] at hlisting
    split at hlisting <;> cases hlisting
    next hfirst =>
      obtain ⟨first, -, rfl⟩ := Option.map_eq_some_iff.1 hfirst
      exact ⟨_, rfl⟩

/-- Two workspaces agree on a directory if they list the same template files. -/
theorem SameTemplates.of_listing {files : List (String × List UInt8)}
    (h : listing w directory denyList = .ok files)
    (h' : listing w' directory denyList = .ok files) : SameTemplates w w' directory denyList where
  opening := by
    obtain ⟨names, hnames, -, -⟩ := listing_eq_ok h
    obtain ⟨names', hnames', -, -⟩ := listing_eq_ok h'
    rw [hnames, hnames']
    rfl
  files name hdeny octets := by
    have hmem := mem_listing h name octets
    have hmem' := mem_listing h' name octets
    rw [and_iff_right hdeny] at hmem hmem'
    exact hmem.symm.trans hmem'
  hidden name := iff_of_false (not_hides_of_listing h name) (not_hides_of_listing h' name)

/-- What is not a template file of a directory has no part in its listing. -/
theorem listing_congr (h : SameTemplates w w' directory denyList) :
    listing w directory denyList = listing w' directory denyList := by
  have hopening := h.opening
  unfold listing
  cases hnames : w.names directory with
  | error failure =>
    rw [hnames] at hopening
    cases hnames' : w'.names directory with
    | error failure' =>
      rw [hnames'] at hopening
      cases hopening
      rfl
    | ok names' =>
      rw [hnames'] at hopening
      cases hopening
  | ok names =>
    rw [hnames] at hopening
    cases hnames' : w'.names directory with
    | error failure' =>
      rw [hnames'] at hopening
      cases hopening
    | ok names' =>
      have hlists := lists_iff_mem hnames
      have hlists' := lists_iff_mem hnames'
      -- Both sides are in the order of names, so it is enough that they have the same members.
      have hhidden : (names.filter fun name => (w.obstacle? directory name).isSome) =
          names'.filter fun name => (w'.obstacle? directory name).isSome := by
        refine ((pairwise_names hnames).filter _).eq_of_mem_iff
          ((pairwise_names hnames').filter _) ?_
        intro name
        rw [List.mem_filter, List.mem_filter, ← hlists, ← hlists']
        exact h.hidden name
      have hfiles : templatesAmong w directory denyList names =
          templatesAmong w' directory denyList names' := by
        have : Std.Irrefl fun file other : String × List UInt8 => file.1 < other.1 :=
          ⟨fun file => String.lt_irrefl file.1⟩
        have : Std.Antisymm fun file other : String × List UInt8 => file.1 < other.1 :=
          ⟨fun file other hlt hgt => absurd hgt (String.lt_asymm hlt)⟩
        refine (pairwise_templatesAmong (pairwise_names hnames)).eq_of_mem_iff
          (pairwise_templatesAmong (pairwise_names hnames')) ?_
        intro file
        rw [mem_templatesAmong, mem_templatesAmong, ← hlists, ← hlists']
        constructor
        · rintro ⟨hlisted, hdeny, hfile⟩
          obtain ⟨hlisted', hfile'⟩ := (h.files _ hdeny _).1 ⟨hlisted, hfile⟩
          exact ⟨hlisted', hdeny, hfile'⟩
        · rintro ⟨hlisted, hdeny, hfile⟩
          obtain ⟨hlisted', hfile'⟩ := (h.files _ hdeny _).2 ⟨hlisted, hfile⟩
          exact ⟨hlisted', hdeny, hfile'⟩
      dsimp only
      rw [findSome?_obstacle?, findSome?_obstacle?, hhidden, hfiles]

theorem attempts_congr (h : SameTemplates w w' directory denyList) :
    attempts w directory denyList = attempts w' directory denyList := by
  unfold attempts
  rw [listing_congr h]

/-- A path leads to a directory exactly if its entries can be named. -/
theorem isDirectory_eq (w : Workspace) (p : Path) :
    w.isDirectory p =
      match (w.names p).map (fun _ => ()) with
      | .ok () => .ok true
      | .error failure => if failure.kind = .tooLong then .error failure else .ok false := by
  unfold Workspace.isDirectory Workspace.ask Workspace.names
  cases w.entry p with
  | ok e => cases e <;> rfl
  | error kind => cases kind <;> rfl

theorem isDirectory_congr (h : SameTemplates w w' directory denyList) :
    w.isDirectory directory = w'.isDirectory directory := by
  rw [isDirectory_eq, isDirectory_eq, h.opening]

end Congr

end ApiStubs
