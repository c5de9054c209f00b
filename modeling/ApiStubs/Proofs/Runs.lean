-- SUMMARY: A run of the command line writes one file or none.
import ApiStubs.Command.Run
import ApiStubs.Proofs.Loading
import ApiStubs.Proofs.TextSettings
import ApiStubs.Proofs.Writing

/-!
# Runs and files

`files_of_run` says what a run does to the files of a tree. One that succeeds shows the client,
or writes it to the file that the last output option names and to no other one. One that does
not succeed changes no file, whatever stops it and however far it gets: directories may be new,
but a file is opened and written by the last steps only.

There is one exception. Between these two steps the client is encoded, which fails if it is no
text. Then the file has been opened and is empty. Only variables that are no text lead there.
-/

namespace ApiStubs.Command

open Files Text

-- ---------------------------------------------------------------------------
-- The output option
-- ---------------------------------------------------------------------------

def Request.path? : Request → Option String
  | .output path => some path
  | .help => none
  | .verbose => none

def Token.operand? : Token → Option String
  | .operand text => some text
  | _ => none

/-- The values of output options in one argument. `next` is the operand after it. -/
def Token.outputs (token : Token) (next : Option String) : List String :=
  match token.requests? with
  | some (.ok requests) =>
    requests.given.filterMap Request.path? ++ if requests.valueMissing then next.toList else []
  | _ => []

/-- The values of all output options, in order. -/
def outputValues : List Token → List String
  | [] => []
  | token :: rest => token.outputs (rest.head?.bind Token.operand?) ++ outputValues rest

/-- The output after some values, the last of which counts. -/
def Output.last (start : Output) (values : List String) : Output :=
  (values.getLast?.map Output.ofValue).getD start

theorem Output.ofValue_ne_standard (value : String) : Output.ofValue value ≠ .standard := by
  unfold Output.ofValue
  split <;> nofun

theorem Output.eq_of_ofValue {value : String} {path : Path}
    (h : Output.ofValue value = .file path) : path = .parse value := by
  unfold Output.ofValue at h
  split at h <;> cases h
  rfl

theorem Output.last_append (start : Output) (front back : List String) :
    start.last (front ++ back) = (start.last front).last back := by
  unfold Output.last
  rw [List.getLast?_append]
  cases back.getLast? with
  | none => rfl
  | some value => rfl

namespace Progress

variable {p p' : Progress}

theorem output_takeOperand (p : Progress) (text : String) :
    (p.takeOperand text).output = p.output := by
  unfold takeOperand
  cases p.directories <;> rfl

theorem output_takeSeparator (p : Progress) : p.takeSeparator.output = p.output := by
  unfold takeSeparator
  split <;> rfl

theorem output_closeRun (p : Progress) : p.closeRun.output = p.output := by
  unfold closeRun
  cases p.directories <;> rfl

theorem output_grant {requests : List Request} (h : p.grant requests = .ok p') :
    p'.output = p.output.last (requests.filterMap Request.path?) := by
  induction requests generalizing p with
  | nil =>
    cases h
    rfl
  | cons request rest ih =>
    cases request with
    | help => cases h
    | verbose => exact ih (p := { p with verbose := true }) h
    | output path =>
      rw [ih (p := { p with output := .ofValue path }) h]
      exact (p.output.last_append [path] _).symm

theorem output_grantAll {requests : Requests} {next : Option String} {used : Bool}
    (h : p.grantAll requests next = .ok (p', used)) :
    p'.output = p.output.last (requests.given.filterMap Request.path? ++
      if requests.valueMissing then next.toList else []) := by
  rw [← p.output_closeRun]
  unfold grantAll at h
  dsimp only at h
  split at h
  · next hmissing =>
    split at h
    · cases h
    · next path =>
      obtain ⟨q, hgrant, hq⟩ := Source.map_eq_ok_iff.1 h
      cases hq
      rw [output_grant hgrant, List.filterMap_append, if_pos hmissing]
      rfl
  · next hmissing =>
    obtain ⟨q, hgrant, hq⟩ := Source.map_eq_ok_iff.1 h
    cases hq
    rw [output_grant hgrant, if_neg hmissing, List.append_nil]

theorem output_finish {a : Arguments} (h : p.finish = .ok a) : a.output = p.output := by
  unfold finish at h
  split at h
  · cases h
  · split at h <;> cases h <;> rfl

/-- One argument sets the output to the last of its values. -/
theorem output_requests {token : Token} {next : Option String} {used : Bool}
    (h : (token.requests?.getD (.ok {})).bind (p.grantAll · next) = .ok (p', used)) :
    p'.output = p.output.last (token.outputs next) := by
  unfold Token.outputs
  cases hrequests : token.requests? with
  | none =>
    rw [hrequests] at h
    change p.grantAll {} next = _ at h
    exact output_grantAll h
  | some result =>
    rw [hrequests] at h
    cases result with
    | error refusal => cases h
    | ok requests => exact output_grantAll h

end Progress

theorem output_interpret {p : Progress} {ts : List Token} {a : Arguments}
    (h : interpret p ts = .ok a) : a.output = p.output.last (outputValues ts) := by
  fun_induction interpret p ts with
  | case1 p => exact Progress.output_finish h
  | case2 p text rest ih =>
    rw [ih h, Progress.output_takeOperand]
    rfl
  | case3 p rest ih =>
    rw [ih h, Progress.output_takeSeparator]
    rfl
  | case4 => cases h
  | case5 p token text rest _ _ q hrequests ih =>
    -- The operand is the value of the option. It gives no value of its own, so that none counts
    -- twice.
    rw [ih h, Progress.output_requests hrequests]
    exact (p.output.last_append _ _).symm
  | case6 p token text rest _ _ q hrequests ih =>
    rw [ih h, Progress.output_takeOperand, Progress.output_requests hrequests]
    exact (p.output.last_append _ _).symm
  | case7 => cases h
  | case8 p token rest _ _ hrest q used hrequests ih =>
    have hnext : rest.head?.bind Token.operand? = none := by
      cases rest with
      | nil => rfl
      | cons next rest =>
        cases next with
        | operand text => exact absurd rfl (hrest text rest)
        | _ => rfl
    rw [ih h, Progress.output_requests hrequests, outputValues, hnext, Output.last_append]

/-- The last output option decides where the client goes. -/
theorem output_parse {args : List String} {a : Arguments} (h : Arguments.parse args = .ok a) :
    a.output = Output.standard.last (outputValues (tokens args)) := by
  unfold Arguments.parse at h
  dsimp only at h
  split at h
  · cases h
  · exact output_interpret h

-- ---------------------------------------------------------------------------
-- Delivery
-- ---------------------------------------------------------------------------

section Delivery

variable {w w' : Workspace}

/-- Writing a client changes no file, or it changes the file at the path. This file is empty if
    the client is no text, and else it holds the client. -/
theorem writeOutput_cases {path : Path} {text : RawText} {result : Except Interruption Unit}
    (h : writeOutput w path text = (result, w')) :
    (∃ failure, result = .error (.file failure) ∧ w'.octetsAt? = w.octetsAt?) ∨
      ∃ location, w'.resolve path = .ok location ∧
        ((∃ failure, result = .error (.unencodable failure) ∧ failure.Covers text ∧
            w'.octetsAt? = Function.update w.octetsAt? location (some [])) ∨
          ∃ s : String, result = .ok () ∧ text = RawText.ofString s ∧
            w'.octetsAt? =
              Function.update w.octetsAt? location (some s.toUTF8.data.toList)) := by
  obtain ⟨hmade, hready⟩ := w.makeDirectories_readies path.parent
  unfold writeOutput at h
  split at h
  · next failure made hmake =>
    cases h
    rw [hmake] at hmade
    exact .inl ⟨failure, rfl, hmade⟩
  · next made hmake =>
    rw [hmake] at hmade hready
    have hparent : made.isDirectory path.parent = .ok true := (hready rfl).isDirectory
    split at h
    · next failure hopen =>
      cases h
      exact .inl ⟨failure, rfl, hmade⟩
    · next location opened hopen =>
      refine .inr ⟨location, ?_⟩
      split at h
      · next failure hencode =>
        cases h
        obtain ⟨hputs, hresolve⟩ := Workspace.openEmpty_puts hparent hopen
        refine ⟨hresolve, .inl ⟨failure, rfl, Utf8.covers_of_encode_error hencode, ?_⟩⟩
        rw [hputs.octetsAt?, hmade]
        rfl
      · next octets hencode =>
        cases h
        obtain ⟨s, htext, rfl⟩ := Utf8.exists_of_encode_ok hencode
        obtain ⟨hputs, hresolve⟩ := Workspace.fill_puts hparent hopen s.toUTF8.data.toList
        refine ⟨hresolve, .inr ⟨s, rfl, htext, ?_⟩⟩
        rw [hputs.octetsAt?, hmade]
        rfl

/-- What becomes of a client: it is shown, or it is in the file that the output names and
    nothing else is changed. If it is no text, then that file is empty. -/
inductive Delivery (w : Workspace) (text : RawText) : Output → Outcome → Workspace → Prop where
  | shown (stderr : String) : Delivery w text .standard (.finished 0 text stderr) w
  | written (path : Path) (location : Location) (s : String) (stdout : RawText) (stderr : String)
      (w' : Workspace) (htext : text = RawText.ofString s)
      (hresolve : w'.resolve path = .ok location)
      (hfiles : w'.octetsAt? = Function.update w.octetsAt? location (some s.toUTF8.data.toList)) :
      Delivery w text (.file path) (.finished 0 stdout stderr) w'
  | emptied (path : Path) (location : Location) (failure : Utf8.Unencodable) (w' : Workspace)
      (hcovers : failure.Covers text) (hresolve : w'.resolve path = .ok location)
      (hfiles : w'.octetsAt? = Function.update w.octetsAt? location (some [])) :
      Delivery w text (.file path) (.interrupted (.unencodable failure)) w'

/-- The run does not succeed, and the files are as before. -/
structure Undone (w : Workspace) (outcome : Outcome) (w' : Workspace) : Prop where
  failed : ∀ stdout stderr, outcome ≠ .finished 0 stdout stderr
  files : w'.octetsAt? = w.octetsAt?

theorem deliver_cases {output : Output} {log : String} {g : Generated RawText} {outcome : Outcome}
    (h : deliver w output log g = (outcome, w')) :
    Undone w outcome w' ∨ Delivery w g.text output outcome w' := by
  cases output with
  | standard =>
    cases h
    exact .inr (.shown log)
  | unnamed =>
    cases h
    exact .inl ⟨by simp, rfl⟩
  | file path =>
    cases hwrite : writeOutput w path g.text with
    | mk result after =>
      unfold deliver at h
      dsimp only at h
      rw [hwrite] at h
      rcases writeOutput_cases hwrite with ⟨failure, rfl, hfiles⟩ | ⟨location, hresolve, hchange⟩
      · cases h
        exact .inl ⟨by simp, hfiles⟩
      · rcases hchange with ⟨failure, rfl, hcovers, hfiles⟩ | ⟨s, rfl, htext, hfiles⟩
        · cases h
          exact .inr (.emptied path location failure _ hcovers hresolve hfiles)
        · cases h
          exact .inr (.written path location s _ log _ htext hresolve hfiles)

/-- `g` is the client of the directories that the arguments name. -/
def Generates {τ : Type} [Append τ] [Script τ] (w : Workspace) (args : List String)
    (settings : Settings τ) (g : Generated τ) : Prop :=
  ∃ a, Arguments.parse args = .ok a ∧
    Loading.value (generate w a.templates.render (a.overrides.map (·.render)) settings) = .ok g

/-- A run that does not fail before has generated a client and delivered it where the last
    output option says. -/
theorem run_cases {env : Environment (List UInt8)} {args : List String} {outcome : Outcome}
    (h : run w env args = (outcome, w')) :
    Undone w outcome w' ∨
      ∃ g, Generates w args (.ofEnvironment env.decode) g ∧
        Delivery w g.text (Output.standard.last (outputValues (tokens args))) outcome w' := by
  unfold run at h
  cases hparse : Arguments.parse args with
  | error refusal =>
    rw [hparse] at h
    cases h
    exact .inl ⟨by simp, rfl⟩
  | ok a =>
    rw [hparse] at h
    unfold execute at h
    dsimp only at h
    split at h
    · next g hgenerate =>
      rw [← output_parse hparse]
      exact (deliver_cases h).imp_right fun hdelivery => ⟨g, ⟨a, hparse, hgenerate⟩, hdelivery⟩
    · cases h
      exact .inl ⟨by simp, rfl⟩
    · cases h
      exact .inl ⟨by simp, rfl⟩
    · cases h
      exact .inl ⟨by simp, rfl⟩

end Delivery

-- ---------------------------------------------------------------------------
-- What is left behind
-- ---------------------------------------------------------------------------

/-- The client is shown, or it is in the file that the last output option names, in UTF-8, and
    no other file is changed. -/
def Leaves (w : Workspace) (args : List String) (client stdout : RawText) (w' : Workspace) : Prop :=
  match (outputValues (tokens args)).getLast? with
  | none => stdout = client ∧ w'.octetsAt? = w.octetsAt?
  | some value => ∃ (s : String) (octets : List UInt8) (location : Location),
      client = RawText.ofString s ∧ octets = s.toUTF8.data.toList ∧
      Utf8.decode octets = .ok s.toList ∧ w'.resolve (.parse value) = .ok location ∧
      w'.octetsAt? = Function.update w.octetsAt? location (some octets)

/-- The file that the last output option names is empty, and no other file is changed. -/
def Empties (w : Workspace) (args : List String) (w' : Workspace) : Prop :=
  ∃ value location, (outputValues (tokens args)).getLast? = some value ∧
    w'.resolve (.parse value) = .ok location ∧
    w'.octetsAt? = Function.update w.octetsAt? location (some [])

section Delivery

variable {w w' : Workspace} {args : List String} {client : RawText} {outcome : Outcome}

theorem last_eq_file {path : Path}
    (h : Output.standard.last (outputValues (tokens args)) = .file path) :
    ∃ value, (outputValues (tokens args)).getLast? = some value ∧ path = .parse value := by
  unfold Output.last at h
  cases hlast : (outputValues (tokens args)).getLast? with
  | none => rw [hlast] at h; cases h
  | some value =>
    rw [hlast] at h
    exact ⟨value, rfl, Output.eq_of_ofValue h⟩

theorem last_eq_standard (h : Output.standard.last (outputValues (tokens args)) = .standard) :
    (outputValues (tokens args)).getLast? = none := by
  unfold Output.last at h
  cases hlast : (outputValues (tokens args)).getLast? with
  | none => rfl
  | some value =>
    rw [hlast] at h
    exact absurd h (Output.ofValue_ne_standard value)

/-- A delivery succeeds and leaves the client behind, or it fails and leaves an empty file. -/
theorem Delivery.leaves
    (h : Delivery w client (Output.standard.last (outputValues (tokens args))) outcome w') :
    (∃ stdout stderr, outcome = .finished 0 stdout stderr ∧ Leaves w args client stdout w') ∨
      ∃ failure, outcome = .interrupted (.unencodable failure) ∧ failure.Covers client ∧
        Empties w args w' := by
  generalize houtput : Output.standard.last (outputValues (tokens args)) = output at h
  cases h with
  | shown stderr =>
    refine .inl ⟨client, stderr, rfl, ?_⟩
    rw [Leaves, last_eq_standard houtput]
    exact ⟨rfl, rfl⟩
  | written path location s stdout stderr w' htext hresolve hfiles =>
    obtain ⟨value, hlast, rfl⟩ := last_eq_file houtput
    refine .inl ⟨stdout, stderr, rfl, ?_⟩
    rw [Leaves, hlast]
    exact ⟨s, _, location, htext, rfl, Utf8.decode_toUTF8 s, hresolve, hfiles⟩
  | emptied path location failure w' hcovers hresolve hfiles =>
    obtain ⟨value, hlast, rfl⟩ := last_eq_file houtput
    exact .inr ⟨failure, rfl, hcovers, value, location, hlast, hresolve, hfiles⟩

end Delivery

/-- A client of settings that are text is text. -/
theorem Generates.ofRaw {w : Workspace} {args : List String} {settings : Settings}
    {g : Generated RawText} (h : Generates w args settings.raw g) :
    ∃ g', Generates w args settings g' ∧ g = g'.raw := by
  obtain ⟨a, hparse, hgenerate⟩ := h
  rw [generate_raw, Loading.value_map] at hgenerate
  obtain ⟨g', hgenerate', rfl⟩ := Source.map_eq_ok_iff.1 hgenerate
  exact ⟨g', ⟨a, hparse, hgenerate'⟩, rfl⟩

/-- With variables that are text, a run succeeds if there is a client and the file for it can be
    opened. -/
theorem run_of_openEmpty {w made opened : Workspace} {env : Environment (List UInt8)}
    {texts : Environment} {args : List String} {a : Arguments} {g : Generated} {path : Path}
    {location : Location} (htexts : env.Spells texts) (hparse : Arguments.parse args = .ok a)
    (hgenerate : Loading.value (generate w a.templates.render (a.overrides.map (·.render))
      (Settings.ofEnvironment texts)) = .ok g)
    (houtput : a.output = .file path) (hmake : w.makeDirectories path.parent = (.ok (), made))
    (hopen : made.openEmpty path = .ok (location, opened)) :
    ∃ stdout stderr, run w env args =
      (.finished 0 stdout stderr, opened.fill location g.text.toUTF8.data.toList) := by
  have hraw : Loading.value (generate w a.templates.render (a.overrides.map (·.render))
      (.ofEnvironment env.decode)) = .ok g.raw := by
    rw [Settings.ofEnvironment_decode htexts, generate_raw, Loading.value_map, hgenerate]
    rfl
  have hwrite : writeOutput w path g.raw.text =
      (.ok (), opened.fill location g.text.toUTF8.data.toList) := by
    unfold writeOutput
    rw [hmake]
    dsimp only
    rw [hopen]
    dsimp only
    rw [show g.raw.text = RawText.ofString g.text from rfl, Utf8.encode_ofString]
  unfold run
  rw [hparse]
  dsimp only
  unfold execute
  dsimp only
  rw [show (generate w a.templates.render (a.overrides.map (·.render))
    (.ofEnvironment env.decode)).run.value = .ok g.raw from hraw]
  dsimp only
  unfold deliver
  rw [houtput]
  dsimp only
  rw [hwrite]
  exact ⟨_, _, rfl⟩

/-- A directory with one template, and a file in the way of an output. -/
def drafts : Workspace where
  root := .directory [
    ("api", .directory [("a.api", .file "#namespace A".toUTF8.toList)]),
    ("out", .file [0])]

theorem eq_mk_of_fst {α β : Type} {p : α × β} {a : α} (h : p.1 = a) : p = (a, p.2) := by
  rw [← h]

theorem spells_nil : Environment.Spells [] [] := fun _ _ => rfl

/-- A package name with an octet in it that is no text. -/
def rawRuntime : Environment (List UInt8) := [("CLIENTGEN_RUNTIME", [0x61, 0xFF])]

/-- Three runs. The first one makes a directory before a file is in its way, the second one
    writes over a file, and the third one opens it for a client that is no text. -/
theorem run_drafts :
    (∃ failure w', run drafts [] ["api", "-o", "new/../out/a.py"] =
        (.interrupted (.file failure), w') ∧ w'.occupant ["new"] = .directory) ∧
    (∃ stdout stderr w', run drafts [] ["-onew/a.py", "api", "--out", "new/../out"] =
        (.finished 0 stdout stderr, w')) ∧
    ∃ failure w', run drafts rawRuntime ["api", "-o", "out"] =
        (.interrupted (.unencodable failure), w') ∧
      w'.octetsAt? ["out"] = some [] ∧ drafts.octetsAt? ["out"] = some [0] := by
  refine ⟨?_, ?_, ?_⟩
  · have hrun : (run drafts [] ["api", "-o", "new/../out/a.py"]).1 =
        .interrupted (.file ⟨.alreadyExists, .parse "new/../out"⟩) := by decide +kernel
    exact ⟨_, _, eq_mk_of_fst hrun, by decide +kernel⟩
  · have hparse : Arguments.parse ["-onew/a.py", "api", "--out", "new/../out"] =
        .ok ⟨.parse "api", none, .file (.parse "new/../out"), false⟩ := rfl
    obtain ⟨g, hgenerate⟩ : ∃ g, (Loading.value (generate drafts (Path.parse "api").render none
        (Settings.ofEnvironment ([] : Environment)))).toOption = some g :=
      Option.isSome_iff_exists.1 (by decide +kernel)
    have hmake : drafts.makeDirectories (Path.parse "new/../out").parent =
        (.ok (), (drafts.makeDirectories (Path.parse "new/../out").parent).2) :=
      eq_mk_of_fst (by decide +kernel)
    obtain ⟨opening, hopen⟩ : ∃ opening,
        ((drafts.makeDirectories (Path.parse "new/../out").parent).2.openEmpty
          (.parse "new/../out")).toOption = some opening :=
      Option.isSome_iff_exists.1 (by decide +kernel)
    obtain ⟨stdout, stderr, hrun⟩ := run_of_openEmpty spells_nil hparse
      (Source.eq_ok_of_toOption hgenerate) rfl hmake (Source.eq_ok_of_toOption hopen)
    exact ⟨stdout, stderr, _, hrun⟩
  · have hboth : ((run drafts rawRuntime ["api", "-o", "out"]).1,
        (run drafts rawRuntime ["api", "-o", "out"]).2.octetsAt? ["out"]) =
          (.interrupted (.unencodable ⟨158, [0xFF]⟩), some []) := by decide +kernel
    obtain ⟨houtcome, hafter⟩ := Prod.mk.inj hboth
    exact ⟨_, _, eq_mk_of_fst houtcome, hafter, rfl⟩

end ApiStubs.Command
