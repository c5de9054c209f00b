-- SUMMARY: The lines of a parameter block.
import ApiStubs.Source.Rule
import ApiStubs.Text.Alphanumeric

/-!
# Parameter lines

A parameter line is a kind, then pairs of a type and a name with commas between
them, then an optional guard: the word `when` and the rest of the line.

A pair is read as far as the text allows. What does not make a pair is left for
whatever comes next, so a comma without a pair after it is not read either.
-/

namespace ApiStubs.Source

open Text

/-! ## Keywords -/

/-- Whether the character prolongs a word. -/
def prolongsWord (c : Char) : Bool := isAlphanumeric c || c == '_' || c == '-'

/-- The place after `word`, if `word` comes next and is not part of a longer
    word. -/
def keyword? (word : String) (c : Cursor) : Option Cursor :=
  match c.eat? word with
  | some d => if d.rest.head?.any prolongsWord then none else some d
  | none => none

theorem keyword?_eq_eat? {word : String} {c d : Cursor} (h : keyword? word c = some d) :
    c.eat? word = some d := by
  unfold keyword? at h
  split at h
  · split at h <;> cases h
    assumption
  · cases h

/-! ## Kinds -/

/-- The words for the kinds of parameters. -/
def kindWords : List (String × ParamKind) :=
  [("required", .required), ("semi-optional", .optional), ("optional", .optional),
   ("either", .either)]

/-- The number that a list of decimal digits writes. -/
def decimal (digits : List Char) : Nat :=
  digits.foldl (fun n d => n * 10 + (d.toNat - '0'.toNat)) 0

/-- The digits of the index in brackets that comes next, and the place after the
    closing bracket. -/
def index? (c : Cursor) : Option (List Char × Cursor) :=
  match c.eat? "[" with
  | none => none
  | some d =>
    let digits := d.rest.takeWhile Char.isDigit
    if digits.isEmpty then none
    else ((d.drop digits.length).eat? "]").map (digits, ·)

theorem index?_reaches {c d : Cursor} {digits : List Char} (h : index? c = some (digits, d)) :
    c.Reaches d := by
  unfold index? at h
  split at h
  · cases h
  · next e he =>
    dsimp only at h
    split at h
    · cases h
    · obtain ⟨f, hf, hd⟩ := Option.map_eq_some_iff.1 h
      cases hd
      exact (Cursor.eat?_reaches he).trans ((Cursor.reaches_drop
        (List.takeWhile_sublist _).length_le).trans (Cursor.eat?_reaches hf))

/-- The kind of a parameter line with its group, which only an `either` line may
    give. -/
def paramKind : Rule (ParamKind × Nat) := fun c =>
  match kindWords.findSome? fun (word, kind) => (keyword? word c).map (kind, ·) with
  | none => .ok none
  | some (kind, d) =>
    if kind = .either then
      match index? d with
      | none => .ok (some ((kind, 0), d))
      | some (digits, e) =>
        if maxIndexDigits < digits.length then .error (.indexTooLong digits.length)
        else .ok (some ((kind, decimal digits), e))
    else .ok (some ((kind, 0), d))

theorem paramKind_advances : paramKind.Advances := by
  intro c v d h
  unfold paramKind at h
  split at h
  · cases h
  · next kind e he =>
    obtain ⟨⟨word, kind'⟩, hmem, hword⟩ := List.exists_of_findSome?_eq_some he
    obtain ⟨e', he', heq⟩ := Option.map_eq_some_iff.1 hword
    cases heq
    have hpos : 0 < word.length := by
      simp only [kindWords, List.mem_cons, List.not_mem_nil, Prod.mk.injEq, or_false] at hmem
      rcases hmem with ⟨rfl, _⟩ | ⟨rfl, _⟩ | ⟨rfl, _⟩ | ⟨rfl, _⟩ <;> decide
    have hce : c.Precedes e := Cursor.eat?_precedes hpos (keyword?_eq_eat? he')
    split at h
    · split at h
      · cases h; exact hce
      · next hi =>
        split at h <;> cases h
        exact hce.trans_reaches (index?_reaches hi)
    · cases h; exact hce

/-! ## Pairs -/

/-- Whether the character ends a type or a name. -/
def isPairDelimiter (c : Char) : Bool :=
  c == ' ' || c == '\t' || c == '\r' || c == '\n' || c == ',' || c == '}'

/-- Words that never begin a pair. -/
def pairStopwords : List String := ["required", "optional", "semi-optional", "either", "when"]

/-- The type or name that comes next, and the place after it. -/
def token? (c : Cursor) : Option (String × Cursor) :=
  let n := c.count (!isPairDelimiter ·)
  if n = 0 then none else some (c.take n, c.drop n)

theorem token?_precedes {c d : Cursor} {s : String} (h : token? c = some (s, d)) :
    c.Precedes d := by
  simp only [token?] at h
  split at h <;> cases h
  exact Cursor.precedes_drop (by omega) (c.count_le_length _)

/-- Whether the word may begin a pair. -/
def beginsPair (word : String) : Bool :=
  !pairStopwords.contains word && !"either[".toList.isPrefixOf word.toList

/-- The pair that comes next, and the place after it. -/
def pair? (c : Cursor) : Option (TypedName × Cursor) := do
  let (type, d) ← token? c
  if beginsPair type then
    let e ← d.noise?
    let (name, f) ← token? e
    return (⟨type, name⟩, f)
  else none

theorem pair?_precedes {c d : Cursor} {p : TypedName} (h : pair? c = some (p, d)) :
    c.Precedes d := by
  simp only [pair?, Option.bind_eq_bind, Option.bind_eq_some_iff, Option.pure_def] at h
  obtain ⟨⟨type, e⟩, he, h⟩ := h
  split at h
  · simp only [Option.bind_eq_some_iff] at h
    obtain ⟨f, hf, ⟨name, g⟩, hg, heq⟩ := h
    cases heq
    exact (token?_precedes he).trans_reaches
      ((Cursor.noise?_precedes hf).reaches.trans (token?_precedes hg).reaches)
  · cases h

/-- The pairs that follow a pair, each after a comma, and the place after the
    last of them. -/
def morePairs (c : Cursor) : List TypedName × Cursor :=
  match _hc : c.skipNoise.eat? "," with
  | none => ([], c)
  | some d =>
    match _hp : pair? d.skipNoise with
    | none => ([], c)
    | some (p, e) =>
      let (ps, f) := morePairs e
      (p :: ps, f)
termination_by c.rest.length
decreasing_by
  exact (c.skipNoise_reaches.trans_precedes ((Cursor.eat?_reaches _hc).trans_precedes
    (d.skipNoise_reaches.trans_precedes (pair?_precedes _hp)))).length_lt

theorem morePairs_reaches (c : Cursor) : c.Reaches (morePairs c).2 := by
  fun_induction morePairs c with
  | case1 c => exact .refl c
  | case2 c => exact .refl c
  | case3 c d hc p e hp ps f hf ih =>
    simp only [hf] at ih
    exact c.skipNoise_reaches.trans ((Cursor.eat?_reaches hc).trans
      (d.skipNoise_reaches.trans ((pair?_precedes hp).reaches.trans ih)))

/-- The pairs of a parameter line, from the end of its kind. -/
def pairs (c : Cursor) : List TypedName × Cursor :=
  match c.noise?.bind pair? with
  | none => ([], c)
  | some (p, d) =>
    let (ps, e) := morePairs d
    (p :: ps, e)

theorem pairs_reaches (c : Cursor) : c.Reaches (pairs c).2 := by
  unfold pairs
  split
  · exact .refl c
  · next p d h =>
    obtain ⟨e, he, hp⟩ := Option.bind_eq_some_iff.1 h
    exact (Cursor.noise?_precedes he).reaches.trans
      ((pair?_precedes hp).reaches.trans (morePairs_reaches d))

/-! ## Guards -/

/-- The guard that follows, and the place after it. -/
def guard? (c : Cursor) : Option (String × Cursor) := do
  let d ← c.noise?
  let e ← d.eat? "when"
  let f := e.skipInlineSpace
  if f.offset = e.offset then none else some (f.line, f.lineEnd)

theorem guard?_precedes {c d : Cursor} {s : String} (h : guard? c = some (s, d)) :
    c.Precedes d := by
  simp only [guard?, Option.bind_eq_bind, Option.bind_eq_some_iff] at h
  obtain ⟨e, he, f, hf, h⟩ := h
  split at h <;> cases h
  exact (Cursor.noise?_precedes he).trans_reaches ((Cursor.eat?_reaches hf).trans
    (f.skipInlineSpace_reaches.trans f.skipInlineSpace.lineEnd_reaches))

/-! ## Lines -/

/-- A line of a parameter block. -/
def param : Rule Param := fun c =>
  match paramKind c with
  | .error fault => .error fault
  | .ok none => .ok none
  | .ok (some ((kind, group), d)) =>
    let (ps, e) := pairs d
    match guard? e with
    | none => .ok (some ({ kind, pairs := ps, guard := none, group }, e))
    | some (condition, f) => .ok (some ({ kind, pairs := ps, guard := some condition, group }, f))

theorem param_advances : param.Advances := by
  intro c v d h
  unfold param at h
  split at h
  · cases h
  · cases h
  · next kind group e hk =>
    have hce := (paramKind_advances hk).trans_reaches (pairs_reaches e)
    dsimp only at h
    split at h <;> cases h
    · exact hce
    · next hg => exact hce.trans_reaches (guard?_precedes hg).reaches

end ApiStubs.Source
