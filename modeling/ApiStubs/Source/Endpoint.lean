-- SUMMARY: Endpoint declarations.
import ApiStubs.Source.Block
import ApiStubs.Text.Blank

/-!
# Endpoint declarations

A declaration is the word `endpoint`, a header and a body of blocks in braces.
The header gives a return type, a name and, after a colon, where the calls go.
-/

namespace ApiStubs.Source

open Text

/-! ## URLs

A URL extends to the next blank or comment. The slashes after the colon of a
scheme begin no comment, and neither does the first character of the URL. -/

/-- The length of what continues a URL after the character `last`. -/
def urlTail (last : Char) : List Char → Nat
  | [] => 0
  | '/' :: '/' :: cs => if last = ':' then urlTail '/' cs + 2 else 0
  | c :: cs => if isBlank c || startsNoise (c :: cs) then 0 else urlTail c cs + 1

/-- The length of the URL at the front. -/
def urlLength : List Char → Nat
  | [] => 0
  | c :: cs => if isBlank c then 0 else urlTail c cs + 1

/-- The URL that comes next, and the place after it. -/
def url? (c : Cursor) : Option (String × Cursor) :=
  let n := urlLength c.rest
  if n = 0 then none else some (c.take n, c.drop n)

theorem urlTail_le_length (last : Char) (s : List Char) : urlTail last s ≤ s.length := by
  fun_induction urlTail last s <;> grind

theorem urlLength_le_length (s : List Char) : urlLength s ≤ s.length := by
  cases s with
  | nil => simp [urlLength]
  | cons c cs =>
    have := urlTail_le_length c cs
    simp only [urlLength, List.length_cons]
    split <;> omega

theorem url?_precedes {c d : Cursor} {s : String} (h : url? c = some (s, d)) : c.Precedes d := by
  simp only [url?] at h
  split at h <;> cases h
  exact Cursor.precedes_drop (by omega) (urlLength_le_length _)

/-! ## Headers -/

/-- Whether the character may stand in the name of an endpoint. -/
def isNameChar (c : Char) : Bool := c.isAlphanum || c == '_'

/-- The URL after the word for a method. -/
def requestUrl (method : Method) (c : Cursor) : Except Fault (String × Cursor) :=
  match c.noise?.bind url? with
  | some result => .ok result
  | none => .error (.malformed (.urlExpected method) c.offset)

/-- Where the calls of the endpoint `name` go. -/
def target (name : String) (c : Cursor) : Except Fault (Target × Cursor) :=
  match keyword? "Impl" c with
  | some d => .ok (.impl, d)
  | none =>
    match c.eat? "Get" with
    | some d => (requestUrl .get d).map fun (url, e) => (.get url, e)
    | none =>
      match c.eat? "Post" with
      | some d => (requestUrl .post d).map fun (url, e) => (.post url, e)
      | none => .error (.malformed (.targetExpected name) c.offset)

/-- The name of an endpoint, after a return type that ends at the place, and the
    place after the name. -/
def endpointName? (c : Cursor) : Option (String × Cursor) := do
  let d ← c.noise?
  let n := d.count isNameChar
  if n = 0 then none else some (d.take n, d.drop n)

/-- The header of an endpoint. -/
def header (c : Cursor) : Except Fault (Header × Cursor) :=
  match c.word? with
  | none => .error (.malformed .returnTypeExpected c.offset)
  | some d =>
    let returnType := c.take (word c.rest)
    match endpointName? d with
    | none => .error (.malformed (.nameExpected returnType) d.offset)
    | some (name, e) =>
      match e.skipNoise.eat? ":" with
      | none => .error (.malformed (.colonExpected name) e.skipNoise.offset)
      | some f => (target name f.skipNoise).map fun (target, g) => (⟨returnType, name, target⟩, g)

theorem requestUrl_precedes {method : Method} {c d : Cursor} {s : String}
    (h : requestUrl method c = .ok (s, d)) : c.Precedes d := by
  unfold requestUrl at h
  split at h <;> cases h
  next hu =>
  obtain ⟨e, he, hu⟩ := Option.bind_eq_some_iff.1 hu
  exact (Cursor.noise?_precedes he).trans_reaches (url?_precedes hu).reaches

theorem target_precedes {name : String} {c d : Cursor} {t : Target}
    (h : target name c = .ok (t, d)) : c.Precedes d := by
  unfold target at h
  split at h
  · next hk =>
    cases h
    exact Cursor.eat?_precedes (by decide) (keyword?_eq_eat? hk)
  · split at h
    · next he =>
      obtain ⟨⟨url, e⟩, hu, heq⟩ := map_eq_ok_iff.1 h
      cases heq
      exact (Cursor.eat?_precedes (by decide) he).trans_reaches (requestUrl_precedes hu).reaches
    · split at h
      · next he =>
        obtain ⟨⟨url, e⟩, hu, heq⟩ := map_eq_ok_iff.1 h
        cases heq
        exact (Cursor.eat?_precedes (by decide) he).trans_reaches (requestUrl_precedes hu).reaches
      · cases h

theorem endpointName?_precedes {c d : Cursor} {s : String} (h : endpointName? c = some (s, d)) :
    c.Precedes d := by
  simp only [endpointName?, Option.bind_eq_bind, Option.bind_eq_some_iff] at h
  obtain ⟨e, he, h⟩ := h
  split at h <;> cases h
  exact (Cursor.noise?_precedes he).trans_reaches (Cursor.reaches_drop (e.count_le_length _))

theorem header_precedes {c d : Cursor} {h : Header} (hh : header c = .ok (h, d)) :
    c.Precedes d := by
  unfold header at hh
  split at hh
  · cases hh
  · next e he =>
    dsimp only at hh
    split at hh
    · cases hh
    · next name f hf =>
      split at hh
      · cases hh
      · next g hg =>
        obtain ⟨⟨t, k⟩, ht, heq⟩ := map_eq_ok_iff.1 hh
        cases heq
        exact (Cursor.word?_precedes he).trans_reaches ((endpointName?_precedes hf).reaches.trans
          (f.skipNoise_reaches.trans ((Cursor.eat?_reaches hg).trans
            (g.skipNoise_reaches.trans (target_precedes ht).reaches))))

/-! ## Declarations -/

/-- The body of the endpoint `name` that was declared at `start`. -/
def endpointBody (name : String) (start : Nat) (c : Cursor) :
    Except Fault (List (Located Block) × Cursor) :=
  collect block block_advances (.malformed (.endpointUnterminated name) start)
    (fun d => .malformed (.strayInEndpoint (snippet d) name) d.offset) c

def endpoint : Rule EndpointDecl := fun c =>
  match (c.eat? "endpoint").bind (·.noise?) with
  | none => .ok none
  | some d =>
    match header d with
    | .error fault => .error fault
    | .ok (header, e) =>
      match e.skipNoise.eat? "\x7b" with
      | none => .error (.malformed (.braceExpected header.name) e.skipNoise.offset)
      | some f =>
        match endpointBody header.name c.offset f.skipNoise with
        | .error fault => .error fault
        | .ok (blocks, g) => .ok (some (⟨header, blocks⟩, g))

theorem endpoint_advances : endpoint.Advances := by
  intro c v d h
  unfold endpoint at h
  split at h
  · cases h
  · next e he =>
    obtain ⟨e', hw, hn⟩ := Option.bind_eq_some_iff.1 he
    split at h
    · cases h
    · next hd f hf =>
      split at h
      · cases h
      · next g hg =>
        split at h <;> cases h
        next hb =>
        exact (Cursor.eat?_precedes (by decide) hw).trans_reaches
          ((Cursor.noise?_precedes hn).reaches.trans ((header_precedes hf).reaches.trans
            (f.skipNoise_reaches.trans ((Cursor.eat?_reaches hg).trans
              (g.skipNoise_reaches.trans (collect_precedes hb).reaches)))))

end ApiStubs.Source
