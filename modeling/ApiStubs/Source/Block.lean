-- SUMMARY: The blocks of an endpoint declaration.
import ApiStubs.Source.Param

/-!
# Blocks

An endpoint declaration holds blocks of two forms. A list block has the keyword
`with` or `params` and holds entries. A text block has any other name and holds
text up to the next closing brace.

A block that has read its opening brace is committed to. What goes wrong inside
it is reported at its keyword.
-/

namespace ApiStubs.Source

open Text

/-! ## Entries of a `with` block -/

/-- The entry after an opening bracket: a name up to the closing bracket, an equals
    sign and a value up to the end of the line. -/
def attribute? (c : Cursor) : Option (WithEntry × Cursor) := do
  let n ← find? [']'] c.rest
  let d ← (c.drop n).eat? "]="
  let name := c.take n
  return (if name = "Ignore" then .ignore else .attribute name d.line, d.lineEnd)

def withEntry? (c : Cursor) : Option (WithEntry × Cursor) :=
  match c.eat? "JsonPath=" with
  | some d => some (.jsonPath d.line, d.lineEnd)
  | none =>
    match c.eat? "OmitExcept=" with
    | some d => some (.omitExcept d.line, d.lineEnd)
    | none => (c.eat? "[").bind attribute?

def withEntry : Rule WithEntry := .ofOption withEntry?

theorem attribute?_reaches {c d : Cursor} {w : WithEntry} (h : attribute? c = some (w, d)) :
    c.Reaches d := by
  simp only [attribute?, Option.bind_eq_bind, Option.bind_eq_some_iff, Option.pure_def] at h
  obtain ⟨n, hn, e, he, heq⟩ := h
  cases heq
  have hle := length_le_of_find? hn
  exact (Cursor.reaches_drop (by omega)).trans ((Cursor.eat?_reaches he).trans e.lineEnd_reaches)

theorem withEntry?_precedes {c d : Cursor} {w : WithEntry} (h : withEntry? c = some (w, d)) :
    c.Precedes d := by
  unfold withEntry? at h
  split at h
  · next e he =>
    cases h
    exact (Cursor.eat?_precedes (by decide) he).trans_reaches e.lineEnd_reaches
  · split at h
    · next e he =>
      cases h
      exact (Cursor.eat?_precedes (by decide) he).trans_reaches e.lineEnd_reaches
    · obtain ⟨e, he, hw⟩ := Option.bind_eq_some_iff.1 h
      exact (Cursor.eat?_precedes (by decide) he).trans_reaches (attribute?_reaches hw)

theorem withEntry_advances : withEntry.Advances := by
  intro c v d h
  exact withEntry?_precedes (by simpa [withEntry, Rule.ofOption] using h)

/-! ## List blocks -/

/-- The place after the keyword and opening brace of a list block, and after the
    noise that follows. -/
def openBlock? (keyword : String) (c : Cursor) : Option Cursor := do
  let d ← c.eat? keyword
  let e ← d.skipNoise.eat? "\x7b"
  return e.skipNoise

theorem openBlock?_reaches {keyword : String} {c d : Cursor} (h : openBlock? keyword c = some d) :
    c.Reaches d := by
  simp only [openBlock?, Option.bind_eq_bind, Option.bind_eq_some_iff, Option.pure_def] at h
  obtain ⟨e, he, f, hf, heq⟩ := h
  cases heq
  exact (Cursor.eat?_reaches he).trans (e.skipNoise_reaches.trans
    ((Cursor.eat?_reaches hf).trans f.skipNoise_reaches))

/-- The entries of a list block. -/
def listBlock {α : Type} (block : ListBlock) (entry : Rule α) (advances : entry.Advances) :
    Rule (List α) := fun c =>
  match openBlock? block.keyword c with
  | none => .ok none
  | some d =>
    match collect entry advances (.malformed (.blockUnterminated block.keyword) c.offset)
        (fun e => .malformed (.strayInBlock block (snippet e)) c.offset) d with
    | .ok result => .ok (some result)
    | .error fault => .error fault

theorem listBlock_advances {α : Type} {block : ListBlock} {entry : Rule α}
    {advances : entry.Advances} : (listBlock block entry advances).Advances := by
  intro c v d h
  unfold listBlock at h
  split at h
  · cases h
  · next ho =>
    split at h <;> cases h
    next hc => exact (openBlock?_reaches ho).trans_precedes (collect_precedes hc)

def withBlock : Rule Block := (listBlock .withEntries withEntry withEntry_advances).map .withEntries

def paramsBlock : Rule Block := (listBlock .params param param_advances).map .params

theorem withBlock_advances : withBlock.Advances := listBlock_advances.map _

theorem paramsBlock_advances : paramsBlock.Advances := listBlock_advances.map _

/-! ## Text blocks -/

/-- What a text block says, by its name. -/
def Block.ofText (name body : String) : Block :=
  if name = "description" then .description body
  else if name = "returns" then .returns body
  else .other name body

def textBlock : Rule Block := fun c =>
  let n := c.count Char.isAlphanum
  if n = 0 then .ok none
  else match (c.drop n).skipNoise.eat? "\x7b" with
    | none => .ok none
    | some d =>
      match find? ['}'] d.rest with
      | none => .error (.malformed (.blockUnterminated (c.take n)) c.offset)
      | some k => .ok (some (.ofText (c.take n) (d.take k), d.drop (k + 1)))

theorem textBlock_advances : textBlock.Advances := by
  intro c v d h
  simp only [textBlock] at h
  split at h
  · cases h
  · split at h
    · cases h
    · next hn _ e he =>
      split at h <;> cases h
      next k hk =>
      have hle := length_le_of_find? hk
      exact ((Cursor.precedes_drop (by omega) (c.count_le_length _)).trans_reaches
        (Cursor.skipNoise_reaches _)).trans_reaches
          ((Cursor.eat?_reaches he).trans (Cursor.reaches_drop (by simpa using hle)))

/-- A block of an endpoint declaration. A text block has the last word, so a `with`
    or `params` that opens no list block may still name a text block. -/
def block : Rule (Located Block) := ((withBlock.orElse paramsBlock).orElse textBlock).located

theorem block_advances : block.Advances :=
  ((withBlock_advances.orElse paramsBlock_advances).orElse textBlock_advances).located

end ApiStubs.Source
