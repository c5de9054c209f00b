-- SUMMARY: The elements of a template file, from its first character to its last.
import ApiStubs.Source.Endpoint

/-!
# Elements of a file

`parse` reads a whole text as a sequence of elements with noise around them.
-/

namespace ApiStubs.Source

open Text

/-- The value of a directive: what follows the tag and at least one space or tab,
    up to the end of the line. -/
def directive (tag : String) : Rule String := fun c =>
  match c.eat? tag with
  | none => .ok none
  | some d =>
    let e := d.skipInlineSpace
    if e.offset = d.offset then .error (.malformed (.spaceExpected tag) d.offset)
    else .ok (some (e.line, e.lineEnd))

def namespaceLine : Rule Item := (directive "#namespace").map .namespaceLine

def descriptionLine : Rule Item := (directive "#description").map .descriptionLine

/-- A raw block: everything up to the next closing tag. -/
def rawBlock : Rule Item := fun c =>
  match c.eat? "#raw" with
  | none => .ok none
  | some d =>
    match find? "#endraw".toList d.rest with
    | none => .error (.malformed .rawUnterminated c.offset)
    | some n => .ok (some (.raw (d.take n), d.drop (n + "#endraw".length)))

theorem directive_advances {tag : String} (htag : 0 < tag.length) : (directive tag).Advances := by
  intro c v d h
  unfold directive at h
  split at h
  · cases h
  · next e he =>
    dsimp only at h
    split at h <;> cases h
    exact (Cursor.eat?_precedes htag he).trans_reaches
      (e.skipInlineSpace_reaches.trans e.skipInlineSpace.lineEnd_reaches)

theorem rawBlock_advances : rawBlock.Advances := by
  intro c v d h
  unfold rawBlock at h
  split at h
  · cases h
  · next e he =>
    split at h <;> cases h
    next n hn =>
    have hle := length_le_of_find? hn
    exact (Cursor.eat?_precedes (by decide) he).trans_reaches
      (Cursor.reaches_drop (by simpa only [String.length_toList] using hle))

/-- An element of a file. -/
def element : Rule Element :=
  (((namespaceLine.orElse descriptionLine).orElse rawBlock).orElse (endpoint.map .endpoint)).located

theorem element_advances : element.Advances :=
  (((((directive_advances (by decide)).map _).orElse
    ((directive_advances (by decide)).map _)).orElse rawBlock_advances).orElse
      (endpoint_advances.map _)).located

/-- The elements from a place that is not noise to the end of the text. -/
def elements (c : Cursor) : Except Fault (List Element) :=
  if c.atEnd then .ok []
  else match _h : element c with
    | .error fault => .error fault
    | .ok none => .error (.malformed (.strayText (snippet c)) c.offset)
    | .ok (some (e, d)) =>
      match elements d.skipNoise with
      | .ok es => .ok (e :: es)
      | .error fault => .error fault
termination_by c.rest.length
decreasing_by exact ((element_advances _h).trans_reaches d.skipNoise_reaches).length_lt

/-- Reads a whole text. -/
def parse (text : List Char) : Except Fault (List Element) :=
  elements (Cursor.start text).skipNoise

/-- Reads a whole text. A fault comes with its position. -/
def read (text : String) : Except LocatedFault (List Element) :=
  (parse text.toList).mapError (Fault.locate text.toList)

end ApiStubs.Source
