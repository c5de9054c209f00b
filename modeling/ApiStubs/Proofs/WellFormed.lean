-- SUMMARY: Templates that can be written as a file.
import ApiStubs.Proofs.Spans
import ApiStubs.Source.Endpoint
import ApiStubs.Template.Basic
import Mathlib.Tactic.MkIffOfInductiveProp

/-!
# Well-formed templates

A template can be written as a file when none of its texts holds a character that
ends the text early. Each kind of text has its own such characters: a text that
takes the rest of a line must not end the line, the text of a block must not
close it, and a word must not hold what ends words.
-/

namespace ApiStubs

open Source Text

/-- The text stays on one line. -/
def OneLine (s : String) : Prop := AllChars (!isLineEnd ·) s

instance (s : String) : Decidable (OneLine s) := inferInstanceAs (Decidable (AllChars _ _))

/-- The text does not begin with a character of the class. -/
def StartsOutside (p : Char → Bool) (s : String) : Prop := ∀ c ∈ s.toList.head?, p c = false

instance (p : Char → Bool) (s : String) : Decidable (StartsOutside p s) :=
  Option.decidableForallMem _

/-- The value of a directive: a line without blanks at its ends. -/
def DirectiveValue (s : String) : Prop := OneLine s ∧ trimmed s = s

instance (s : String) : Decidable (DirectiveValue s) := inferInstanceAs (Decidable (_ ∧ _))

/-- A URL that ends only at a blank: every `//` in it follows the colon of a
    scheme, and nothing else in it begins a comment. -/
@[mk_iff] structure WellFormedUrl (url : String) : Prop where
  nonempty : url ≠ ""
  chars : AllChars (fun c => !isBlank c && c != '#') url
  noBlockComment : ∀ i < url.length, ¬ ['/', '*'] <+: url.toList.drop i
  slashes : ∀ i < url.length, ['/', '/'] <+: url.toList.drop i →
    (url.toList.take i).getLast? = some ':'

instance (url : String) : Decidable (WellFormedUrl url) :=
  decidable_of_iff _ (wellFormedUrl_iff url).symm

/-- A pair: two words for which the lines of a parameter block have a place. The
    type begins no comment and is no keyword of these lines. -/
@[mk_iff] structure TypedName.WellFormed (p : TypedName) : Prop where
  typeNonempty : p.type ≠ ""
  typeChars : AllChars (!isPairDelimiter ·) p.type
  typeNoNoise : startsNoise p.type.toList = false ∧ ¬ ['/', '*'] <+: p.type.toList
  typeNoKeyword : beginsPair p.type = true
  nameChars : AllChars (!isPairDelimiter ·) p.name

instance (p : TypedName) : Decidable p.WellFormed :=
  decidable_of_iff _ (TypedName.wellFormed_iff p).symm

/-- A parameter line. Only an `either` line has a group. -/
@[mk_iff] structure Param.WellFormed (p : Param) : Prop where
  pairs : ∀ q ∈ p.pairs, q.WellFormed
  guard : ∀ g ∈ p.guard, OneLine g ∧ StartsOutside isInlineSpace g
  group : p.kind ≠ .either → p.group = 0
  index : p.group.repr.length ≤ maxIndexDigits

instance (p : Param) : Decidable p.WellFormed :=
  decidable_of_iff _ (Param.wellFormed_iff p).symm

@[mk_iff] structure Endpoint.WellFormed (e : Endpoint) : Prop where
  returnType : e.returnType ≠ "" ∧ AllChars isPlain e.returnType
  name : e.name ≠ "" ∧ AllChars isNameChar e.name
  method : e.url = none ↔ e.method = .impl
  url : ∀ u ∈ e.url, WellFormedUrl u
  jsonPath : ∀ path ∈ e.jsonPath, OneLine path
  attributes : ∀ a ∈ e.attributes, ']' ∉ a.1.toList ∧ a.1 ≠ "Ignore" ∧ OneLine a.2
  description : ∀ text ∈ e.description, '}' ∉ text.toList
  returns : ∀ text ∈ e.returns, '}' ∉ text.toList
  params : ∀ p ∈ e.params, p.WellFormed

instance (e : Endpoint) : Decidable e.WellFormed :=
  decidable_of_iff _ (Endpoint.wellFormed_iff e).symm

@[mk_iff] structure Template.WellFormed (t : Template) : Prop where
  nameSpace : DirectiveValue t.nameSpace
  description : ∀ text ∈ t.description, DirectiveValue text
  endpoints : ∀ e ∈ t.endpoints, e.WellFormed

instance (t : Template) : Decidable t.WellFormed :=
  decidable_of_iff _ (Template.wellFormed_iff t).symm

end ApiStubs
