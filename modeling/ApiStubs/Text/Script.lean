-- SUMMARY: The kinds of text that a client can be written in.
import ApiStubs.Text.Literal
import ApiStubs.Text.Split
import ApiStubs.Text.Symbol

/-!
# Scripts

A client is written from templates, which are text, and from settings, which are text as long
as what sets them is. All that is done with settings can be done with strings and with raw
texts alike, so that a client can be written in either kind.
-/

namespace ApiStubs.Text

/-- A kind of text that a client can be written in. -/
class Script (τ : Type) where
  text : String → τ
  join : List τ → τ
  isEmpty : τ → Bool
  /-- The literal that denotes the text. -/
  literal : τ → τ
  /-- Whether a string ends with the text. -/
  isSuffixOf : τ → String → Bool
  dropSlashes : τ → τ
  /-- The pieces of the text between separators. What is not text names nothing and is left
      out. -/
  pieces : Char → τ → List (List Char)

instance : Script String where
  text s := s
  join := String.join
  isEmpty s := s = ""
  literal := Literal.ofString
  isSuffixOf suffix s := suffix.toList.isSuffixOf s.toList
  dropSlashes s := .ofList (s.toList.dropWhile (· = '/'))
  pieces separator s := splitAt separator s.toList

@[simp] theorem Script.text_string (s : String) : Script.text s = s := rfl

@[simp] theorem Script.join_string (pieces : List String) :
    Script.join pieces = String.join pieces :=
  rfl

theorem Script.dropSlashes_string (s : String) :
    Script.dropSlashes s = .ofList (s.toList.dropWhile (· = '/')) :=
  rfl

/-- A symbol as it stands between the quotes of a literal. -/
def Literal.encodeSymbol : Symbol → RawText
  | .char c => RawText.ofChars (encodeChar c)
  | .octet b => [.octet b]

instance : Script RawText where
  text := RawText.ofString
  join := List.flatten
  isEmpty := List.isEmpty
  literal s := .char '"' :: s.flatMap Literal.encodeSymbol ++ [.char '"']
  isSuffixOf suffix s := suffix.isSuffixOf (RawText.ofString s)
  dropSlashes s := s.dropWhile (· = .char '/')
  pieces separator s := (splitAt (.char separator) s).filterMap RawText.chars?

end ApiStubs.Text
