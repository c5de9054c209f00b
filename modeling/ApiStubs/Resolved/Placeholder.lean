-- SUMMARY: The parameter that a URL names in braces.
import ApiStubs.Text.Cursor

/-!
# Placeholders

A URL may name one parameter in braces. Its value goes into the URL and is not
sent otherwise.
-/

namespace ApiStubs

open Text

/-- What stands between the first opening brace and the next closing brace. -/
def placeholderChars? (url : List Char) : Option (List Char) := do
  let opening ← find? ['\x7b'] url
  let rest := url.drop (opening + 1)
  let closing ← find? ['\x7d'] rest
  return rest.take closing

/-- The name of the parameter in a URL. -/
def placeholder? (url : Option String) : Option String := do
  let url ← url
  return .ofList (← placeholderChars? url.toList)

end ApiStubs
