-- SUMMARY: What can be set about a generated client, and how the environment sets it.
import ApiStubs.Text.Blank
import ApiStubs.Text.Cursor
import ApiStubs.Text.Script
import ApiStubs.Text.Utf8

/-!
# Settings

Settings have defaults and can be changed by variables of the environment. An
empty variable does not change the runtime package, the client name or the base
URL, but it does change the URL suffix and the deny list.
-/

namespace ApiStubs

open Text

structure Settings (τ : Type := String) [Script τ] where
  /-- The package that generated code imports. -/
  runtime : τ := Script.text "tweetust"
  /-- The name of the aggregate client class. -/
  clientName : τ := Script.text "TwitterClient"
  baseUrl : τ := Script.text "https://api.twitter.com/1.1/"
  urlSuffix : τ := Script.text ".json"
  /-- The names of the template files that are passed over. -/
  denyList : List String := ["test.api", "collections.api", "media.api"]
deriving DecidableEq, Repr

/-- The variables of an environment and their values. -/
abbrev Environment (τ : Type := String) := List (String × τ)

/-- The environment with the texts of its variables. -/
def Environment.decode (env : Environment (List UInt8)) : Environment RawText :=
  env.map fun (key, octets) => (key, Utf8.decodeRaw octets)

variable {τ : Type} [Append τ] [Script τ]

/-- The value of a variable, if it is set and not empty. -/
def Environment.nonempty? (env : Environment τ) (key : String) : Option τ :=
  (env.lookup key).filter (!Script.isEmpty ·)

namespace Settings

/-- The variables that change settings. -/
def environmentKeys : List String :=
  ["CLIENTGEN_RUNTIME", "CLIENTGEN_CLIENT_NAME", "CLIENTGEN_BASE_URL", "CLIENTGEN_URL_SUFFIX",
   "CLIENTGEN_DENY_LIST"]

/-- The names in a list with commas, without blanks around them. -/
def namesOf (list : τ) : List String :=
  (((Script.pieces ',' list).map trim).filter (· ≠ [])).map String.ofList

def ofEnvironment (env : Environment τ) : Settings τ :=
  let defaults : Settings τ := {}
  { runtime := (env.nonempty? "CLIENTGEN_RUNTIME").getD defaults.runtime
    clientName := (env.nonempty? "CLIENTGEN_CLIENT_NAME").getD defaults.clientName
    baseUrl := (env.nonempty? "CLIENTGEN_BASE_URL").getD defaults.baseUrl
    urlSuffix := (env.lookup "CLIENTGEN_URL_SUFFIX").getD defaults.urlSuffix
    denyList := ((env.lookup "CLIENTGEN_DENY_LIST").map namesOf).getD defaults.denyList }

/-- The URL with the suffix, unless it has it already. -/
def withSuffix (s : Settings τ) (url : String) : τ :=
  if Script.isSuffixOf s.urlSuffix url then Script.text url else Script.text url ++ s.urlSuffix

/-- The URL that a call goes to. A URL with a scheme is complete. -/
def resolveUrl (s : Settings τ) (url : String) : τ :=
  if (find? "://".toList url.toList).isSome then Script.text url
  else s.baseUrl ++ Script.dropSlashes (s.withSuffix url)

end Settings

end ApiStubs
