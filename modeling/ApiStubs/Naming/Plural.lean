-- SUMMARY: Plural forms of type names.

/-!
# Plurals

A cursor is named for the plural of its item type. Known words have a form of
their own and all others follow the spelling rules for `y` and for hissing ends.
-/

namespace ApiStubs.Naming

def knownPlurals : List (String × String) :=
  [("Status", "Statuses"), ("Tweet", "Tweets"), ("Category", "Categories"),
   ("UserCategory", "UserCategories"), ("Search", "Searches"), ("SavedSearch", "SavedSearches"),
   ("Relationship", "Relationships"), ("Entry", "Entries")]

def isVowel (c : Char) : Bool := c == 'a' || c == 'e' || c == 'i' || c == 'o' || c == 'u'

/-- The plural of a word that is spelled backwards, spelled backwards too. -/
def reversedPlural : List Char → List Char
  | 'y' :: c :: cs => if isVowel c then 's' :: 'y' :: c :: cs else 's' :: 'e' :: 'i' :: c :: cs
  | 's' :: cs => 's' :: 'e' :: 's' :: cs
  | 'x' :: cs => 's' :: 'e' :: 'x' :: cs
  | 'h' :: 'c' :: cs => 's' :: 'e' :: 'h' :: 'c' :: cs
  | 'h' :: 's' :: cs => 's' :: 'e' :: 'h' :: 's' :: cs
  | cs => 's' :: cs

def plural (word : String) : String :=
  (knownPlurals.lookup word).getD (.ofList (reversedPlural word.toList.reverse).reverse)

end ApiStubs.Naming
