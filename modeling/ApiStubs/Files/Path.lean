-- SUMMARY: Paths of files and directories.
import ApiStubs.Text.Split

/-!
# Paths

A path is a sequence of parts, read from a text. Empty parts and parts that say
"here" do not count, so that a path has one written form. Parts that go up stay.
-/

namespace ApiStubs.Files

open Text

/-- A path. Its root is empty if the path is relative. -/
structure Path where
  root : String := ""
  parts : List String := []
deriving DecidableEq, Repr

namespace Path

/-- The root that a text begins with. Exactly two slashes are a root of their own. -/
def rootOf : List Char → String
  | '/' :: '/' :: '/' :: _ => "/"
  | '/' :: '/' :: _ => "//"
  | '/' :: _ => "/"
  | _ => ""

def parse (text : String) : Path where
  root := rootOf text.toList
  parts := ((splitAt '/' text.toList).filter fun part => part ≠ [] && part ≠ ['.']).map .ofList

/-- The written form of the path. -/
def render (p : Path) : String :=
  if p.root = "" && p.parts.isEmpty then "." else p.root ++ "/".intercalate p.parts

/-- The path of an entry of the directory at this path. -/
def child (p : Path) (name : String) : Path := { p with parts := p.parts ++ [name] }

/-- The path without its last part. -/
def parent (p : Path) : Path := { p with parts := p.parts.dropLast }

/-- The last part of the path. -/
def name (p : Path) : String := p.parts.getLast?.getD ""

end Path

end ApiStubs.Files
