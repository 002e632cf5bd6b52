import Mathlib
import Nightshade.Schema.Lex

/-! Configuration paths: the segments from the root to a node. -/
namespace Nightshade.Schema

/-- A sequence of path segments, from the root. -/
abbrev Path := List String

namespace Path

def root : Path := []

/-- This path with a segment appended. -/
def child (path : Path) (segment : String) : Path := path ++ [segment]

/-- A path as it is displayed: its segments, each quoted where it needs to be. -/
def display (path : Path) : String :=
  String.ofList ([' '].intercalate (path.map quote))

end Path
end Nightshade.Schema
