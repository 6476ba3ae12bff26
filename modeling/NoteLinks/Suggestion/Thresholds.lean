/-
# Thresholds

How many suggestions are made is a matter of two thresholds: the least score,
and the greatest number of links for one note. They are chosen by how eager the
search shall be.
-/
import NoteLinks.Text.Basic

namespace NoteLinks

/-- The least score and the greatest number of suggestions for a note. -/
structure Thresholds where
  minScore : Float
  maxLinks : Nat

/-- How eager the search for links is. -/
inductive Eagerness
  | conservative
  | balanced
  | aggressive
  deriving DecidableEq, Repr

namespace Eagerness

/-- All degrees of eagerness, from the least. -/
def all : List Eagerness := [.conservative, .balanced, .aggressive]

/-- The name of a degree. -/
def name : Eagerness → Text
  | conservative => "conservative".toList
  | balanced => "balanced".toList
  | aggressive => "aggressive".toList

/-- The thresholds that go with a degree. -/
def thresholds : Eagerness → Thresholds
  | conservative => ⟨0.7, 5⟩
  | balanced => ⟨0.5, 10⟩
  | aggressive => ⟨0.3, 20⟩

end Eagerness

end NoteLinks
