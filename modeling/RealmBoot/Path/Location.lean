import RealmBoot.OrderedSet
import RealmBoot.Path.Basic

/-!
# Locations

The location of an archive is its absolute path in lexically normal form: the names from the root
on, with every `.` dropped and every `..` undoing the name before it. Links are not resolved, so an
archive that is reached through a link keeps the name of the link. Locations are ordered name by
name, not by their text: `a/b` comes before `a-b`.
-/

namespace RealmBoot

/-- An absolute path in lexically normal form. -/
structure Location where
  /-- The names on the way from the root. -/
  names : List String
deriving DecidableEq, Inhabited, Repr

namespace Location

instance : LT Location := ⟨fun a b => a.names < b.names⟩

instance : DecidableLT Location := fun a b => inferInstanceAs (Decidable (a.names < b.names))

instance : StrictOrder Location where
  irrefl a := StrictOrder.irrefl a.names
  trans h₁ h₂ := StrictOrder.trans (α := List String) h₁ h₂
  eq_of_not_lt {a b} h₁ h₂ := by
    cases a; cases b
    exact congrArg mk (StrictOrder.eq_of_not_lt h₁ h₂)

/-- Takes one step from a place given by its names; nothing lies above the root. -/
def step (names : List String) (segment : String) : List String :=
  if segment = "." then names
  else if segment = ".." then names.dropLast
  else names ++ [segment]

/-- The location a path denotes for a process working in `workDir`, before links are looked at.
The empty path denotes none. -/
def ofPath? (workDir : Location) (p : Path) : Option Location :=
  if p.text = "" then none
  else some ⟨p.segments.foldl step (if p.isAbsolute then [] else workDir.names)⟩

/-- The absolute path of a location. -/
def path (l : Location) : Path := ⟨"/" ++ Text.joined "/" l.names⟩

/-- The text of a location. -/
def text (l : Location) : String := l.path.text

/-- The last name; the root has an empty one. -/
def fileName (l : Location) : String := l.names.getLast?.getD ""

/-- The location as a `file` URI. -/
def uri (l : Location) : String := "file://" ++ l.text

instance : ToString Location := ⟨Location.text⟩

/-- Whether a text can be a name on a path. -/
def IsName (s : String) : Prop := s ≠ "" ∧ s ≠ "." ∧ s ≠ ".." ∧ '/' ∉ s.toList

end Location

end RealmBoot
