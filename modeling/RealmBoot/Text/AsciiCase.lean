/-!
# Letter Case in ASCII

Attribute names and file name extensions are compared without regard to the case of the letters
`A` to `Z`; all other characters, letters of other alphabets included, stand for themselves.
-/

namespace RealmBoot.Text

/-- Equality up to the case of the letters `A` to `Z`. -/
def sameLetters (a b : String) : Bool :=
  a.toList.map Char.toLower == b.toList.map Char.toLower

end RealmBoot.Text
