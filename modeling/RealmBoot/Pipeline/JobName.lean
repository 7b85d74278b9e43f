import RealmBoot.Text.Blank
import RealmBoot.Text.Pieces

/-!
# Job Names

A job name is a path of segments separated by slashes. Each segment is checked on its own, without
the blanks around it.
-/

namespace RealmBoot

namespace JobName

/-- Why a segment is rejected. -/
inductive Rejection where
  /-- It is blank. -/
  | empty
  /-- It stands for a directory. -/
  | reserved (segment : String)
  /-- It has a character that is not safe in a name. -/
  | unsafeCharacter (c : Char)
deriving DecidableEq, Repr

/-- The text of a rejection. -/
def Rejection.message : Rejection → String
  | empty => "no name is specified"
  | reserved segment => "'" ++ segment ++ "' is not an allowed name"
  | unsafeCharacter c => "'" ++ c.toString ++ "' is an unsafe character"

/-- The characters that no segment may have. -/
def unsafeCharacters : List Char :=
  ['?', '*', '/', '\\', '%', '!', '@', '#', '$', '^', '&', '|', '<', '>', '[', ']', ';', ':']

/-- The segments of a job name. -/
def segments (name : String) : List String := Text.piecesOf '/' name

/-- Why a segment is rejected, if it is. -/
def rejection? (segment : String) : Option Rejection :=
  let cs := Text.trimChars segment.toList
  if cs.isEmpty then some .empty
  else if cs = ['.'] || cs = ['.', '.'] then some (.reserved (String.ofList cs))
  else (cs.find? fun c => unsafeCharacters.contains c).map .unsafeCharacter

/-- The first segment of a job name that is rejected, and why. -/
def firstRejection? (name : String) : Option (String × Rejection) :=
  (segments name).findSome? fun s => (rejection? s).map (s, ·)

end JobName

end RealmBoot
