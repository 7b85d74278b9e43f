import RealmBoot.Path.Basic

/-!
# Surroundings

What a run of the program finds around it and cannot change: where it is installed, the directories
it is given, the time, and the log filter asked for from outside.
-/

namespace RealmBoot

/-- What surrounds a run of the program. -/
structure Surroundings where
  /-- The path of the running program. -/
  executable : Path
  /-- The home directory of the user. -/
  homeDir? : Option Path
  /-- The directory for temporary files. -/
  tempDir : Path
  /-- The present date and time of day. -/
  time : String
  /-- The present date. -/
  date : String
  /-- The log filter asked for. -/
  logFilter? : Option String
deriving Inhabited

end RealmBoot
