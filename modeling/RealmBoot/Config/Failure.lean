import RealmBoot.Files.Fault
import RealmBoot.Path.Basic

/-!
# Configuration Errors

What can go wrong while a configuration is loaded or a setting is asked for.
-/

namespace RealmBoot

/-- Why there is no usable configuration. -/
inductive ConfigError where
  /-- The file does not exist. -/
  | fileNotFound (path : Path)
  /-- There is something else in place of the file. -/
  | notAFile (path : Path)
  /-- The file cannot be read. -/
  | unreadable (path : Path) (fault : Fault)
  /-- The text is not a configuration. -/
  | malformed
  /-- A setting has a value that means nothing. -/
  | invalidValue (field value : String)
  /-- A setting that is needed is missing. -/
  | missingField (field : String)
deriving DecidableEq, Repr

/-- The text of a configuration error. What is wrong with a malformed text is for the reader of the
text to say, so nothing follows the colon. -/
def ConfigError.message : ConfigError → String
  | fileNotFound path => "Configuration file not found: " ++ path.quoted
  | notAFile path => "Path is not a regular file: " ++ path.quoted
  | unreadable path fault => "Failed to read configuration " ++ path.quoted ++ ": " ++ fault.message
  | malformed => "Failed to parse configuration: "
  | invalidValue field value => "Invalid value for field '" ++ field ++ "': " ++ value
  | missingField field => "Missing required setting: " ++ field

end RealmBoot
