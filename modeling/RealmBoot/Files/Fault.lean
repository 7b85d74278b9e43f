/-!
# Faults of File Access

The ways in which looking at or changing files can fail, and the texts messages give for them.
Faults the operating system reports carry its number.
-/

namespace RealmBoot

/-- Why an access to a file failed. -/
inductive Fault where
  /-- A name on the path does not exist. -/
  | notFound
  /-- Something is there already. -/
  | alreadyExists
  /-- A name on the way is not a directory. -/
  | notDirectory
  /-- A directory stands where a file is wanted. -/
  | isDirectory
  /-- The root directory cannot be removed. -/
  | busy
  /-- The path ends in a `.` where a name is wanted. -/
  | invalidArgument
  /-- A directory that is to be removed holds something. -/
  | notEmpty
  /-- A name or the whole path is too long. -/
  | nameTooLong
  /-- Links lead on and on. -/
  | tooManyLinks
  /-- The path contains the null character. -/
  | nullInName
  /-- The empty path has no absolute form. -/
  | emptyPath
  /-- The bytes of the file are not text. -/
  | notText
  /-- The source of a copy is not a file. -/
  | notCopyable
deriving DecidableEq, Repr, Inhabited

/-- The text of a fault. -/
def Fault.message : Fault → String
  | notFound => "No such file or directory (os error 2)"
  | alreadyExists => "File exists (os error 17)"
  | notDirectory => "Not a directory (os error 20)"
  | isDirectory => "Is a directory (os error 21)"
  | busy => "Device or resource busy (os error 16)"
  | invalidArgument => "Invalid argument (os error 22)"
  | notEmpty => "Directory not empty (os error 39)"
  | nameTooLong => "File name too long (os error 36)"
  | tooManyLinks => "Too many levels of symbolic links (os error 40)"
  | nullInName => "file name contained an unexpected NUL byte"
  | emptyPath => "cannot make an empty path absolute"
  | notText => "stream did not contain valid UTF-8"
  | notCopyable => "the source path is neither a regular file nor a symlink to a regular file"

end RealmBoot
