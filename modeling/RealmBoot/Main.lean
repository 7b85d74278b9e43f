import RealmBoot.CommandLine.Program
import RealmBoot.CommandLine.Scene

/-!
# Trying the Program Out

Carries a command line out in a scene that is read from the standard input, and shows what the
program writes there. Nothing outside the program changes.
-/

namespace RealmBoot

namespace CommandLine

/-- All that is left to read. -/
partial def remainingText (input : IO.FS.Stream) : IO String := do
  let line ← input.getLine
  if line.isEmpty then return ""
  return line ++ (← remainingText input)

/-- Carries a command line out in the scene on the standard input. -/
def tryOut (args : List String) : IO UInt32 := do
  match Scene.parse (← remainingText (← IO.getStdin)) with
  | .error e =>
    IO.eprintln e.message
    return usageExitCode.toUInt32
  | .ok scene =>
    let (code, world) := execute scene.surroundings args scene.world
    IO.print world.output
    IO.eprint world.errors
    return code.toUInt32

end CommandLine

end RealmBoot

/-- The command line of the program. -/
def main (args : List String) : IO UInt32 := RealmBoot.CommandLine.tryOut args
