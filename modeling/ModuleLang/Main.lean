import ModuleLang.CommandLine.Run

/-!
The program: real files, and the settings of the user who runs it.
-/

open ModuleLang

/-- The text of a file that is there. -/
def readPresentFile (path : String) : IO FileContent := do
  try return .text (← IO.FS.readFile path)
  catch _ => return .unreadable

/-- What a path leads to. A path that cannot be resolved leads to nothing. -/
def readTextFile (path : String) : IO FileContent := do
  let isPresent ← try
      let _ ← IO.FS.realPath path
      pure true
    catch _ => pure false
  if isPresent then readPresentFile path else return .missing

/-- The directory for the settings of all programs. -/
def settingsDirectory : IO String := do
  match ← IO.getEnv "XDG_CONFIG_HOME" with
  | some directory => if directory.startsWith "/" then return directory
  | none => pure ()
  return (← IO.getEnv "HOME").getD "" ++ "/.config"

def main (arguments : List String) : IO UInt32 := do
  let finish ← CommandLine.run readTextFile (CommandLine.settingsPath (← settingsDirectory)) arguments
  IO.print finish.output
  return UInt32.ofNat finish.code.number
