import Std.Time.Format
import TypeInventory.Command

set_option relaxedAutoImplicit false
set_option autoImplicit false

/-!
# The program

The command on the machine that it runs on.

## Main definitions

* `Machine` — computations on the machine, which carry the state of the log.
* `main` — the program.
-/

namespace TypeInventory

/-- The state of the log: the least level that is shown, and the file. -/
structure LogState where
  /-- The least level that is shown. -/
  level : LogLevel := .info
  /-- The open file, if there is one. -/
  handle? : Option IO.FS.Handle := none

/-- Computations on the machine. -/
abbrev Machine : Type → Type :=
  StateT LogState IO

namespace Machine

/-- What an error of the machine is for a run. -/
def fileFault : IO.Error → FileFault
  | .noFileOrDirectory _ _ _ => .notFound
  | .alreadyExists _ _ _ => .alreadyExists
  | .noSuchThing _ _ _ => .notFound
  | .inappropriateType (some _) 20 _ => .notADirectory
  | .inappropriateType (some _) _ _ => .isADirectory
  | .invalidArgument (some _) 36 _ => .nameTooLong
  | e => .other (toString e)

/-- Catches an error of the machine. -/
def attempt {α : Type} (action : IO α) : Machine (Except FileFault α) := fun state => do
  match ← action.toBaseIO with
  | .ok a => return (.ok a, state)
  | .error e => return (.error (fileFault e), state)

/-- What a path leads to: a directory, something else, or nothing. -/
def kindOf? (path : String) : IO (Option IO.FS.FileType) := do
  let entry : IO.FS.DirEntry := { root := ".", fileName := path }
  match ← entry.path.metadata.toBaseIO with
  | .ok data => return some data.type
  | .error _ => return none

/-- The time as the log shows it. -/
def timeText : IO String := do
  let now ← Std.Time.Timestamp.now
  let here := Std.Time.DateTime.ofTimestamp now Std.Time.TimeZone.ZoneRules.UTC
  return here.format "uuuu-MM-dd'T'HH:mm:ss'Z'"

/-- A text without blanks at its end. -/
def trimmedEnd (s : String) : String :=
  String.ofList (s.toList.reverse.dropWhile Char.isWhitespace).reverse

/-- Whether a running process has a given name: that of its executable without ending, or that by
which the system knows it. -/
def processHasName (name number executable : String) : IO Bool := do
  if Path.stem? executable = some name then
    return true
  match ← (IO.FS.readFile s!"/proc/{number}/comm").toBaseIO with
  | .ok known => return trimmedEnd known == name
  | .error _ => return false

/-- The executable of a running process of a given name. -/
def findExecutable (name : String) : IO (Option String) := do
  let processes : IO.FS.DirEntry := { root := "/", fileName := "proc" }
  match ← processes.path.readDir.toBaseIO with
  | .error _ => return none
  | .ok entries =>
    for entry in entries do
      if entry.fileName.all Char.isDigit then
        match ← (IO.FS.realPath s!"/proc/{entry.fileName}/exe").toBaseIO with
        | .error _ => pure ()
        | .ok executable =>
          if ← processHasName name entry.fileName executable.toString then
            return some executable.toString
    return none

/-- Shows an entry on standard error and in the file of the log. -/
def tell (entry : LogEntry) : Machine Unit := do
  let state ← get
  if entry.reaches state.level then
    let line := entry.line (← timeText)
    IO.eprint line
    match state.handle? with
    | some handle =>
      handle.putStr line
      handle.flush
    | none => pure ()

/-- Starts the log. -/
def start (level : LogLevel) (path : String) : Machine (Except FileFault Unit) := do
  match ← attempt (IO.FS.Handle.mk path .write) with
  | .ok handle =>
    set ({ level, handle? := some handle } : LogState)
    return .ok ()
  | .error e =>
    set ({ level, handle? := none } : LogState)
    return .error e

end Machine

instance : Host Machine where
  isFile path := do return (← Machine.kindOf? path) == some .file
  isDirectory path := do return (← Machine.kindOf? path) == some .dir
  readFile path := Machine.attempt (IO.FS.readBinFile path)
  writeFile path text := Machine.attempt (IO.FS.writeFile path text)
  createDirectory path := Machine.attempt (IO.FS.createDir path)
  executableOf? name := Machine.findExecutable name
  startLog := Machine.start
  log := Machine.tell
  printLine line := IO.println line

end TypeInventory

open TypeInventory in
/-- The program: exit code 0 if all went well, 1 if the module could not be dumped, 2 if the
arguments are faulty. -/
def main (args : List String) : IO UInt32 := do
  match Request.ofArguments args with
  | .error e =>
    IO.eprintln (e.message ++ "\n\nFor more information, try '--help'.")
    return usageExitCode
  | .ok .help =>
    IO.println helpText
    return 0
  | .ok .version =>
    IO.println versionText
    return 0
  | .ok (.dump c) =>
    let temporary := (← IO.getEnv "TMPDIR").getD "/tmp"
    let run : Machine UInt32 := c.run temporary
    return (← run.run {}).1
