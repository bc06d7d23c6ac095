import TypeInventory.Diagnostic
import TypeInventory.File.Path

set_option relaxedAutoImplicit false
set_option autoImplicit false

/-!
# The host

What a run needs of the host that it runs on: files, the log, lines of output and running
processes. A run is written for any host; the operations of a host are all it may use.

## Main definitions

* `Host` — the operations of a host.
* `createDirectories` — a directory with the directories around it.
-/

namespace TypeInventory

/-- The operations of a host. Paths are as the host understands them. -/
class Host (m : Type → Type) where
  /-- Whether a path leads to a file. -/
  isFile : String → m Bool
  /-- Whether a path leads to a directory. -/
  isDirectory : String → m Bool
  /-- The contents of a file. -/
  readFile : String → m (Except FileFault ByteArray)
  /-- Writes a text into a file, in place of what may be there. -/
  writeFile : String → String → m (Except FileFault Unit)
  /-- Creates a directory in one that exists. -/
  createDirectory : String → m (Except FileFault Unit)
  /-- The executable of the running process of a given name. -/
  executableOf? : String → m (Option String)
  /-- From now on, shows only entries of at least the given level, and also writes them into a
  file, which starts empty. Without that file the entries are shown all the same. -/
  startLog : LogLevel → String → m (Except FileFault Unit)
  /-- Tells the log. -/
  log : LogEntry → m Unit
  /-- Puts out a line. -/
  printLine : String → m Unit

/-- A computation that may fail uses the host as it is. -/
instance {ε : Type} {m : Type → Type} [Monad m] [Host m] : Host (ExceptT ε m) where
  isFile path := ExceptT.lift (Host.isFile path)
  isDirectory path := ExceptT.lift (Host.isDirectory path)
  readFile path := ExceptT.lift (Host.readFile path)
  writeFile path text := ExceptT.lift (Host.writeFile path text)
  createDirectory path := ExceptT.lift (Host.createDirectory path)
  executableOf? name := ExceptT.lift (Host.executableOf? name)
  startLog level path := ExceptT.lift (Host.startLog level path)
  log entry := ExceptT.lift (Host.log entry)
  printLine line := ExceptT.lift (Host.printLine line)

/-! ## Directories -/

variable {m : Type → Type} [Monad m] [Host m]

/-- Creates a directory in one that exists, unless it exists itself. -/
def ensureDirectory (path : String) : m (Except FileFault Unit) := do
  match ← Host.createDirectory path with
  | .ok () => return .ok ()
  | .error e => return if ← Host.isDirectory path then .ok () else .error e

/-- Creates a directory, and first those of at most `levels` directories around it that are
missing. -/
def createDirectoriesWithin : Nat → String → m (Except FileFault Unit)
  | 0, _ => return .error .notFound
  | levels + 1, path => do
    if path.isEmpty then
      return .ok ()
    match ← ensureDirectory path, Path.parent? path with
    | .error .notFound, some parent =>
      match ← createDirectoriesWithin levels parent with
      | .ok () => ensureDirectory path
      | .error e => return .error e
    | result, _ => return result

/-- Creates a directory and the directories around it, as far as they are missing. -/
def createDirectories (path : String) : m (Except FileFault Unit) :=
  createDirectoriesWithin (path.length + 1) path

end TypeInventory
