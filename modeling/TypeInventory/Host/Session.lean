import TypeInventory.File.Tree
import TypeInventory.Host

set_option relaxedAutoImplicit false
set_option autoImplicit false

/-!
# Sessions

A session is a host without a machine: a tree of files together with what has been logged and put
out. It is what statements about runs are made of. No process runs in a session, and its clock
stands still.

## Main definitions

* `Session` — the state of a session.
* The instance of `Host` for `StateM Session`.
-/

namespace TypeInventory

/-- A tree of files with what has been logged and put out. -/
structure Session where
  /-- The files. -/
  files : FileTree := ∅
  /-- The least level that is shown. -/
  level : LogLevel := .debug
  /-- The file that the log is written into, if there is one. -/
  logPlace? : Option Place := none
  /-- The entries that were shown, last one first. -/
  shown : List LogEntry := []
  /-- The lines that were put out, last one first. -/
  printed : List String := []

namespace Session

/-- The time at which everything happens. -/
def time : String := "2000-01-01T00:00:00Z"

/-- The entries that were shown, first one first. -/
def log (s : Session) : List LogEntry :=
  s.shown.reverse

/-- The lines that were put out, first one first. -/
def output (s : Session) : List String :=
  s.printed.reverse

/-- The text of the log. -/
def logText (s : Session) : String :=
  s.log.foldl (fun text entry => text ++ entry.line time) ""

/-- The session after an entry. -/
def tell (s : Session) (entry : LogEntry) : Session :=
  if entry.reaches s.level then
    { s with
      shown := entry :: s.shown
      files :=
        match s.logPlace? with
        | some place => s.files.extend place (entry.line time).toUTF8
        | none => s.files }
  else
    s

/-- Changes the files, unless that fails. -/
def change (f : FileTree → Except FileFault FileTree) : StateM Session (Except FileFault Unit) :=
  fun s =>
    match f s.files with
    | .ok files => (.ok (), { s with files })
    | .error e => (.error e, s)

/-- Starts a log with the given least level and file. -/
def start (level : LogLevel) (path : String) : StateM Session (Except FileFault Unit) := fun s =>
  match s.files.writablePlace path with
  | .ok place =>
    (.ok (), { s with level, files := s.files.put place .empty, logPlace? := some place })
  | .error e => (.error e, { s with level, logPlace? := none })

end Session

instance : Host (StateM Session) where
  isFile path := fun s => (s.files.isFile path, s)
  isDirectory path := fun s => (s.files.isDirectory path, s)
  readFile path := fun s => (s.files.read path, s)
  writeFile path text := Session.change fun files => files.write path text.toUTF8
  createDirectory path := Session.change fun files => files.createDirectory path
  executableOf? _ := pure none
  startLog := Session.start
  log entry := modify fun s => s.tell entry
  printLine line := modify fun s => { s with printed := line :: s.printed }

end TypeInventory
