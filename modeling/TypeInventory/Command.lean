import TypeInventory.Command.Arguments
import TypeInventory.Command.Summary

set_option relaxedAutoImplicit false
set_option autoImplicit false

/-!
# The command

The command finds a module, dumps it and tells what came of it: as a line of output for other
programs, or as warnings in the log. Everything it does is told to the log.

## Main definitions

* `Target`, `CommandLine.target` — what is dumped, and where to.
* `CommandFault` — why the command failed.
* `CommandLine.run` — the command.
-/

namespace TypeInventory

/-! ## Faults -/

/-- Why the command failed. -/
inductive CommandFault where
  /-- Neither a path nor a process is given. -/
  | noInput
  /-- There is no folder of modules of a process. -/
  | noFolder (process : String)
  /-- A module could not be dumped. -/
  | dump (path : String) (cause : Fault)
deriving DecidableEq, Repr

/-- A fault with what caused it. Faults of files and images are their own causes. -/
def Fault.chain (e : Fault) : String :=
  match e with
  | .file _ | .image _ => s!"{e}: {e}"
  | _ => e.message

/-- What is shown for a failed command. -/
def CommandFault.message : CommandFault → String
  | noInput => "either a module path or --process is required"
  | noFolder process => s!"no managed folder found for process {process}"
  | dump path cause => s!"failed to dump {path}: {cause.chain}"

/-! ## Targets -/

/-- What is dumped, and where to. -/
structure Target where
  /-- The path of the module. -/
  path : String
  /-- The directory of the output. -/
  output : String
deriving DecidableEq, Repr

namespace CommandLine

/-- The file name of the module in a folder. -/
def moduleName (c : CommandLine) : String :=
  (c.value? .module).getD defaultModule

/-- What types and methods are selected. -/
def filters (c : CommandLine) : Filters :=
  .ofInput (c.value? .typeName) (c.value? .methodName)

/-- The least level of the log that is shown. -/
def logLevel (c : CommandLine) : LogLevel :=
  if c.verbose then .debug else .info

/-- The directory of the output for a module: the given one, or one that is named after the
process or the module. -/
def outputFor (c : CommandLine) (path : String) : String :=
  match c.value? .output with
  | some output => output
  | none =>
    Path.join "Parsed" <|
      match c.value? .process with
      | some process => process
      | none => (Path.stem? path).getD "module"

variable {m : Type → Type} [Monad m] [Host m]

/-- The path of the module: the given one, or that of the module in the given folder or in the
folder of the given process. -/
def modulePath (c : CommandLine) : ExceptT CommandFault m String := do
  match c.path?, c.value? .process with
  | some path, _ =>
    return if ← Host.isDirectory path then Path.join path c.moduleName else path
  | none, some process =>
    match ← ExceptT.lift (managedFolderOf process) with
    | some folder => return Path.join folder c.moduleName
    | none => throw (.noFolder process)
  | none, none => throw .noInput

/-- What is dumped, and where to. -/
def target (c : CommandLine) : ExceptT CommandFault m Target := do
  let path ← c.modulePath
  return ⟨path, c.outputFor path⟩

/-! ## Running -/

/-- Tells what is missing from the output. -/
def warnAbout (summary : DumpSummary) : m Unit := do
  summary.outcome.failures.forM fun failure =>
    Host.log ⟨.warn, s!"Not written: {failure.path} ({failure.cause.message})"⟩
  let unresolved := errorCount summary.diagnostics
  if 0 < unresolved then
    Host.log ⟨.warn,
      s!"{unresolved} type(s) could not be resolved and are missing from the output"⟩

/-- Dumps the module and tells what came of it. -/
def execute (c : CommandLine) : ExceptT CommandFault m Unit := do
  let target ← c.target
  let result ← ExceptT.lift (dump loadFile target.output target.path c.filters).run
  match result with
  | .error e => throw (.dump target.path e)
  | .ok summary =>
    if c.json then
      summary.json.lines.forM Host.printLine
    else
      warnAbout summary

/-- Starts the log. -/
def openLog (c : CommandLine) (temporary : String) : m Unit := do
  let path := (c.value? .logFile).getD (Path.join temporary "typedump.log")
  match ← Host.startLog c.logLevel path with
  | .ok () => Host.log ⟨.debug, s!"Logging to {path}"⟩
  | .error e =>
    Host.log ⟨.warn, s!"Logging to stderr only, {path} could not be opened: {e.message}"⟩

/-- Runs the command; gives its exit code. Without a file of its own, the log goes into the
directory `temporary`. -/
def run (c : CommandLine) (temporary : String) : m UInt32 := do
  c.openLog temporary
  match ← c.execute.run with
  | .ok () => return 0
  | .error e =>
    Host.log ⟨.error, e.message⟩
    return 1

end CommandLine

/-- The exit code for faulty arguments. -/
def usageExitCode : UInt32 := 2

/-- What is shown for a request to tell about the arguments. -/
def helpText : String :=
  "\n".intercalate [
    "typedump - per-type method and field reports for .NET modules",
    "",
    "Usage: typedump [OPTIONS] [PATH]",
    "",
    "Arguments:",
    "  [PATH]  Module file, or a managed folder containing --module",
    "",
    "Options:",
    "      --process <NAME>      Locate the managed folder of this running process",
    "      --module <FILE_NAME>  Module file name inside the managed folder"
      ++ " [default: " ++ defaultModule ++ "]",
    "      --class <NAME>        Keep only types whose name contains this text",
    "      --method <NAME>       Keep only methods whose name contains this text",
    "  -o, --output <DIR>        Output directory"
      ++ " [default: Parsed/<process name or module stem>]",
    "      --json                Print the run summary as JSON on stdout",
    "  -v, --verbose             Enable verbose (debug-level) logging output",
    "      --log-file <FILE>     Log file, truncated at start"
      ++ " [default: <temp dir>/typedump.log]",
    "  -h, --help                Print help",
    "  -V, --version             Print version"]

/-- What is shown for a request to tell the version. -/
def versionText : String := "typedump 0.1.0"

end TypeInventory
