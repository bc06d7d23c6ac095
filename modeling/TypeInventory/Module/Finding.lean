import TypeInventory.File.Path
import TypeInventory.Host
import TypeInventory.Image

set_option relaxedAutoImplicit false
set_option autoImplicit false

/-!
# Finding modules

Assemblies that a module refers to lie beside it. The modules of a running program lie in a folder
beside its executable.

## Main definitions

* `siblingOf` — the module of an assembly beside others.
* `managedFolderBeside`, `managedFolderOf` — the folder of modules beside an executable, and that
  of a running process.
* `loadFile` — loading the module in a file.
-/

namespace TypeInventory

variable {m : Type → Type} [Monad m] [Host m]

/-- The file in a directory that holds the assembly of a given name, if there is one. -/
def siblingOf (directory name : String) : m (Option String) := do
  let path := Path.join directory (name ++ moduleEnding)
  return if ← Host.isFile path then some path else none

/-- Where the modules of the program `name` may lie in a directory, best place first. -/
def managedFolders (directory name : String) : List String :=
  [Path.join (Path.join directory (name ++ "_Data")) "Managed", Path.join directory "Managed"]

/-- The first of some paths that leads to a directory. -/
def firstDirectory : List String → m (Option String)
  | [] => return none
  | path :: paths => do
    if ← Host.isDirectory path then return some path else firstDirectory paths

/-- The folder of the modules of the program `name` whose executable lies in a directory. -/
def managedFolderBeside (directory name : String) : m (Option String) :=
  firstDirectory (managedFolders directory name)

/-- The folder of the modules of the running process `name`. -/
def managedFolderOf (name : String) : m (Option String) := do
  match ← Host.executableOf? name with
  | none =>
    Host.log ⟨.warn, s!"Process {name} not found"⟩
    return none
  | some executable =>
    Host.log ⟨.debug, s!"Process {name} runs {executable}"⟩
    match Path.parent? executable with
    | none => return none
    | some directory => managedFolderBeside directory name

/-! ## Loading from files -/

/-- The contents of a file. -/
def fileBytes (path : String) : ExceptT Fault m ByteArray := do
  match ← Host.readFile path with
  | .ok data => return data
  | .error e => throw (.file e)

/-- The places beside a module of the assemblies that it refers to, as far as they are there. -/
def siblingsOf (directory : String) (opened : OpenModule) : m (List (String × String)) :=
  (opened.references.filterMap fun r => r.name.toOption).filterMapM fun name => do
    return (← siblingOf directory name).map (name, ·)

/-- Loads the module in a file. References are looked for beside it. -/
def loadFile (path : String) : ExceptT Fault m LoadedModule := do
  unless ← Host.isFile path do
    throw (.moduleNotFound path)
  let data ← fileBytes path
  let opened ← liftExcept (OpenModule.ofImage data)
  let siblings ← siblingsOf ((Path.parent? path).getD ".") opened
  let (loaded, entries) := opened.load (some fun name => siblings.lookup name)
  entries.forM Host.log
  return loaded
where
  /-- A result as a step. -/
  liftExcept {α : Type} (x : Except Fault α) : ExceptT Fault m α :=
    ExceptT.mk (pure x)

end TypeInventory
