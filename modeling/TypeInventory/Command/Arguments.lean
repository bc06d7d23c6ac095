set_option relaxedAutoImplicit false
set_option autoImplicit false

/-!
# Arguments of the command

The command takes options, most of them with a value, and one path. An argument that starts with
two dashes names an option, one that starts with a single dash is a row of letters of options; two
dashes alone end the options. No option may be given twice.

## Main definitions

* `ValueOption` — the options with a value.
* `CommandLine`, `Request` — what the arguments ask for.
* `UsageFault` — what can be wrong with arguments.
* `Request.ofArguments` — reading the arguments.
-/

namespace TypeInventory

/-- The options that take a value. -/
inductive ValueOption where
  /-- The running process whose modules are wanted. -/
  | process
  /-- The file name of the module in its folder. -/
  | module
  /-- The text in names of types. -/
  | typeName
  /-- The text in names of methods. -/
  | methodName
  /-- The directory of the output. -/
  | output
  /-- The file of the log. -/
  | logFile
deriving DecidableEq, Repr, Inhabited

namespace ValueOption

/-- All options that take a value. -/
def all : List ValueOption :=
  [process, module, typeName, methodName, output, logFile]

/-- The name of an option, as it stands behind two dashes. -/
def name : ValueOption → String
  | process => "process"
  | module => "module"
  | typeName => "class"
  | methodName => "method"
  | output => "output"
  | logFile => "log-file"

/-- Whether the value of an option is a path; a path must not be empty. -/
def isPath : ValueOption → Bool
  | output | logFile => true
  | _ => false

/-- The option of a given name. -/
def ofName? (s : String) : Option ValueOption :=
  all.find? fun o => o.name == s

end ValueOption

/-- The name of the module that is taken from a folder if no other is given. -/
def defaultModule : String := "Assembly-CSharp.dll"

/-- What the arguments of a dump say. -/
structure CommandLine where
  /-- The values of options, last one first. -/
  values : List (ValueOption × String) := []
  /-- The path of a module or of a folder of modules. -/
  path? : Option String := none
  /-- Whether to put out a summary for other programs. -/
  json : Bool := false
  /-- Whether to show all of the log. -/
  verbose : Bool := false
deriving DecidableEq, Repr, Inhabited

/-- The value of an option. -/
def CommandLine.value? (c : CommandLine) (o : ValueOption) : Option String :=
  c.values.lookup o

/-- What the arguments ask for. -/
inductive Request where
  /-- To tell about the arguments. -/
  | help
  /-- To tell the version. -/
  | version
  /-- To dump a module. -/
  | dump (c : CommandLine)
deriving DecidableEq, Repr

/-- What can be wrong with arguments. -/
inductive UsageFault where
  /-- An argument that is not understood. -/
  | unexpected (argument : String)
  /-- An option without its value. -/
  | missingValue (name : String)
  /-- A path that is empty. -/
  | emptyPath (name : String)
  /-- An option that takes no value and is given one. -/
  | needlessValue (name value : String)
  /-- An option that is given twice. -/
  | repeated (name : String)
deriving DecidableEq, Repr

/-- What is shown for faulty arguments. -/
def UsageFault.message : UsageFault → String
  | unexpected argument => s!"error: unexpected argument '{argument}' found"
  | missingValue name => s!"error: a value is required for '{name}' but none was supplied"
  | emptyPath name => s!"error: a value is required for '{name}' but none was supplied"
  | needlessValue name value =>
    s!"error: unexpected value '{value}' for '{name}' found; no more were expected"
  | repeated name => s!"error: the argument '{name}' cannot be used multiple times"

namespace CommandLine

/-! ## Taking up -/

/-- Takes up the value of an option. -/
def setValue (c : CommandLine) (o : ValueOption) (value : String) :
    Except UsageFault CommandLine :=
  if (c.value? o).isSome then
    .error (.repeated ("--" ++ o.name))
  else if o.isPath && value.isEmpty then
    .error (.emptyPath ("--" ++ o.name))
  else
    .ok { c with values := (o, value) :: c.values }

/-- Takes up the wish for a summary for other programs. -/
def setJson (c : CommandLine) : Except UsageFault CommandLine :=
  if c.json then .error (.repeated "--json") else .ok { c with json := true }

/-- Takes up the wish for all of the log. -/
def setVerbose (c : CommandLine) : Except UsageFault CommandLine :=
  if c.verbose then .error (.repeated "--verbose") else .ok { c with verbose := true }

/-- Takes up the path. -/
def setPath (c : CommandLine) (path : String) : Except UsageFault CommandLine :=
  if c.path?.isSome then .error (.unexpected path)
  else if path.isEmpty then .error (.emptyPath "[PATH]")
  else .ok { c with path? := some path }

end CommandLine

/-! ## Single arguments -/

/-- What comes of an argument. -/
inductive ArgumentStep where
  /-- The next argument follows. -/
  | more (c : CommandLine)
  /-- The value of an option follows. -/
  | awaiting (c : CommandLine) (o : ValueOption)
  /-- Only paths follow. -/
  | pathsOnly (c : CommandLine)
  /-- Nothing else counts. -/
  | stop (r : Request)

namespace ArgumentStep

/-- Goes on if taking up succeeds. -/
def ofResult (x : Except UsageFault CommandLine) : Except UsageFault ArgumentStep :=
  x.map more

/-- An option without value that is given by name. -/
def flag (name : String) (value? : Option String) (step : Except UsageFault ArgumentStep) :
    Except UsageFault ArgumentStep :=
  match value? with
  | some value => .error (.needlessValue ("--" ++ name) value)
  | none => step

/-- An option that is given by name, perhaps with its value behind an equality sign. -/
def ofName (c : CommandLine) (name : String) (value? : Option String) :
    Except UsageFault ArgumentStep :=
  match name with
  | "json" => flag name value? (ofResult c.setJson)
  | "verbose" => flag name value? (ofResult c.setVerbose)
  | "help" => flag name value? (.ok (stop .help))
  | "version" => flag name value? (.ok (stop .version))
  | _ =>
    match ValueOption.ofName? name, value? with
    | some o, some value => ofResult (c.setValue o value)
    | some o, none => .ok (awaiting c o)
    | none, _ => .error (.unexpected ("--" ++ name))

/-- A row of letters of options. What stands behind the letter of an option with a value is that
value, without an equality sign in front. -/
def ofLetters (c : CommandLine) : List Char → Except UsageFault ArgumentStep
  | [] => .ok (more c)
  | 'v' :: letters =>
    match c.setVerbose with
    | .ok c => ofLetters c letters
    | .error e => .error e
  | 'h' :: _ => .ok (stop .help)
  | 'V' :: _ => .ok (stop .version)
  | 'o' :: [] => .ok (awaiting c .output)
  | 'o' :: '=' :: rest => ofResult (c.setValue .output (String.ofList rest))
  | 'o' :: rest => ofResult (c.setValue .output (String.ofList rest))
  | letter :: _ => .error (.unexpected (String.ofList ['-', letter]))

end ArgumentStep

/-- The forms of arguments. -/
inductive ArgumentForm where
  /-- The end of options. -/
  | endOfOptions
  /-- An option by name, perhaps with a value. -/
  | named (name : String) (value? : Option String)
  /-- A row of letters. -/
  | letters (cs : List Char)
  /-- Anything else. -/
  | plain (s : String)
deriving DecidableEq, Repr

/-- The form of an argument. A dash alone is nothing special. -/
def ArgumentForm.ofString (s : String) : ArgumentForm :=
  match s.toList with
  | ['-', '-'] => .endOfOptions
  | '-' :: '-' :: rest =>
    let name := rest.takeWhile (· != '=')
    match rest.dropWhile (· != '=') with
    | [] => .named (String.ofList name) none
    | _ :: value => .named (String.ofList name) (some (String.ofList value))
  | '-' :: c :: cs => .letters (c :: cs)
  | _ => .plain s

/-- What comes of an argument. It is a value if an option waits for one. -/
def ArgumentStep.ofArgument (c : CommandLine) (waiting? : Option ValueOption) (arg : String) :
    Except UsageFault ArgumentStep :=
  match waiting?, ArgumentForm.ofString arg with
  | some o, .plain value => ofResult (c.setValue o value)
  | some o, _ => .error (.missingValue ("--" ++ o.name))
  | none, .plain path => ofResult (c.setPath path)
  | none, .endOfOptions => .ok (pathsOnly c)
  | none, .named name value? => ofName c name value?
  | none, .letters cs => ofLetters c cs

/-! ## All arguments -/

namespace Request

/-- Reads arguments behind the end of options. -/
def ofPaths (c : CommandLine) : List String → Except UsageFault Request
  | [] => .ok (.dump c)
  | arg :: args =>
    match c.setPath arg with
    | .ok c => ofPaths c args
    | .error e => .error e

/-- Reads arguments. If an option waits for its value, the first argument must be that. -/
def ofArgumentsFrom (c : CommandLine) (waiting? : Option ValueOption) :
    List String → Except UsageFault Request
  | [] =>
    match waiting? with
    | some o => .error (.missingValue ("--" ++ o.name))
    | none => .ok (.dump c)
  | arg :: args =>
    match ArgumentStep.ofArgument c waiting? arg with
    | .ok (.more c) => ofArgumentsFrom c none args
    | .ok (.awaiting c o) => ofArgumentsFrom c (some o) args
    | .ok (.pathsOnly c) => ofPaths c args
    | .ok (.stop r) => .ok r
    | .error e => .error e

/-- What the arguments ask for. -/
def ofArguments (args : List String) : Except UsageFault Request :=
  ofArgumentsFrom {} none args

end Request

end TypeInventory
