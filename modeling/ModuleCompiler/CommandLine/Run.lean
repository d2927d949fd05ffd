import ModuleCompiler.CommandLine.Files
import ModuleCompiler.CommandLine.Help
import ModuleCompiler.Compiler.Progress
import ModuleCompiler.Log.Sink
import ModuleCompiler.Module.Render
import ModuleCompiler.Settings.Load

/-!
The run of a request: settings first, then logs, then the command. What goes wrong is told last,
after all that was logged.
-/

namespace ModuleCompiler

inductive Failure where
  | settings (e : LoadError)
  | unreadable (path : String) (e : FileFault)
  | uncompilable (source : String) (e : CompileError)

namespace Failure

def message : Failure → String
  | settings e => e.message
  | unreadable path _ => s!"Failed to read '{path}'"
  | uncompilable source e => s!"{source}: {e.category.name} error: {e.report}"

def cause : Failure → Option String
  | settings e => some e.fault.message
  | unreadable _ e => some e.message
  | uncompilable .. => none

def indented (text : String) : String :=
  "\n".intercalate ((text.splitOn "\n").map ("    " ++ ·))

/-- The message, and the cause below it. -/
def report (f : Failure) : String :=
  "Error: " ++ f.message ++ "\n" ++
    match f.cause with
    | none => ""
    | some cause => "\nCaused by:\n" ++ indented cause ++ "\n"

end Failure

structure LogFile where
  path : String
  records : List Tree
  deriving Inhabited

structure Outcome where
  code : UInt8 := 0
  output : String := ""
  messages : String := ""
  log : Option LogFile := none
  deriving Inhabited

structure Logs where
  console : Log.Sink
  file : Option (String × Log.Sink) := none
  complaint : String := ""

namespace Logs

def capVariable : String := "RUST_LOG"

def cap (environment : Environment) : Option Log.Cap :=
  (environment.lookup capVariable).bind Log.Cap.ofText?

def fileName? (sections : LogSections) : Option String :=
  ((sections.get? LogSections.defaultName).map (·.file)).filter fun file =>
    !(trim file.toList).isEmpty

/-- Log files are seen from `base`. -/
def ofSections [Monad m] (access : FileAccess m) (sections : LogSections) (cap : Option Log.Cap)
    (base : String) : m Logs := do
  let logs : Logs := { console := ⟨.console sections, cap⟩ }
  match fileName? sections with
  | none => return logs
  | some file =>
    let path := Log.pathFrom base file
    match ← access.makeParents path with
    | .ok () => return { logs with file := some (path, ⟨.file sections, cap⟩) }
    | .error e =>
      return { logs with
        complaint := s!"Failed to initialize log file '{file}': {e.message}\n" }

/-- A result among the entries that were logged on the way to it. -/
def outcome (logs : Logs) (entries : List Log.Entry) (result : Except Failure String) :
    Outcome where
  code := match result with
    | .ok _ => 0
    | .error _ => 1
  output := match result with
    | .ok text => text
    | .error _ => ""
  messages :=
    logs.complaint ++ String.join ((logs.console.receive entries).map (·.line ++ "\n")) ++
      match result with
      | .ok _ => ""
      | .error f => f.report
  log := logs.file.map fun (path, sink) => ⟨path, (sink.receive entries).map (·.toTree)⟩

end Logs

namespace Command

/-- The file that a command reads; the standard input is none. -/
def sourceName : Option String → String
  | none => "<stdin>"
  | some path => path

def readSource [Monad m] (access : FileAccess m) : Option String → m (Except Failure ByteArray)
  | none => return .ok (← access.input)
  | some path => return (← access.read path).mapError (.unreadable path)

def starting (source : String) (size : Nat) : Log.Entry where
  level := .info
  target := "modfile"
  message := "compiling modfile"
  fields := [("source", .shown source), ("bytes", .number size)]

def compileBytes (source : String) (present : Module → String) (bytes : ByteArray) :
    List Log.Entry × Except Failure String :=
  let doc := Yaml.Document.ofBytes bytes
  (starting source bytes.size :: Progress.ofDocument bytes.size doc,
    match Compiler.standard.compile doc with
    | .ok m => .ok (present m)
    | .error e => .error (.uncompilable source e))

def compileSource [Monad m] (access : FileAccess m) (file : Option String)
    (present : Module → String) : m (List Log.Entry × Except Failure String) := do
  match ← readSource access file with
  | .error f => return ([], .error f)
  | .ok bytes => return compileBytes (sourceName file) present bytes

def verdict (source : String) (m : Module) : String :=
  s!"{source} is valid ({m.services.size} services, {m.auxServices.size} aux services)\n"

def run [Monad m] (access : FileAccess m) (o : OutputSettings) :
    Command → m (List Log.Entry × Except Failure String)
  | .versions =>
    return ([], .ok (String.join (Compiler.standard.registry.versions.map (· ++ "\n"))))
  | .compile file => compileSource access file fun m => m.render o ++ "\n"
  | .check file => compileSource access file (verdict (sourceName file))

end Command

namespace Request

def settingsFile [Monad m] (access : FileAccess m) (r : Request) :
    m (Option Settings.FileChoice) := do
  match r.config with
  | none => return none
  | some path => return some ⟨path, (← access.read path).toOption.map .ofBytes⟩

def baseDirectory (r : Request) : String := (r.config.bind FilePath.parent?).getD "."

def run [Monad m] (access : FileAccess m) (environment : Environment) (r : Request) :
    m Outcome := do
  match Settings.load (← r.settingsFile access) environment with
  | .error e => return { code := 1, messages := (Failure.settings e).report }
  | .ok loaded =>
    let settings := loaded.override r.overrides
    let sections := settings.logging.getD .standard
    let logs ← Logs.ofSections access sections (Logs.cap environment) r.baseDirectory
    if r.printConfig then return logs.outcome [] (.ok (settings.toYaml ++ "\n"))
    let (entries, result) ← r.command.run access settings.output
    return logs.outcome (Progress.registered Compiler.standard.registry :: entries) result

end Request

def Halt.outcome : Halt → Outcome
  | misuse e => { code := 2, messages := "error: " ++ e.message ++ "\n" }
  | help topic => { output := topic.text }
  | version => { output := "modfile 0.1.0\n" }

def runProgram [Monad m] (access : FileAccess m) (environment : Environment)
    (args : List String) : m Outcome :=
  match Request.ofArguments args with
  | .error h => return h.outcome
  | .ok r => r.run access environment

end ModuleCompiler
