import ModuleCompiler.CommandLine.Run
import ModuleCompiler.Tree.Json

/-!
The program: access to the real files, the environment and the standard streams around a run.
-/

namespace ModuleCompiler.Main

/-- Codes of the system come with either sign. -/
def isCode (code : UInt32) (n : UInt32) : Bool := code = n || code = 0 - n

def faultOf : IO.Error → FileFault
  | .noFileOrDirectory .. => .missing
  | .alreadyExists .. => .occupied
  | .inappropriateType _ code details =>
    if isCode code 20 then .noDirectory
    else if isCode code 21 then .isDirectory
    else .other details
  | e => .other (toString e)

def guarded (act : IO α) : IO (Except FileFault α) := do
  match ← act.toBaseIO with
  | .ok a => return .ok a
  | .error e => return .error (faultOf e)

partial def readToEnd (stream : IO.FS.Stream) (read : ByteArray) : IO ByteArray := do
  let more ← stream.read 65536
  if more.isEmpty then return read else readToEnd stream (read ++ more)

/-- Directories above are made only where they are missing. -/
def makeDirectory (path : String) : IO (Except FileFault Unit) := do
  match ← guarded (IO.FS.createDir path) with
  | .error .missing => guarded (IO.FS.createDirAll path)
  | .error .occupied => guarded (IO.FS.createDirAll path)
  | result => return result

def access : FileAccess IO where
  input := do readToEnd (← IO.getStdin) .empty
  read := fun path => guarded (IO.FS.readBinFile path)
  makeParents := fun path =>
    match FilePath.parent? path with
    | none => return .ok ()
    | some "" => return .ok ()
    | some directory => makeDirectory directory

/-- Variables as the kernel lists them, each ended by a zero byte. -/
def environment : IO (List (String × String)) := do
  match ← guarded (IO.FS.readBinFile "/proc/self/environ") with
  | .error _ => return []
  | .ok bytes =>
    return ((String.fromUTF8? bytes).getD "").splitOn "\x00" |>.filterMap fun entry =>
      match entry.splitOn "=" with
      | name :: value@(_ :: _) => some (name, "=".intercalate value)
      | _ => none

def appendLog (log : LogFile) : IO Unit := do
  let lines := log.records.map fun record => record.toJson false ++ "\n"
  IO.FS.withFile log.path .append fun handle => handle.putStr (String.join lines)

end ModuleCompiler.Main

open ModuleCompiler in
def main (args : List String) : IO UInt32 := do
  let outcome ← runProgram Main.access (← Main.environment) args
  (← IO.getStdout).putStr outcome.output
  (← IO.getStderr).putStr outcome.messages
  match outcome.log with
  | none => pure ()
  | some log => discard (Main.guarded (Main.appendLog log))
  return outcome.code.toUInt32
